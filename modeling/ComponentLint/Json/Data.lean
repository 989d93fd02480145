import ComponentLint.Json.Value
import ComponentLint.Text.Quoted

/-!
# Data in JSON values

Options and configurations are JSON values of a given shape. A value of another shape is a
`DataFault`, with a message that names what was found and what was expected.

A record is an object with known fields, or an array with the values of these fields in order. Its
fields are taken one after the other, an object's in the order of their keys, and the first fault
counts. What is missing is told only at the end.
-/

namespace ComponentLint

/-- The ways in which a JSON value has the wrong shape. -/
inductive DataFault where
  /-- A value of one kind stands where another was expected. -/
  | wrongType (found expected : String)
  /-- A whole number is too large. -/
  | outOfRange (n : Nat)
  /-- A record has a field that it does not know. -/
  | unknownField (name : String) (known : List String)
  /-- A record has a field twice. -/
  | duplicateField (name : String)
  /-- A record lacks a field. -/
  | missingField (name : String)
  /-- An array is too short for a record with the given name and number of fields. -/
  | tooShort (length : Nat) (record : String) (fields : Nat)
  /-- An array is too long for a record. -/
  | tooLong (length : Nat)
  /-- A rule's setting is neither a level nor an array with a level and perhaps options. -/
  | noSetting
deriving DecidableEq, Repr, Inhabited

namespace Json

/-- A text between the marks that messages put around code. -/
def marked (s : String) : String := "`" ++ s ++ "`"

/-- What messages call a number. -/
def describeNumber : JsonNumber → String
  | .natural n => "integer " ++ marked (toString n)
  | .negative n => "integer " ++ marked ("-" ++ toString n)
  | .float v => "floating point " ++ marked (String.ofList v.compact)

/-- What messages call a value. -/
def describe : Json → String
  | .null => "null"
  | .bool b => "boolean " ++ marked (if b then "true" else "false")
  | .number n => describeNumber n
  | .string s => "string " ++ String.ofList (Text.quoted s.toList)
  | .array _ => "sequence"
  | .object _ => "map"

end Json

namespace DataFault

/-- The names of fields, one of which was expected. -/
def fieldList : List String → String
  | [] => "there are no fields"
  | [a] => "expected " ++ Json.marked a
  | [a, b] => "expected " ++ Json.marked a ++ " or " ++ Json.marked b
  | many => "expected one of " ++ ", ".intercalate (many.map Json.marked)

/-- The message of a fault. -/
def message : DataFault → String
  | .wrongType found expected => "invalid type: " ++ found ++ ", expected " ++ expected
  | .outOfRange n => "invalid value: integer " ++ Json.marked (toString n) ++ ", expected i64"
  | .unknownField name known => "unknown field " ++ Json.marked name ++ ", " ++ fieldList known
  | .duplicateField name => "duplicate field " ++ Json.marked name
  | .missingField name => "missing field " ++ Json.marked name
  | .tooShort length record fields =>
    "invalid length " ++ toString length ++ ", expected struct " ++ record ++ " with " ++
      toString fields ++ (if fields = 1 then " element" else " elements")
  | .tooLong length =>
    "invalid length " ++ toString length ++ ", expected fewer elements in array"
  | .noSetting => "data did not match any variant of untagged enum RuleSetting"

end DataFault

namespace Json

/-- The fault of a value that is of another kind than expected. -/
def mismatch {α : Type} (v : Json) (expected : String) : Except DataFault α :=
  .error (.wrongType v.describe expected)

/-- The text of a value. -/
def asString : Json → Except DataFault String
  | .string s => .ok s
  | v => v.mismatch "a string"

/-- The truth value of a value. -/
def asBool : Json → Except DataFault Bool
  | .bool b => .ok b
  | v => v.mismatch "a boolean"

/-- The whole number of a value, in 64 bits with a sign. -/
def asInt : Json → Except DataFault Int
  | .number (.natural n) => if n < Nat.pow 2 63 then .ok n else .error (.outOfRange n)
  | .number (.negative n) => .ok (-n)
  | v => v.mismatch "i64"

/-- The elements of a value, each read with `element`. -/
def asList {α : Type} (element : Json → Except DataFault α) : Json → Except DataFault (List α)
  | .array elements => elements.mapM element
  | v => v.mismatch "a sequence"

/-- A value that may also be null. -/
def asOption {α : Type} (read : Json → Except DataFault α) : Json → Except DataFault (Option α)
  | .null => .ok none
  | v => (read v).map some

end Json

/-- How a record is read; `σ` holds the fields that have been read so far. -/
structure JsonRecord (σ : Type) where
  /-- What messages call the record. -/
  title : String
  /-- The names of its fields. -/
  fields : List String
  /-- How many of the fields an array must have. -/
  required : Nat
  /-- The record without any field. -/
  empty : σ
  /-- Reads the value of one of the fields. -/
  put : String → Json → σ → Except DataFault σ

namespace JsonRecord

variable {σ : Type}

/-- Reads the field of an entry. -/
def entry (r : JsonRecord σ) (s : σ) (e : String × Json) : Except DataFault σ :=
  if r.fields.contains e.1 then r.put e.1 e.2 s else .error (.unknownField e.1 r.fields)

/-- The fields in the entries of an object. -/
def ofEntries (r : JsonRecord σ) (entries : List (String × Json)) : Except DataFault σ :=
  entries.foldlM r.entry r.empty

/-- The fields in the elements of an array. -/
def ofElements (r : JsonRecord σ) (elements : List Json) : Except DataFault σ := do
  let s ← (r.fields.zip elements).foldlM r.entry r.empty
  if elements.length < r.required then
    throw (.tooShort elements.length r.title r.fields.length)
  if r.fields.length < elements.length then throw (.tooLong elements.length)
  return s

/-- The fields of a record. -/
def read (r : JsonRecord σ) : Json → Except DataFault σ
  | .object entries => r.ofEntries entries
  | .array elements => r.ofElements elements
  | v => v.mismatch ("struct " ++ r.title)

end JsonRecord

/-- The value of a field that has to be there. -/
def needed {α : Type} (field : String) : Option α → Except DataFault α
  | some v => .ok v
  | none => .error (.missingField field)

end ComponentLint
