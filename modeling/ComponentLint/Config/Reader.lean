import ComponentLint.Config.Basic
import ComponentLint.Json.Reader

/-!
# Reading configurations

The text of a configuration is read from its beginning to its end, and the first thing that is wrong
is reported: the text ends too early, it is no JSON, or it is JSON of the wrong shape. So a field
with an unknown name is reported even if the text after it is broken.
-/

namespace ComponentLint

/-- The reasons for which the text of a configuration cannot be read. -/
inductive ConfigTextFault where
  /-- The text is no JSON. -/
  | text (fault : JsonFault)
  /-- The text has the wrong shape. -/
  | data (fault : DataFault)
deriving DecidableEq, Repr, Inhabited

/-- The message of a text with the wrong shape. -/
def ConfigTextFault.dataMessage (fault : DataFault) : String :=
  "malformed lint configuration: " ++ fault.message

namespace Config

/-- A reader of a part of a configuration. -/
abbrev Read (α : Type) := List Char → Except ConfigTextFault (α × List Char)

/-- A result of reading JSON as one of reading a configuration. -/
def ofText {α : Type} (result : Except JsonFault α) : Except ConfigTextFault α :=
  result.mapError .text

/-- The fault of something unexpected at the beginning of a text. A simple value is read to its end
first. -/
def unexpected (expected : String) (s : List Char) : ConfigTextFault :=
  match Json.scalar? s with
  | some (.ok (v, _)) => .data (.wrongType v.describe expected)
  | some (.error fault) => .text fault
  | none => .data (.wrongType (if s.head? = some '[' then "sequence" else "map") expected)

/-- How deeply the setting of a rule may be nested: two levels are used up around it. -/
def settingDepth : Nat := Json.maxDepth - 2

/-- Reads the setting of a rule. -/
def readSetting (fuel : Nat) (s : List Char) : Except ConfigTextFault (Setting × List Char) := do
  let (v, rest) ← ofText (Json.value fuel settingDepth (Json.skipBlanks s))
  match Setting.ofJson? v with
  | some setting => return (setting, rest)
  | none => throw (.data .noSetting)

/-- Reads rules with their settings up to the closing brace. -/
def readRules : Nat → List (String × Setting) → Read (List (String × Setting))
  | 0, _, _ => .error (.text .malformed)
  | fuel + 1, done, s => do
    let (key, rest) ← ofText (Json.key s)
    let rest ← ofText (Json.colon rest)
    let (setting, rest) ← readSetting (fuel + 1) rest
    let done := putRule key setting done
    match ← ofText (Json.separator '\x7d' rest) with
    | (.done, rest) => return (done, rest)
    | (.more, rest) => readRules fuel done rest

/-- Reads the value of the field with the rules. -/
def rulesField (fuel : Nat) (s : List Char) :
    Except ConfigTextFault (List (String × Setting) × List Char) :=
  match Json.skipBlanks s with
  | '\x7b' :: rest =>
    match Json.skipBlanks rest with
    | '\x7d' :: rest => .ok ([], rest)
    | rest => readRules fuel [] rest
  | other => .error (unexpected "a map" other)

/-- Reads the value of the field that tells whether types are looked at. -/
def typeAwareField (s : List Char) : Except ConfigTextFault (Bool × List Char) :=
  let s := Json.skipBlanks s
  match Json.scalar? s with
  | some (.ok (.bool b, rest)) => .ok (b, rest)
  | _ => .error (unexpected "a boolean" s)

/-- The names of the fields. -/
def fieldNames : List String := ["rules", "typeAware"]

/-- A configuration whose fields are not all known yet. -/
structure Fields where
  /-- The settings of rules. -/
  rules : Option (List (String × Setting)) := none
  /-- Whether types are looked at. -/
  typeAware : Option Bool := none

/-- The configuration with the given fields and defaults for the others. -/
def Fields.finish (f : Fields) : Config := ⟨f.rules.getD [], f.typeAware.getD false⟩

/-- Reads a field after its name. -/
def readField (fuel : Nat) (name : String) (f : Fields) (s : List Char) :
    Except ConfigTextFault (Fields × List Char) :=
  match name with
  | "rules" => do
    if f.rules.isSome then throw (.data (.duplicateField name))
    let (rules, rest) ← rulesField fuel (← ofText (Json.colon s))
    return ({ f with rules := some rules }, rest)
  | "typeAware" => do
    if f.typeAware.isSome then throw (.data (.duplicateField name))
    let (b, rest) ← typeAwareField (← ofText (Json.colon s))
    return ({ f with typeAware := some b }, rest)
  | _ => .error (.data (.unknownField name fieldNames))

/-- Reads fields up to the closing brace. -/
def readFields : Nat → Fields → Read Fields
  | 0, _, _ => .error (.text .malformed)
  | fuel + 1, f, s => do
    let (name, rest) ← ofText (Json.key s)
    let (f, rest) ← readField (fuel + 1) name f rest
    match ← ofText (Json.separator '\x7d' rest) with
    | (.done, rest) => return (f, rest)
    | (.more, rest) => readFields fuel f rest

/-- Reads a configuration that is written as an array, after the opening bracket: the rules and then
whether types are looked at. Both may be left out. -/
def readElements (fuel : Nat) (s : List Char) : Except ConfigTextFault (Config × List Char) := do
  match Json.skipBlanks s with
  | ']' :: rest => return ({}, rest)
  | s =>
    let (rules, rest) ← rulesField fuel s
    match ← ofText (Json.separator ']' rest) with
    | (.done, rest) => return (⟨rules, false⟩, rest)
    | (.more, rest) =>
      let (typeAware, rest) ← typeAwareField rest
      match ← ofText (Json.separator ']' rest) with
      | (.done, rest) => return (⟨rules, typeAware⟩, rest)
      | (.more, _) => throw (.text .malformed)

/-- Reads a configuration in either form. -/
def readConfig (fuel : Nat) (s : List Char) : Except ConfigTextFault (Config × List Char) :=
  match Json.skipBlanks s with
  | '[' :: rest => readElements fuel rest
  | '\x7b' :: rest =>
    match Json.skipBlanks rest with
    | '\x7d' :: rest => .ok ({}, rest)
    | rest => (readFields fuel {} rest).map fun (f, rest) => (f.finish, rest)
  | other => .error (unexpected "struct LintConfig" other)

/-- The configuration with the given text. -/
def parse (text : String) : Except ConfigTextFault Config := do
  let s := text.toList
  let (config, rest) ← readConfig (s.length + 1) s
  if (Json.skipBlanks rest).isEmpty then return config else throw (.text .malformed)

end Config

end ComponentLint
