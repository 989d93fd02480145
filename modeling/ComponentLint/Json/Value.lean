import ComponentLint.Number.Notation

/-!
# JSON values

Options of rules and whole requests are JSON values. Numbers keep the distinction that the data
format makes: a whole number in the range of 64 bits is an integer, everything else is a double.
The entries of an object are sorted by key, and a repeated key keeps its last value.
-/

namespace ComponentLint

open Number (Double)

/-- A number of a JSON text. -/
inductive JsonNumber where
  /-- A whole number from `0` to `2 ^ 64 - 1`. -/
  | natural (n : Nat)
  /-- A whole number from `-2 ^ 63` to `-1`; the argument is its magnitude. -/
  | negative (n : Nat)
  /-- Any other number. -/
  | float (value : Double)
deriving DecidableEq, Repr, Inhabited

/-- A JSON value. -/
inductive Json where
  | null
  | bool (value : Bool)
  | number (value : JsonNumber)
  | string (value : String)
  | array (elements : List Json)
  | object (entries : List (String × Json))
deriving Repr, Inhabited

namespace JsonNumber

/-- The number with a given magnitude and sign, as an integer if it is in range. Minus zero is a
double. -/
def ofNat (isNegative : Bool) (n : Nat) : JsonNumber :=
  if isNegative then
    if n = 0 then .float (.zero true)
    else if n ≤ Nat.pow 2 63 then .negative n
    else .float (Double.ofRatio true n 1)
  else if n < Nat.pow 2 64 then .natural n
  else .float (Double.ofRatio false n 1)

end JsonNumber

namespace Json

/-- Puts an entry in its place among sorted entries, over an earlier one with the same key. -/
def insertEntry (key : String) (value : Json) : List (String × Json) → List (String × Json)
  | [] => [(key, value)]
  | (k, v) :: rest =>
    if key = k then (key, value) :: rest
    else if key < k then (key, value) :: (k, v) :: rest
    else (k, v) :: insertEntry key value rest

/-- The object with the given entries, in the order in which they were written. -/
def ofEntries (entries : List (String × Json)) : Json :=
  .object (entries.foldl (fun sorted (k, v) => insertEntry k v sorted) [])

/-- The value of a key of an object. -/
def get? (key : String) : Json → Option Json
  | .object entries => (entries.find? (·.1 = key)).map (·.2)
  | _ => none

/-- The text of a string value. -/
def string? : Json → Option String
  | .string s => some s
  | _ => none

/-- The truth value of a boolean. -/
def bool? : Json → Option Bool
  | .bool b => some b
  | _ => none

/-- The elements of an array. -/
def array? : Json → Option (List Json)
  | .array elements => some elements
  | _ => none

/-- The value of a number that is whole and not negative. -/
def nat? : Json → Option Nat
  | .number (.natural n) => some n
  | _ => none

end Json

end ComponentLint
