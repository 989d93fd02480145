import ComponentLint.Json.Value

/-!
# Writing JSON texts

A value on one line, without blanks. Characters that could end a line are escaped.
-/

namespace ComponentLint.Json

/-- Four hexadecimal digits. -/
def hex4 (n : Nat) : List Char :=
  let digits := Nat.toDigits 16 n
  List.replicate (4 - digits.length) '0' ++ digits

/-- Whether a character is written as an escape with its number. -/
def needsNumber (c : Char) : Bool :=
  let n := c.toNat
  n < 0x20 || n == 0x7F || n == 0x85 || n == 0x2028 || n == 0x2029

/-- A character as it stands in a string. -/
def writeChar (c : Char) : List Char :=
  if c == '"' then ['\\', '"']
  else if c == '\\' then ['\\', '\\']
  else if needsNumber c then '\\' :: 'u' :: hex4 c.toNat
  else [c]

/-- A string in quotes. -/
def writeString (s : String) : List Char := '"' :: (s.toList.flatMap writeChar ++ ['"'])

/-- A number. -/
def writeNumber : JsonNumber → List Char
  | .natural n => Number.digitsOf n
  | .negative n => '-' :: Number.digitsOf n
  | .float v => v.compact

mutual

/-- A value. -/
def write : Json → List Char
  | .null => "null".toList
  | .bool b => if b then "true".toList else "false".toList
  | .number n => writeNumber n
  | .string s => writeString s
  | .array elements => '[' :: (writeElements elements ++ [']'])
  | .object entries => '\x7b' :: (writeEntries entries ++ ['\x7d'])

/-- The elements of an array with commas between them. -/
def writeElements : List Json → List Char
  | [] => []
  | [v] => v.write
  | v :: rest => v.write ++ ',' :: writeElements rest

/-- The entries of an object with commas between them. -/
def writeEntries : List (String × Json) → List Char
  | [] => []
  | [(key, v)] => writeString key ++ ':' :: v.write
  | (key, v) :: rest => writeString key ++ ':' :: (v.write ++ ',' :: writeEntries rest)

end

/-- The text of a value. -/
def render (v : Json) : String := String.ofList v.write

end ComponentLint.Json
