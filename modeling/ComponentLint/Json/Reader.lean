import ComponentLint.Json.Value
import ComponentLint.Span

/-!
# Reading JSON texts

A reader over the characters of a text. It fails in one of two ways: the text ends too early, or it
is no JSON at all. Arrays and objects may be nested 127 deep; this depth is what the recursion of
`Json.value` goes down by, while the loops over the members of one array or object are bounded by
the length of the text.
-/

namespace ComponentLint

open Number (Double)

/-- The ways in which a text fails to be JSON. -/
inductive JsonFault where
  /-- The text ends where more was needed. -/
  | eof
  /-- The text goes on with something that cannot stand there. -/
  | malformed
deriving DecidableEq, Repr, Inhabited

/-- A reader takes something off the front of a text. -/
abbrev JsonRead (α : Type) := List Char → Except JsonFault (α × List Char)

namespace Json

/-- How deeply arrays and objects may be nested. -/
def maxDepth : Nat := 127

/-- The blanks that may stand between the parts of a JSON text. -/
def isBlank (c : Char) : Bool := c == ' ' || c == '\n' || c == '\t' || c == '\r'

/-- A text without its leading blanks. -/
def skipBlanks (s : List Char) : List Char := s.dropWhile isBlank

/-- The value of a hexadecimal digit. -/
def hexValue? (c : Char) : Option Nat :=
  if '0' ≤ c ∧ c ≤ '9' then some (c.toNat - '0'.toNat)
  else if 'a' ≤ c ∧ c ≤ 'f' then some (c.toNat - 'a'.toNat + 10)
  else if 'A' ≤ c ∧ c ≤ 'F' then some (c.toNat - 'A'.toNat + 10)
  else none

/-- The value of four hexadecimal digits. -/
def hex4? (a b c d : Char) : Option Nat := do
  let a ← hexValue? a
  let b ← hexValue? b
  let c ← hexValue? c
  let d ← hexValue? d
  return ((a * 16 + b) * 16 + c) * 16 + d

/-- The character of a one-letter escape. -/
def simpleEscape? (c : Char) : Option Char :=
  match c with
  | '"' => some '"'
  | '\\' => some '\\'
  | '/' => some '/'
  | 'b' => some '\x08'
  | 'f' => some '\x0c'
  | 'n' => some '\n'
  | 'r' => some '\r'
  | 't' => some '\t'
  | _ => none

/-- How an escape with fewer than four characters after its letter fails: the text is malformed if
these take four bytes, and otherwise too short. -/
def shortEscape (rest : List Char) : JsonFault :=
  if 4 ≤ byteLength rest then .malformed else .eof

/-- The rest of a string whose opening quote has been read; `done` holds what came before, last
character first. A surrogate half has to be followed by its other half. -/
def stringTail (done : List Char) : JsonRead String
  | [] => .error .eof
  | '"' :: rest => .ok (String.ofList done.reverse, rest)
  | '\\' :: 'u' :: a :: b :: c :: d :: rest =>
    match hex4? a b c d with
    | none => .error .malformed
    | some n =>
      if 0xD800 ≤ n ∧ n < 0xDC00 then
        match rest with
        | [] => .error .eof
        | ['\\'] => .error .eof
        | '\\' :: 'u' :: e :: f :: g :: h :: more =>
          match hex4? e f g h with
          | none => .error .malformed
          | some low =>
            if 0xDC00 ≤ low ∧ low < 0xE000 then
              let code := 0x10000 + (n - 0xD800) * 0x400 + (low - 0xDC00)
              stringTail (Char.ofNat code :: done) more
            else .error .malformed
        | '\\' :: 'u' :: more => .error (shortEscape more)
        | _ => .error .malformed
      else if 0xDC00 ≤ n ∧ n < 0xE000 then .error .malformed
      else stringTail (Char.ofNat n :: done) rest
  | '\\' :: 'u' :: rest => .error (shortEscape rest)
  | ['\\'] => .error .eof
  | '\\' :: c :: rest =>
    match simpleEscape? c with
    | some e => stringTail (e :: done) rest
    | none => .error .malformed
  | c :: rest =>
    if c.toNat < 0x20 then .error .malformed else stringTail (c :: done) rest

/-- Reads the letters of a literal name. -/
def literalTail {α : Type} (value : α) : List Char → JsonRead α
  | [], rest => .ok (value, rest)
  | _ :: _, [] => .error .eof
  | c :: letters, d :: rest => if c = d then literalTail value letters rest else .error .malformed

/-- Reads at least one decimal digit. -/
def digits1 : JsonRead (List Char)
  | [] => .error .eof
  | c :: rest =>
    if c.isDigit then .ok (c :: rest.takeWhile Char.isDigit, rest.dropWhile Char.isDigit)
    else .error .malformed

/-- Reads the fraction of a number, if there is one. -/
def fraction : JsonRead (Option (List Char))
  | '.' :: rest => (digits1 rest).map fun (digits, rest) => (some digits, rest)
  | rest => .ok (none, rest)

/-- Reads the exponent of a number, if there is one. -/
def exponent : JsonRead (Option Int)
  | [] => .ok (none, [])
  | c :: rest =>
    if c == 'e' || c == 'E' then
      let (isNegative, rest) :=
        match rest with
        | '-' :: more => (true, more)
        | '+' :: more => (false, more)
        | _ => (false, rest)
      (digits1 rest).map fun (digits, rest) =>
        let n : Int := Double.digitsValue digits
        (some (if isNegative then -n else n), rest)
    else .ok (none, c :: rest)

/-- The bound below which the significand of a number is kept. -/
def significandBound : Nat := Nat.pow 2 64

/-- Takes digits onto a significand while it stays below its bound; the digits that are left begin
with the first that did not fit. -/
def takeDigits (significand : Nat) : List Char → Nat × List Char
  | [] => (significand, [])
  | c :: rest =>
    let next := 10 * significand + (c.toNat - '0'.toNat)
    if next < significandBound then takeDigits next rest else (significand, c :: rest)

/-- The greatest power of ten that a double is multiplied with or divided by in one step. -/
def maxPower : Nat := 308

/-- The double `10 ^ n`. -/
def powerOfTen (n : Nat) : Double := .ofDecimal false 1 n

/-- A double times a power of ten, rounded after every step; at most `steps` divisions by the
greatest power come first. A number beyond the doubles is none. -/
def scale (value : Double) (power : Int) : Nat → Option Double
  | 0 => some value
  | steps + 1 =>
    if power.natAbs ≤ maxPower then
      if 0 ≤ power then some (value.mul (powerOfTen power.natAbs)) |>.filter (·.isFinite)
      else some (value.div (powerOfTen power.natAbs))
    else if value.isZero then some value
    else if 0 ≤ power then none
    else scale (value.div (powerOfTen maxPower)) (power + maxPower) steps

/-- The number `significand * 10 ^ power` as a double. A significand is so small that two divisions
by the greatest power leave nothing of it. -/
def float (isNegative : Bool) (significand : Nat) (power : Int) : Except JsonFault JsonNumber :=
  match scale (.ofNat significand) power 4 with
  | some value => .ok (.float (if isNegative then value.negate else value))
  | none => .error .malformed

/-- Reads a number after its sign. Leading zeros and numbers beyond the doubles are refused. Of a
long number only the digits that fit the significand count: further digits before the point raise
the power of ten, and further digits after it are passed over. -/
def numberTail (isNegative : Bool) (s : List Char) : Except JsonFault (JsonNumber × List Char) := do
  let (units, rest) ← digits1 s
  if units.length > 1 && units.head? == some '0' then throw .malformed
  let (places, rest) ← fraction rest
  let (power, rest) ← exponent rest
  let (significand, more) := takeDigits 0 units
  if places.isNone && power.isNone && more.isEmpty then
    return (.ofNat isNegative significand, rest)
  let places := places.getD []
  let (significand, dropped) := takeDigits significand places
  let shift : Int := (more.length : Int) - (places.length - dropped.length : Nat)
  return (← float isNegative significand (power.getD 0 + shift), rest)

/-- Reads `null`, a boolean, a number or a string; `none` if an array or an object stands here. -/
def scalar? (s : List Char) : Option (Except JsonFault (Json × List Char)) :=
  match s with
  | [] => some (.error .eof)
  | '[' :: _ => none
  | '\x7b' :: _ => none
  | 'n' :: rest => some (literalTail .null "ull".toList rest)
  | 't' :: rest => some (literalTail (.bool true) "rue".toList rest)
  | 'f' :: rest => some (literalTail (.bool false) "alse".toList rest)
  | '"' :: rest => some ((stringTail [] rest).map fun (t, rest) => (.string t, rest))
  | '-' :: rest => some ((numberTail true rest).map fun (n, rest) => (.number n, rest))
  | c :: rest =>
    if c.isDigit then some ((numberTail false (c :: rest)).map fun (n, rest) => (.number n, rest))
    else some (.error .malformed)

/-- Reads a member of an object up to its colon: the key. -/
def key (s : List Char) : Except JsonFault (String × List Char) :=
  match skipBlanks s with
  | [] => .error .eof
  | '"' :: rest => stringTail [] rest
  | _ => .error .malformed

/-- Reads the colon between key and value. -/
def colon (s : List Char) : Except JsonFault (List Char) :=
  match skipBlanks s with
  | [] => .error .eof
  | ':' :: rest => .ok rest
  | _ => .error .malformed

/-- What stands between two members, or after the last. -/
inductive Separator where
  /-- A comma: another member has to follow. -/
  | more
  /-- The closing bracket. -/
  | done
deriving DecidableEq, Repr

/-- Reads a comma or the closing bracket. -/
def separator (close : Char) (s : List Char) : Except JsonFault (Separator × List Char) :=
  match skipBlanks s with
  | [] => .error .eof
  | c :: rest =>
    if c = close then .ok (.done, rest)
    else if c = ',' then .ok (.more, rest)
    else .error .malformed

/-- Reads elements up to the closing bracket, each with `element`. -/
def elements (element : JsonRead Json) : Nat → List Json → JsonRead (List Json)
  | 0, _, _ => .error .malformed
  | fuel + 1, done, s => do
    let (value, rest) ← element (skipBlanks s)
    match ← separator ']' rest with
    | (.done, rest) => return ((value :: done).reverse, rest)
    | (.more, rest) => elements element fuel (value :: done) rest

/-- Reads entries up to the closing brace, each value with `element`. -/
def entries (element : JsonRead Json) :
    Nat → List (String × Json) → JsonRead (List (String × Json))
  | 0, _, _ => .error .malformed
  | fuel + 1, done, s => do
    let (name, rest) ← key s
    let rest ← colon rest
    let (value, rest) ← element (skipBlanks rest)
    match ← separator '\x7d' rest with
    | (.done, rest) => return (((name, value) :: done).reverse, rest)
    | (.more, rest) => entries element fuel ((name, value) :: done) rest

/-- Reads an array after its opening bracket. -/
def arrayTail (element : JsonRead Json) (fuel : Nat) (s : List Char) :
    Except JsonFault (List Json × List Char) :=
  match skipBlanks s with
  | ']' :: rest => .ok ([], rest)
  | rest => elements element fuel [] rest

/-- Reads an object after its opening brace. -/
def objectTail (element : JsonRead Json) (fuel : Nat) (s : List Char) :
    Except JsonFault (List (String × Json) × List Char) :=
  match skipBlanks s with
  | '\x7d' :: rest => .ok ([], rest)
  | rest => entries element fuel [] rest

/-- Reads a value in which arrays and objects are nested at most `depth` deep; `fuel` bounds the
number of members. -/
def value (fuel : Nat) : Nat → JsonRead Json
  | 0, s => (scalar? s).getD (.error .malformed)
  | depth + 1, s =>
    match scalar? s with
    | some result => result
    | none =>
      match s with
      | '[' :: rest =>
        (arrayTail (value fuel depth) fuel rest).map fun (es, rest) => (.array es, rest)
      | _ :: rest =>
        (objectTail (value fuel depth) fuel rest).map fun (es, rest) => (ofEntries es, rest)
      | [] => .error .eof

/-- Reads a whole text as one value. -/
def parse (text : String) : Except JsonFault Json := do
  let s := text.toList
  let (v, rest) ← value (s.length + 1) maxDepth (skipBlanks s)
  if (skipBlanks rest).isEmpty then return v else throw .malformed

end Json

end ComponentLint
