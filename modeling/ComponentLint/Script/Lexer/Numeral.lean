import ComponentLint.Json.Reader
import ComponentLint.Script.Token
import ComponentLint.Text.Word

/-!
# Numeric literals

Decimal literals with fraction and exponent, literals in base 2, 8 and 16, the old octal literals
that begin with a zero, and integers of unlimited size. An underscore may separate two digits.
-/

namespace ComponentLint.Script

open Number (Double)

/-- The value of a digit in a base up to sixteen. -/
def digitValue? (base : Nat) (c : Char) : Option Nat :=
  (Json.hexValue? c).filter (· < base)

/-- Whether underscores stand only between two digits. -/
def separatorsFit : List Char → Bool
  | [] => true
  | ['_'] => false
  | '_' :: '_' :: _ => false
  | _ :: rest => separatorsFit rest

/-- Reads digits of a base with separators: at least one, and no separator at either end. The
digits are returned without separators. -/
def separatedDigits (base : Nat) (s : List Char) : Option (List Char × List Char) :=
  let accepted := fun c => c == '_' || (digitValue? base c).isSome
  let run := s.takeWhile accepted
  match run with
  | [] => none
  | '_' :: _ => none
  | _ => if separatorsFit run then some (run.filter (· != '_'), s.dropWhile accepted) else none

/-- The value of digits in a base. -/
def valueOf (base : Nat) (digits : List Char) : Nat :=
  digits.foldl (fun n c => base * n + (Json.hexValue? c).getD 0) 0

/-- The number of digits of a base up to which every literal fits 64 bits. -/
def exactDigits : Nat → Nat
  | 2 => 64
  | 8 => 21
  | _ => 16

/-- The double that digits in base 2, 8 or 16 stand for. A literal that may not fit 64 bits is
rounded after each of its digits. -/
def radixValue (base : Nat) (digits : List Char) : Double :=
  if digits.length ≤ exactDigits base then .ofNat (valueOf base digits)
  else
    digits.foldl (fun d c => d.mulAddNat base ((Json.hexValue? c).getD 0)) (.zero false)

/-- A literal of an explicit base after the two characters that announce it. -/
def radixLiteral (base : Nat) (s : List Char) : Option (TokenKind × List Char) := do
  let (digits, rest) ← separatedDigits base s
  match rest with
  | 'n' :: rest => return (.bigint, rest)
  | _ => return (.number (radixValue base digits), rest)

/-- Reads a fraction after its point: none, or digits with separators. -/
def fractionDigits (s : List Char) : Option (List Char × List Char) :=
  match s with
  | c :: _ => if c.isDigit || c == '_' then separatedDigits 10 s else some ([], s)
  | [] => some ([], [])

/-- Reads an exponent, if there is one. -/
def exponentPart (s : List Char) : Option (Int × List Char) :=
  match s with
  | c :: rest =>
    if c == 'e' || c == 'E' then
      let (negative, rest) :=
        match rest with
        | '-' :: more => (true, more)
        | '+' :: more => (false, more)
        | _ => (false, rest)
      (separatedDigits 10 rest).map fun (digits, rest) =>
        let n : Int := valueOf 10 digits
        (if negative then -n else n, rest)
    else some (0, s)
  | [] => some (0, [])

/-- The rest of a decimal literal after its whole part. -/
def decimalTail (units : List Char) (s : List Char) : Option (TokenKind × List Char) := do
  let (places, rest) ←
    match s with
    | '.' :: more => fractionDigits more
    | _ => some ([], s)
  let (power, rest) ← exponentPart rest
  let value := Double.ofDecimal false (valueOf 10 (units ++ places)) (power - (places.length : Int))
  return (.number value, rest)

/-- A literal that begins with a zero and another digit: octal, unless one of its digits is too
large for that. -/
def oldOctal (s : List Char) : Option (TokenKind × List Char) :=
  let digits := s.takeWhile Char.isDigit
  let rest := s.dropWhile Char.isDigit
  if digits.all fun c => (digitValue? 8 c).isSome then
    some (.number (radixValue 8 (digits.drop 1)), rest)
  else decimalTail digits rest

/-- Reads a numeric literal without looking at what follows it. -/
def numeralBody (s : List Char) : Option (TokenKind × List Char) :=
  match s with
  | '0' :: 'x' :: rest => radixLiteral 16 rest
  | '0' :: 'X' :: rest => radixLiteral 16 rest
  | '0' :: 'o' :: rest => radixLiteral 8 rest
  | '0' :: 'O' :: rest => radixLiteral 8 rest
  | '0' :: 'b' :: rest => radixLiteral 2 rest
  | '0' :: 'B' :: rest => radixLiteral 2 rest
  | '0' :: 'n' :: rest => some (.bigint, rest)
  | '0' :: rest =>
    if (rest.head?.map Char.isDigit).getD false then oldOctal s else decimalTail ['0'] rest
  | '.' :: rest => do
    let (places, rest) ← separatedDigits 10 rest
    let (power, rest) ← exponentPart rest
    return (.number (.ofDecimal false (valueOf 10 places) (power - (places.length : Int))), rest)
  | _ => do
    let (units, rest) ← separatedDigits 10 s
    match rest with
    | 'n' :: rest => return (.bigint, rest)
    | _ => decimalTail units rest

/-- Reads a numeric literal. No name and no digit may follow it directly. -/
def numeral (s : List Char) : Option (TokenKind × List Char) := do
  let (kind, rest) ← numeralBody s
  match rest with
  | c :: _ => if Text.isNameStart c || c.isDigit || c == '\\' then none else return (kind, rest)
  | [] => return (kind, rest)

end ComponentLint.Script
