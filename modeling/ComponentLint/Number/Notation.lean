import ComponentLint.Number.Shortest

/-!
# Writing and reading numbers

`Double.positional` writes a number without an exponent, as an index in a fix has to be written.
`Double.compact` is the notation of JSON messages, which switches to an exponent for very large and
very small numbers. `Double.read?` reads a decimal literal.
-/

namespace ComponentLint.Number

/-- The decimal digits of a natural number. -/
def digitsOf (n : Nat) : List Char := Nat.toDigits 10 n

/-- A decimal written with a point where it belongs and zeros up to it. -/
def Decimal.positional (d : Decimal) : List Char :=
  let digits := digitsOf d.digits
  if 0 ≤ d.power then digits ++ List.replicate d.power.toNat '0'
  else
    let places := (-d.power).toNat
    if places < digits.length then
      digits.take (digits.length - places) ++ '.' :: digits.drop (digits.length - places)
    else
      '0' :: '.' :: (List.replicate (places - digits.length) '0' ++ digits)

/-- The text with a minus sign in front if `negative`. -/
def signed (negative : Bool) (text : List Char) : List Char :=
  if negative then '-' :: text else text

/-- Whole numbers below this bound are written with all their digits. -/
def wholeBound : Nat := Nat.pow 10 21

namespace Double

/-- A number without an exponent: a whole number below `10 ^ 21` with its exact value, any other
with its shortest digits, padded with zeros. Both zeros are written as `0`. -/
def positional : Double → List Char
  | .nan => "NaN".toList
  | .infinite negative => signed negative "inf".toList
  | .finite negative m e =>
    if m = 0 then ['0']
    else
      match whole? m e with
      | some n =>
        if n < wholeBound then signed negative (digitsOf n)
        else signed negative (shortest .up m e).positional
      | none => signed negative (shortest .up m e).positional

/-- An exponent with its sign. -/
def exponentText (e : Int) : List Char :=
  (if e < 0 then '-' else '+') :: digitsOf e.natAbs

/-- The first digit, then a point and the others, if there are others. -/
def pointed : List Char → List Char
  | [] => []
  | [d] => [d]
  | d :: more => d :: '.' :: more

/-- A number in its shortest digits: positional between `10 ^ -5` and `10 ^ 16`, where a whole
number keeps a `.0`, and with an exponent elsewhere. -/
def compact : Double → List Char
  | .nan => "NaN".toList
  | .infinite negative => signed negative "inf".toList
  | .finite negative m e =>
    if m = 0 then signed negative "0.0".toList
    else
      let d := shortest .toEven m e
      let digits := digitsOf d.digits
      let exponent := d.power + (digits.length : Int) - 1
      if -5 ≤ exponent ∧ exponent < 16 then
        signed negative (d.positional ++ if 0 ≤ d.power then ['.', '0'] else [])
      else
        signed negative (pointed digits ++ 'e' :: exponentText exponent)

/-- The value of decimal digits, read from the left. -/
def digitsValue (digits : List Char) : Nat :=
  digits.foldl (fun n c => 10 * n + (c.toNat - '0'.toNat)) 0

/-- An exponent part: empty, or the mark with an optional sign and at least one digit. -/
def readExponent? : List Char → Option Int
  | [] => some 0
  | mark :: rest =>
    if mark == 'e' || mark == 'E' then
      let (negative, digits) :=
        match rest with
        | '-' :: more => (true, more)
        | '+' :: more => (false, more)
        | _ => (false, rest)
      if digits.isEmpty || !digits.all Char.isDigit then none
      else some (if negative then -(digitsValue digits : Int) else digitsValue digits)
    else none

/-- Reads a decimal literal: digits, an optional fraction, an optional exponent. -/
def readDecimal? (negative : Bool) (text : List Char) : Option Double :=
  let units := text.takeWhile Char.isDigit
  let rest := text.dropWhile Char.isDigit
  let (places, rest) :=
    match rest with
    | '.' :: more => (more.takeWhile Char.isDigit, more.dropWhile Char.isDigit)
    | _ => ([], rest)
  if units.isEmpty && places.isEmpty then none
  else
    (readExponent? rest).map fun power =>
      ofDecimal negative (digitsValue (units ++ places)) (power - (places.length : Int))

/-- Reads a number: a decimal literal with an optional sign, `inf` or `NaN`. -/
def read? (text : String) : Option Double :=
  let (negative, body) :=
    match text.toList with
    | '-' :: rest => (true, rest)
    | '+' :: rest => (false, rest)
    | all => (false, all)
  if body = "inf".toList then some (.infinite negative)
  else if body = "NaN".toList then some .nan
  else readDecimal? negative body

end Double

end ComponentLint.Number
