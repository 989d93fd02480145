/-!
# Double precision numbers

A number of the script language, or of a JSON text, is an IEEE 754 double. It is kept by its
meaning: a sign, a significand and a power of two. `Double.ofRatio` rounds a fraction to the nearest
double, a tie to the even significand, in exact arithmetic on natural numbers.
-/

namespace ComponentLint.Number

/-- A double precision number. -/
inductive Double where
  /-- The result of an undefined operation. -/
  | nan
  /-- One of the two infinities. -/
  | infinite (negative : Bool)
  /-- The number `significand * 2 ^ exponent`, negated if `negative`. -/
  | finite (negative : Bool) (significand : Nat) (exponent : Int)
deriving DecidableEq, Repr, Inhabited

/-- The number of bits of a full significand. -/
def precision : Nat := 53

/-- The least exponent of a double. -/
def minExponent : Int := -1074

/-- The greatest exponent of a double. -/
def maxExponent : Int := 971

/-- Rounds a quotient to the nearest natural number, a tie to the even one. -/
def roundQuotient (num den : Nat) : Nat :=
  let q := num / den
  let r := num % den
  if 2 * r < den then q
  else if den < 2 * r then q + 1
  else if q % 2 = 0 then q else q + 1

/-- The fraction `num / den` divided by `2 ^ e`, as a fraction again. -/
def scaleRatio (num den : Nat) (e : Int) : Nat × Nat :=
  if 0 ≤ e then (num, den * Nat.pow 2 e.toNat) else (num * Nat.pow 2 (-e).toNat, den)

namespace Double

/-- The number zero with a sign. -/
def zero (negative : Bool) : Double := .finite negative 0 minExponent

/-- The number with the other sign. -/
def negate : Double → Double
  | .nan => .nan
  | .infinite negative => .infinite (!negative)
  | .finite negative m e => .finite (!negative) m e

/-- The exponent at which a positive fraction has a significand of full precision, but not below
the least exponent. -/
def ratioExponent (num den : Nat) : Int :=
  let guess : Int := max ((num.log2 : Int) - (den.log2 : Int) - precision) minExponent
  let (n, d) := scaleRatio num den guess
  if n / d < Nat.pow 2 precision then guess else guess + 1

/-- The double nearest to the fraction `num / den`, negated if `negative`; a tie goes to the even
significand, and what is too large becomes infinite. -/
def ofRatio (negative : Bool) (num den : Nat) : Double :=
  if num = 0 then zero negative
  else
    let e := ratioExponent num den
    let (n, d) := scaleRatio num den e
    let m := roundQuotient n d
    let (m, e) := if m = Nat.pow 2 precision then (m / 2, e + 1) else (m, e)
    if maxExponent < e then .infinite negative else .finite negative m e

/-- The double nearest to a natural number. -/
def ofNat (n : Nat) : Double := ofRatio false n 1

/-- The double nearest to `digits * 10 ^ power`, negated if `negative`. Magnitudes far outside the
range of doubles are decided without computing the power. -/
def ofDecimal (negative : Bool) (digits : Nat) (power : Int) : Double :=
  if digits = 0 then zero negative
  else
    let magnitude : Int := power + (Nat.toDigits 10 digits).length
    if 400 < magnitude then .infinite negative
    else if magnitude < -400 then zero negative
    else if 0 ≤ power then ofRatio negative (digits * Nat.pow 10 power.toNat) 1
    else ofRatio negative digits (Nat.pow 10 (-power).toNat)

/-- The exact magnitude of `m * 2 ^ e` as a fraction. -/
def magnitude (m : Nat) (e : Int) : Nat × Nat :=
  if 0 ≤ e then (m * Nat.pow 2 e.toNat, 1) else (m, Nat.pow 2 (-e).toNat)

/-- The double nearest to the product of a double and a natural number, plus another one. -/
def mulAddNat (d : Double) (factor summand : Nat) : Double :=
  match d with
  | .finite negative m e =>
    let (num, den) := magnitude m e
    ofRatio negative (num * factor + summand * den) den
  | d => d

/-- The double nearest to the product of two doubles; what is not finite stays as it is. -/
def mul : Double → Double → Double
  | .finite s m e, .finite t n f =>
    let (a, b) := magnitude m e
    let (c, d) := magnitude n f
    ofRatio (s != t) (a * c) (b * d)
  | .finite _ _ _, y => y
  | x, _ => x

/-- The double nearest to the quotient of two doubles, the second of which is finite and not
zero. -/
def div : Double → Double → Double
  | .finite s m e, .finite t n f =>
    let (a, b) := magnitude m e
    let (c, d) := magnitude n f
    ofRatio (s != t) (a * d) (b * c)
  | x, _ => x

/-- Whether a double is one of the two zeros. -/
def isZero : Double → Bool
  | .finite _ m _ => m == 0
  | _ => false

/-- Whether a double is neither infinite nor undefined. -/
def isFinite : Double → Bool
  | .finite _ _ _ => true
  | _ => false

/-- The magnitude of `m * 2 ^ e` if it is a whole number. -/
def whole? (m : Nat) (e : Int) : Option Nat :=
  let (num, den) := magnitude m e
  if num % den = 0 then some (num / den) else none

end Double

end ComponentLint.Number
