import ComponentLint.Number.Double

/-!
# The shortest decimal of a double

Many decimals round to the same double. The shortest one is found by trying 1, 2, … 17 significant
digits: for each count only the two neighbours of the exact value on that decimal grid can round to
it with so few digits, and the nearer of those that do is taken. Where both are equally near, the
notation that asks decides.
-/

namespace ComponentLint.Number

/-- A positive decimal number `digits * 10 ^ power`. -/
structure Decimal where
  /-- The significant digits, as a number. -/
  digits : Nat
  /-- The power of ten of the last digit. -/
  power : Int
deriving DecidableEq, Repr, Inhabited

/-- Which of two decimals that are equally near to a value stands for it. -/
inductive Tie where
  /-- The one whose last digit is even. -/
  | toEven
  /-- The greater one. -/
  | up
deriving DecidableEq, Repr, Inhabited

/-- Whether the fraction `r / d` of a grid step above the multiple `q` goes down to it. -/
def Tie.goesDown (tie : Tie) (q r d : Nat) : Bool :=
  2 * r < d || (2 * r == d && tie == .toEven && q % 2 == 0)

/-- `num / den < 10 ^ k`. -/
def ratioBelowPower (num den : Nat) (k : Int) : Bool :=
  if 0 ≤ k then num < den * Nat.pow 10 k.toNat else num * Nat.pow 10 (-k).toNat < den

/-- The decimal exponent of a positive fraction: the `k` with `10 ^ k ≤ num / den < 10 ^ (k + 1)`.
It is estimated from the binary logarithms and then put right. -/
def decimalExponent (num den : Nat) : Int :=
  let estimate : Int := (((num.log2 : Int) - (den.log2 : Int)) * 30103) / 100000
  let start := estimate - 2
  let step (k : Int) : Int := if ratioBelowPower num den (k + 1) then k else k + 1
  step (step (step (step start)))

/-- The fraction `num / den` on the grid of multiples of `10 ^ p`, as a fraction again. -/
def gridRatio (num den : Nat) (p : Int) : Nat × Nat :=
  if 0 ≤ p then (num, den * Nat.pow 10 p.toNat) else (num * Nat.pow 10 (-p).toNat, den)

/-- Whether `digits * 10 ^ power` rounds to the double `m * 2 ^ e`. -/
def Decimal.readsAs (d : Decimal) (m : Nat) (e : Int) : Bool :=
  Double.ofDecimal false d.digits d.power == .finite false m e

/-- The decimal with `count` significant digits that rounds to the double `m * 2 ^ e` and lies
nearest to it, if there is one. -/
def decimalOfLength? (tie : Tie) (m : Nat) (e : Int) (count : Nat) : Option Decimal :=
  let (num, den) := Double.magnitude m e
  let p := decimalExponent num den - (count : Int) + 1
  let (n, d) := gridRatio num den p
  let below : Decimal := ⟨n / d, p⟩
  let above : Decimal := ⟨n / d + 1, p⟩
  let nearerBelow := tie.goesDown (n / d) (n % d) d
  let first := if nearerBelow then below else above
  let second := if nearerBelow then above else below
  if first.readsAs m e then some first
  else if second.readsAs m e then some second
  else none

/-- The first answer among `count`, `count + 1`, … digits, at most `more` digits further on. -/
def shortestFrom (tie : Tie) (m : Nat) (e : Int) : Nat → Nat → Option Decimal
  | _, 0 => none
  | count, more + 1 =>
    match decimalOfLength? tie m e count with
    | some d => some d
    | none => shortestFrom tie m e (count + 1) more

/-- A decimal without the zeros at the end of its digits, of which there are at most `count`. -/
def Decimal.stripZeros (d : Decimal) : Nat → Decimal
  | 0 => d
  | count + 1 =>
    if d.digits ≠ 0 ∧ d.digits % 10 = 0 then
      Decimal.stripZeros ⟨d.digits / 10, d.power + 1⟩ count
    else d

/-- The shortest decimal that rounds to the positive double `m * 2 ^ e`. Seventeen digits always
suffice. The upper neighbour of a value can be a power of ten, so zeros are taken off the end. -/
def shortest (tie : Tie) (m : Nat) (e : Int) : Decimal :=
  ((shortestFrom tie m e 1 17).getD ⟨0, 0⟩).stripZeros 17

end ComponentLint.Number
