import ComponentLint.Proofs.Decimals

/-!
# Nearest doubles

Here it is said without a computation which double a number is rounded to: no finite double lies
nearer to the number, if another one lies equally near the significand is even, and the number lies
below the bound from which on it would be rounded to infinity (`Nearest`). There is one such double at
most, up to the sign of zero (`Nearest.iff`), and the double that is computed for a fraction or a
decimal is it.
-/

namespace ComponentLint.Number

theorem Fits.zero : Fits 0 minExponent := ⟨by norm_num, le_rfl, by decide, Or.inr rfl⟩

namespace Double

/-- The exact value of a finite double. -/
def value : Double → ℚ
  | .finite negative m e => if negative then -(m * 2 ^ e) else m * 2 ^ e
  | _ => 0

/-- The significand of a finite double. -/
def significand : Double → Nat
  | .finite _ m _ => m
  | _ => 0

/-- A finite double in its standard form. -/
inductive Standard : Double → Prop where
  | finite (negative : Bool) {m : Nat} {e : Int} (h : Fits m e) : Standard (.finite negative m e)

theorem value_positive (m : Nat) (e : Int) : (Double.finite false m e).value = m * 2 ^ e := rfl

theorem value_negative (m : Nat) (e : Int) : (Double.finite true m e).value = -(m * 2 ^ e) := rfl

@[simp]
theorem value_negate (v : Double) : v.negate.value = -v.value := by
  cases v with
  | finite negative m e => cases negative <;> simp [negate, value]
  | _ => simp [negate, value]

@[simp]
theorem significand_negate (v : Double) : v.negate.significand = v.significand := by
  cases v <;> rfl

theorem Standard.negate {v : Double} (h : v.Standard) : v.negate.Standard := by
  cases h with
  | finite negative h => exact .finite (!negative) h

/-- The middle between the greatest double and what would come next. -/
def upperBound : ℚ := (2 ^ 53 - 1 / 2) * 2 ^ maxExponent

/-- `v` is the double that `x` is rounded to, where a tie goes to the even significand. -/
structure Nearest (x : ℚ) (v : Double) : Prop where
  standard : v.Standard
  inRange : |x| < upperBound
  near : ∀ w : Double, w.Standard → |x - v.value| ≤ |x - w.value|
  even : ∀ w : Double, w.Standard → |x - w.value| = |x - v.value| →
    w.value = v.value ∨ v.significand % 2 = 0

theorem Nearest.negate {x : ℚ} {v : Double} (h : Nearest x v) : Nearest (-x) v.negate := by
  have hdist : ∀ a b : ℚ, |-a - -b| = |a - b| := fun a b => by rw [← abs_neg]; congr 1; ring
  have hdist' : ∀ w : Double, |-x - w.value| = |x - w.negate.value| := fun w => by
    rw [value_negate, ← hdist x, neg_neg]
  refine ⟨h.standard.negate, by rw [abs_neg]; exact h.inRange, fun w hw => ?_, fun w hw htie => ?_⟩
  · rw [value_negate, hdist, hdist']
    exact h.near w.negate hw.negate
  · rw [value_negate, hdist, hdist'] at htie
    rw [value_negate, significand_negate]
    refine (h.even w.negate hw.negate htie).imp_left fun heq => ?_
    rw [← heq, value_negate, neg_neg]

end Double

/-! ## Distances -/

/-- No natural number is nearer than the one that a number is rounded to. -/
theorem RoundsTo.near_nat {y : ℚ} {q : Nat} (h : RoundsTo y q) (k : Nat) :
    |y - q| ≤ |y - k| ∧ (|y - k| = |y - q| → k = q ∨ q % 2 = 0) := by
  by_cases hk : k = q
  · rw [hk]
    exact ⟨le_rfl, fun _ => Or.inl rfl⟩
  have hgap : (1 : ℚ) ≤ |(q : ℚ) - k| := by
    have hne : (q : Int) - k ≠ 0 := by omega
    exact_mod_cast Int.one_le_abs hne
  have htriangle : |(q : ℚ) - k| ≤ |y - q| + |y - k| := by
    have hsum := abs_sub_le (q : ℚ) y k
    rwa [abs_sub_comm (q : ℚ) y] at hsum
  have hnear := h.near
  refine ⟨by linarith, fun htie => Or.inr (h.even ?_)⟩
  linarith

namespace Double

theorem placed_eq_finite {q : Nat} {level : Int} {m : Nat} {e : Int}
    (h : placed false q level = .finite false m e) :
    (m : ℚ) * 2 ^ e = q * 2 ^ level ∧ (q % 2 = 0 → m % 2 = 0) ∧ level ≤ maxExponent ∧
      (level = maxExponent → q ≠ 2 ^ 53) := by
  unfold placed at h
  by_cases hlong : q = 2 ^ 53
  · rw [if_pos hlong] at h
    simp only at h
    split_ifs at h with hmax
    obtain ⟨-, rfl, rfl⟩ := Double.finite.inj h
    subst hlong
    refine ⟨?_, fun _ => by decide, by omega, fun hlevel => by omega⟩
    rw [zpow_add_one₀ (by norm_num)]
    norm_num
    ring
  · rw [if_neg hlong] at h
    simp only at h
    split_ifs at h with hmax
    obtain ⟨-, rfl, rfl⟩ := Double.finite.inj h
    exact ⟨rfl, id, by omega, fun _ => hlong⟩

section Level

variable {x : ℚ} {level : Int} {q m : Nat} {e : Int}

/-- What lies below the level of a number is farther away than the power of two between them. -/
theorem near_of_level (hlevel : AtLevel x level) (hround : RoundsTo (x / 2 ^ level) q)
    {n : Nat} {f : Int} (hfits : Fits n f) :
    |x - q * 2 ^ level| ≤ |x - n * 2 ^ f| ∧
      (|x - n * 2 ^ f| = |x - q * 2 ^ level| → (n : ℚ) * 2 ^ f = q * 2 ^ level ∨ q % 2 = 0) := by
  have hpow : (0 : ℚ) < 2 ^ level := by positivity
  have hunits : ∀ k : ℚ, |x - k * 2 ^ level| = |x / 2 ^ level - k| * 2 ^ level := by
    intro k
    rw [← abs_of_pos hpow, ← abs_mul, abs_of_pos hpow, sub_mul, div_mul_cancel₀ _ hpow.ne']
  rcases le_or_gt level f with hle | hlt
  · -- a multiple of the last place
    obtain ⟨k, hk⟩ := Int.eq_ofNat_of_zero_le (by omega : 0 ≤ f - level)
    have hmultiple : (n : ℚ) * 2 ^ f = (n * 2 ^ k : Nat) * 2 ^ level := by
      rw [show f = (k : Int) + level by omega, zpow_add₀ (by norm_num), zpow_natCast]
      push_cast
      ring
    obtain ⟨hnear, htie⟩ := hround.near_nat (n * 2 ^ k)
    rw [hmultiple, hunits, hunits]
    refine ⟨mul_le_mul_of_nonneg_right hnear hpow.le, fun heq => ?_⟩
    refine (htie (mul_right_cancel₀ hpow.ne' heq)).imp_left fun hsame => ?_
    rw [hsame]
  · have hfull : (2 : ℚ) ^ (52 + level) ≤ x := by
      refine hlevel.full.resolve_right fun hmin => ?_
      have := hfits.least
      omega
    have hbelow : (n : ℚ) * 2 ^ f < 2 ^ (52 + level) := by
      have hn : (n : ℚ) < 2 ^ (53 : Int) := by exact_mod_cast hfits.lt
      calc (n : ℚ) * 2 ^ f < 2 ^ (53 : Int) * 2 ^ f := mul_lt_mul_of_pos_right hn (by positivity)
        _ = 2 ^ (53 + f) := (zpow_add₀ (by norm_num) _ _).symm
        _ ≤ 2 ^ (52 + level) := two_zpow_le (by omega)
    have hpower : |x - q * 2 ^ level| ≤ x - 2 ^ (52 + level) := by
      have hnear := (hround.near_nat (2 ^ 52)).1
      have hscaled := mul_le_mul_of_nonneg_right hnear hpow.le
      rw [← hunits, ← hunits] at hscaled
      have hsplit : ((2 ^ 52 : Nat) : ℚ) * 2 ^ level = 2 ^ (52 + level) := by
        rw [zpow_add₀ (by norm_num)]
        norm_num
      rwa [hsplit, abs_of_nonneg (sub_nonneg.mpr hfull)] at hscaled
    have hfar : |x - n * 2 ^ f| = x - n * 2 ^ f := abs_of_pos (by linarith)
    rw [hfar]
    exact ⟨by linarith, fun heq => by linarith⟩

theorem lt_upperBound (hlevel : AtLevel x level) (hround : RoundsTo (x / 2 ^ level) q)
    (hmax : level ≤ maxExponent) (hlong : level = maxExponent → q ≠ 2 ^ 53) :
    x < upperBound := by
  have hpow : (0 : ℚ) < 2 ^ level := by positivity
  rcases lt_or_eq_of_le hmax with hlt | rfl
  · have htop : (0 : ℚ) < 2 ^ maxExponent := by positivity
    calc x < 2 ^ (53 + level) := hlevel.lt
      _ ≤ 2 ^ (52 + maxExponent) := two_zpow_le (by omega)
      _ = 2 ^ 52 * 2 ^ maxExponent := by
          rw [zpow_add₀ (by norm_num)]
          norm_num
      _ ≤ (2 ^ 53 - 1 / 2) * 2 ^ maxExponent :=
          mul_le_mul_of_nonneg_right (by norm_num) htop.le
  · have hscaled : x / 2 ^ maxExponent < 2 ^ 53 := by
      have hlt := hlevel.lt
      rw [zpow_add₀ (by norm_num)] at hlt
      rw [div_lt_iff₀ hpow]
      exact_mod_cast hlt
    have hnear := abs_le.mp (by linarith [hround.near] : |x / 2 ^ maxExponent - q| ≤ 1 / 2)
    have hq : q + 1 ≤ 2 ^ 53 := by
      have hqlt : (q : ℚ) < 2 ^ 53 + 1 := by linarith
      have : q < 2 ^ 53 + 1 := by exact_mod_cast hqlt
      have := hlong rfl
      omega
    have hqle : (q : ℚ) + 1 ≤ 2 ^ 53 := by exact_mod_cast hq
    -- in the middle the number would be rounded up
    have hmiddle : x / 2 ^ maxExponent < 2 ^ 53 - 1 / 2 := by
      refine lt_of_le_of_ne (by linarith) fun hmid => ?_
      have hqtop : (q : ℚ) + 1 = 2 ^ 53 := by linarith
      have hsucc : q + 1 = 2 ^ 53 := by exact_mod_cast hqtop
      have hhalf : x / 2 ^ maxExponent - q = 1 / 2 := by linarith
      have heven := hround.even (by rw [hhalf]; norm_num)
      omega
    rwa [div_lt_iff₀ hpow] at hmiddle

theorem nearest_of_level (hx : 0 ≤ x) (hlevel : AtLevel x level)
    (hround : RoundsTo (x / 2 ^ level) q) (hfits : Fits m e)
    (hplaced : placed false q level = .finite false m e) : Nearest x (.finite false m e) := by
  obtain ⟨hvalue, hparity, hmax, hlong⟩ := placed_eq_finite hplaced
  have hzero : |x - q * 2 ^ level| ≤ x := by
    have hnear := (near_of_level hlevel hround Fits.zero).1
    rwa [Nat.cast_zero, zero_mul, sub_zero, abs_of_nonneg hx] at hnear
  have hboth : ∀ w : Double, w.Standard → |x - q * 2 ^ level| ≤ |x - w.value| ∧
      (|x - w.value| = |x - q * 2 ^ level| → w.value = q * 2 ^ level ∨ q % 2 = 0) := by
    rintro w @⟨negative, n, f, hw⟩
    cases negative with
    | false => exact near_of_level hlevel hround hw
    | true =>
      -- a negative number is farther away than zero
      have hpos : (0 : ℚ) ≤ n * 2 ^ f := by positivity
      have hdist : |x - -(n * 2 ^ f)| = x + n * 2 ^ f := by
        rw [sub_neg_eq_add, abs_of_nonneg (by linarith)]
      rw [value_negative, hdist]
      refine ⟨by linarith, fun htie => ?_⟩
      have hn : (n : ℚ) * 2 ^ f = 0 := by linarith
      have hagain := (near_of_level hlevel hround hw).2
      rw [hn, sub_zero, abs_of_nonneg hx] at hagain
      rw [hn, neg_zero]
      exact hagain (by linarith)
  have hself : (Double.finite false m e).value = q * 2 ^ level := hvalue
  refine ⟨.finite false hfits, ?_, fun w hw => ?_, fun w hw htie => ?_⟩
  · rw [abs_of_nonneg hx]
    exact lt_upperBound hlevel hround hmax hlong
  · rw [hself]
    exact (hboth w hw).1
  · rw [hself] at htie ⊢
    exact ((hboth w hw).2 htie).imp_right hparity

end Level

/-- The double that is computed for a positive fraction is the nearest one. -/
theorem nearest_ofRatio {num den : Nat} (hnum : 0 < num) (hden : 0 < den) {m : Nat} {e : Int}
    (hfits : Fits m e) (h : ofRatio false num den = .finite false m e) :
    Nearest ((num : ℚ) / den) (.finite false m e) := by
  obtain ⟨q, level, hlevel, hround, hplaced⟩ := exists_placed hnum hden
  exact nearest_of_level (by positivity) hlevel hround hfits ((hplaced false).symm.trans h)

/-- The double that is read from a decimal is the nearest one, if it is not zero. -/
theorem nearest_ofDecimal {digits : Nat} {power : Int} {m : Nat} {e : Int} (hfits : Fits m e)
    (hm : 0 < m) (h : ofDecimal false digits power = .finite false m e) :
    Nearest (digits * 10 ^ power) (.finite false m e) := by
  have hzero : zero false ≠ .finite false m e := by
    intro heq
    have := (Double.finite.inj heq).2.1
    omega
  have hdigits : 0 < digits := by
    refine Nat.pos_of_ne_zero fun hnone => hzero ?_
    rw [← h, ofDecimal, if_pos hnone]
  obtain ⟨num, den, hden, hvalue, hratio⟩ := exists_ratio digits power
  have hsize : power + ((Nat.toDigits 10 digits).length : Int) ≤ 400 ∧
      -400 ≤ power + ((Nat.toDigits 10 digits).length : Int) := by
    constructor
    · refine le_of_not_gt fun hlarge => ?_
      unfold ofDecimal at h
      rw [if_neg hdigits.ne'] at h
      simp only at h
      rw [if_pos hlarge] at h
      cases h
    · refine le_of_not_gt fun hsmall => hzero ?_
      unfold ofDecimal at h
      rw [if_neg hdigits.ne'] at h
      simp only at h
      rwa [if_neg (by omega), if_pos hsmall] at h
  rw [hratio hdigits hsize.1 hsize.2] at h
  have hnum : 0 < num := by
    refine Nat.pos_of_ne_zero ?_
    rintro rfl
    exact hzero h
  rw [← hvalue]
  exact nearest_ofRatio hnum hden hfits h

end Double

/-! ## Neighbours -/

namespace Fits

variable {m n : Nat} {e f : Int}

theorem atLevel (h : Fits m e) : AtLevel ((m : ℚ) * 2 ^ e) e := by
  have hpow : (0 : ℚ) < 2 ^ e := by positivity
  refine ⟨h.least, ?_, h.full.imp_left fun hfull => ?_⟩
  · rw [zpow_add₀ (by norm_num)]
    exact mul_lt_mul_of_pos_right (by exact_mod_cast h.lt) hpow
  · rw [zpow_add₀ (by norm_num)]
    exact mul_le_mul_of_nonneg_right (by exact_mod_cast hfull) hpow.le

/-- A value has one standard form. -/
theorem unique (hm : Fits m e) (hn : Fits n f) (h : (m : ℚ) * 2 ^ e = n * 2 ^ f) :
    m = n ∧ e = f := by
  have hlevel := hm.atLevel
  rw [h] at hlevel
  obtain rfl := hlevel.unique hn.atLevel
  have hpow : (2 : ℚ) ^ e ≠ 0 := by positivity
  exact ⟨by exact_mod_cast mul_right_cancel₀ hpow h, rfl⟩

/-- Above an even significand stands an odd one, before any greater value with an even one. -/
theorem next (hm : Fits m e) (hn : Fits n f) (hlt : (m : ℚ) * 2 ^ e < n * 2 ^ f)
    (hmeven : m % 2 = 0) (hneven : n % 2 = 0) :
    Fits (m + 1) e ∧ ((m + 1 : Nat) : ℚ) * 2 ^ e < n * 2 ^ f := by
  have hpow : (0 : ℚ) < 2 ^ e := by positivity
  have hsucc : m + 1 < 2 ^ 53 := by
    have := hm.lt
    omega
  have hfits : Fits (m + 1) e :=
    ⟨hsucc, hm.least, hm.greatest, hm.full.imp_left fun hfull => by omega⟩
  refine ⟨hfits, lt_of_not_ge fun hle => ?_⟩
  -- otherwise both have the same level, and there is no natural number between
  have hlevel : AtLevel ((n : ℚ) * 2 ^ f) e :=
    ⟨hm.least, hle.trans_lt hfits.atLevel.lt,
      hm.atLevel.full.imp_left fun hfull => hfull.trans hlt.le⟩
  obtain rfl := hlevel.unique hn.atLevel
  have hlow : m < n := by exact_mod_cast lt_of_mul_lt_mul_right hlt hpow.le
  have hhigh : n ≤ m + 1 := by exact_mod_cast le_of_mul_le_mul_right hle hpow
  omega

end Fits

namespace Double

theorem Standard.significand_eq {v w : Double} (hv : v.Standard) (hw : w.Standard)
    (h : v.value = w.value) : v.significand = w.significand := by
  obtain @⟨s, m, e, hm⟩ := hv
  obtain @⟨t, n, f, hn⟩ := hw
  have hmpos : (0 : ℚ) ≤ m * 2 ^ e := by positivity
  have hnpos : (0 : ℚ) ≤ n * 2 ^ f := by positivity
  have hsame : (m : ℚ) * 2 ^ e = n * 2 ^ f := by
    cases s <;> cases t <;> simp only [value_positive, value_negative] at h <;> linarith
  exact (hm.unique hn hsame).1

/-- Between two doubles with even significands there is another one. -/
theorem Standard.exists_between {v w : Double} (hv : v.Standard) (hw : w.Standard)
    (hlt : v.value < w.value) (hveven : v.significand % 2 = 0) (hweven : w.significand % 2 = 0) :
    ∃ u : Double, u.Standard ∧ v.value < u.value ∧ u.value < w.value := by
  obtain @⟨s, m, e, hm⟩ := hv
  obtain @⟨t, n, f, hn⟩ := hw
  have hmpos : (0 : ℚ) ≤ m * 2 ^ e := by positivity
  have hnpos : (0 : ℚ) ≤ n * 2 ^ f := by positivity
  have habove : (m : ℚ) * 2 ^ e < ((m + 1 : Nat) : ℚ) * 2 ^ e :=
    mul_lt_mul_of_pos_right (by exact_mod_cast Nat.lt_succ_self m) (by positivity)
  have habove' : (n : ℚ) * 2 ^ f < ((n + 1 : Nat) : ℚ) * 2 ^ f :=
    mul_lt_mul_of_pos_right (by exact_mod_cast Nat.lt_succ_self n) (by positivity)
  cases s <;> cases t <;> simp only [value_positive, value_negative] at hlt
  case false.false =>
    obtain ⟨hfits, hbelow⟩ := hm.next hn hlt hveven hweven
    exact ⟨_, .finite false hfits, habove, hbelow⟩
  case false.true => exact absurd hlt (by linarith)
  case true.true =>
    obtain ⟨hfits, hbelow⟩ := hn.next hm (neg_lt_neg_iff.mp hlt) hweven hveven
    exact ⟨_, .finite true hfits, neg_lt_neg hbelow, neg_lt_neg habove'⟩
  case true.false =>
    rcases hmpos.eq_or_lt with hmzero | hmpos
    · obtain ⟨hfits, hbelow⟩ := hm.next hn (by linarith) hveven hweven
      refine ⟨_, .finite false hfits, ?_, hbelow⟩
      rw [value_negative, value_positive]
      linarith
    rcases hnpos.eq_or_lt with hnzero | hnpos
    · obtain ⟨hfits, hbelow⟩ := hn.next hm (by linarith) hweven hveven
      refine ⟨_, .finite true hfits, neg_lt_neg hbelow, ?_⟩
      rw [value_negative, value_positive]
      linarith
    · have hzero : (Double.finite false 0 minExponent).value = 0 := by simp [value_positive]
      refine ⟨_, .finite false Fits.zero, ?_, ?_⟩
      · rw [hzero, value_negative]
        linarith
      · rwa [hzero]

theorem Nearest.value_le {x : ℚ} {v w : Double} (hv : Nearest x v) (hw : Nearest x w) :
    w.value ≤ v.value := by
  refine le_of_not_gt fun hlt => ?_
  have htie : |x - w.value| = |x - v.value| :=
    le_antisymm (hw.near v hv.standard) (hv.near w hw.standard)
  have hveven := (hv.even w hw.standard htie).resolve_left hlt.ne'
  have hweven := (hw.even v hv.standard htie.symm).resolve_left hlt.ne
  obtain ⟨u, hu, hvu, huw⟩ := hv.standard.exists_between hw.standard hlt hveven hweven
  -- the number lies in the middle, and so what is between the two is nearer
  have hmiddle : x - v.value = w.value - x := by
    rcases abs_eq_abs.mp htie with heq | heq <;> linarith
  have hnearer : |x - u.value| < x - v.value := abs_lt.mpr ⟨by linarith, by linarith⟩
  have hnear := hv.near u hu
  rw [abs_of_pos (by linarith : 0 < x - v.value)] at hnear
  exact absurd hnear (not_le.mpr hnearer)

/-- A number is rounded to one value. Only zero has two doubles. -/
theorem Nearest.iff {x : ℚ} {v : Double} (hv : Nearest x v) (w : Double) :
    Nearest x w ↔ w.Standard ∧ w.value = v.value := by
  constructor
  · intro hw
    exact ⟨hw.standard, le_antisymm (hv.value_le hw) (hw.value_le hv)⟩
  · rintro ⟨hw, hvalue⟩
    refine ⟨hw, hv.inRange, fun u hu => ?_, fun u hu => ?_⟩
    · rw [hvalue]
      exact hv.near u hu
    · rw [hvalue, hw.significand_eq hv.standard hvalue]
      exact hv.even u hu

theorem nearest_zero : Nearest 0 (.finite false 0 minExponent) := by
  have hvalue : (Double.finite false 0 minExponent).value = 0 := by simp [value_positive]
  refine ⟨.finite false Fits.zero, ?_, fun w _ => ?_, fun w _ htie => ?_⟩
  · rw [abs_zero]
    unfold upperBound
    positivity
  · rw [hvalue, sub_zero, abs_zero]
    exact abs_nonneg _
  · rw [hvalue, sub_zero, abs_zero, zero_sub, abs_neg, abs_eq_zero] at htie
    exact Or.inl (htie.trans hvalue.symm)

end Double

end ComponentLint.Number
