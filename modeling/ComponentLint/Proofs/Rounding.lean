import ComponentLint.Number.Double
import Mathlib.Algebra.Order.Field.Power
import Mathlib.Algebra.Order.Field.Rat
import Mathlib.Tactic.FieldSimp
import Mathlib.Tactic.Linarith
import Mathlib.Tactic.NormNum
import Mathlib.Tactic.Positivity
import Mathlib.Tactic.Ring

/-!
# Rounding of fractions

The double nearest to a fraction is found in two steps. The fraction has a level, the exponent at
which its significand has full precision (`AtLevel`), and at this level it is rounded to a natural
number (`RoundsTo`). Both are determined by the value of the fraction alone, so that equal fractions
give the same double, and a fraction that differs from a double by less than one part in `2 ^ 54` is
rounded to it.
-/

namespace ComponentLint.Number

/-! ## Rounding to natural numbers -/

/-- The natural number `q` is nearest to `x`, and even if `x` lies in the middle of two. -/
structure RoundsTo (x : ℚ) (q : Nat) : Prop where
  near : 2 * |x - q| ≤ 1
  even : 2 * |x - q| = 1 → q % 2 = 0

theorem RoundsTo.unique {x : ℚ} {p q : Nat} (hp : RoundsTo x p) (hq : RoundsTo x q) : p = q := by
  wlog hle : p ≤ q generalizing p q
  · exact (this hq hp (by omega)).symm
  by_contra hne
  have hlt : p + 1 ≤ q := by omega
  have hltx : (p : ℚ) + 1 ≤ q := by exact_mod_cast hlt
  have habove := (abs_le.mp (by linarith [hp.near] : |x - p| ≤ 1 / 2)).2
  have hbelow := (abs_le.mp (by linarith [hq.near] : |x - q| ≤ 1 / 2)).1
  -- `x` lies in the middle of two neighbours, and one of these is odd
  have hq' : (q : ℚ) = p + 1 := by linarith
  have hmid : x - p = 1 / 2 := by linarith
  have hmid' : x - q = -(1 / 2) := by linarith
  have hpeven := hp.even (by rw [hmid]; norm_num)
  have hqeven := hq.even (by rw [hmid']; norm_num)
  have hsucc : q = p + 1 := by exact_mod_cast hq'
  omega

theorem RoundsTo.of_near {x : ℚ} {q : Nat} (h : 2 * |x - q| < 1) : RoundsTo x q :=
  ⟨h.le, fun heq => absurd heq h.ne⟩

/-- A quotient is rounded to the nearest natural number. -/
theorem roundsTo_roundQuotient (num : Nat) {den : Nat} (hden : 0 < den) :
    RoundsTo ((num : ℚ) / den) (roundQuotient num den) := by
  have hdenq : (0 : ℚ) < den := by exact_mod_cast hden
  have hsplit : (num : ℚ) = den * (num / den : Nat) + (num % den : Nat) := by
    exact_mod_cast (Nat.div_add_mod num den).symm
  have hquot : (num : ℚ) / den = (num / den : Nat) + ((num % den : Nat) : ℚ) / den := by
    rw [hsplit]
    field_simp
  have hmod : num % den < den := Nat.mod_lt num hden
  have hpart : (0 : ℚ) ≤ ((num % den : Nat) : ℚ) / den := by positivity
  unfold roundQuotient
  simp only
  generalize num / den = q at *
  generalize num % den = r at *
  rw [hquot]
  by_cases hlow : 2 * r < den
  · have hhalf : (r : ℚ) / den < 1 / 2 := by
      rw [div_lt_iff₀ hdenq]
      have : (2 * r : ℚ) < den := by exact_mod_cast hlow
      linarith
    rw [if_pos hlow]
    refine .of_near ?_
    rw [add_sub_cancel_left, abs_of_nonneg hpart]
    linarith
  · rw [if_neg hlow]
    have hone : (r : ℚ) / den < 1 := by
      rw [div_lt_one hdenq]
      exact_mod_cast hmod
    by_cases hhigh : den < 2 * r
    · have hhalf : 1 / 2 < (r : ℚ) / den := by
        rw [lt_div_iff₀ hdenq]
        have : (den : ℚ) < 2 * r := by exact_mod_cast hhigh
        linarith
      rw [if_pos hhigh]
      refine .of_near ?_
      have hdist : (q : ℚ) + r / den - (q + 1 : Nat) = -(1 - r / den) := by
        push_cast
        ring
      rw [hdist, abs_neg, abs_of_nonneg (by linarith)]
      linarith
    · have htie : (r : ℚ) / den = 1 / 2 := by
        rw [div_eq_iff hdenq.ne']
        have : 2 * r = den := by omega
        have : (2 * r : ℚ) = den := by exact_mod_cast this
        linarith
      rw [if_neg hhigh, htie]
      by_cases heven : q % 2 = 0
      · rw [if_pos heven]
        refine ⟨?_, fun _ => heven⟩
        rw [add_sub_cancel_left]
        norm_num
      · rw [if_neg heven]
        refine ⟨?_, fun _ => by omega⟩
        have hdist : (q : ℚ) + 1 / 2 - (q + 1 : Nat) = -(1 / 2) := by
          push_cast
          ring
        rw [hdist]
        norm_num

/-! ## Levels -/

/-- The exponent at which a positive number has a significand of full precision, but not below the
least exponent. -/
structure AtLevel (x : ℚ) (e : Int) : Prop where
  least : minExponent ≤ e
  lt : x < 2 ^ (53 + e)
  full : (2 : ℚ) ^ (52 + e) ≤ x ∨ e = minExponent

theorem two_zpow_le {a b : Int} (h : a ≤ b) : (2 : ℚ) ^ a ≤ 2 ^ b :=
  zpow_le_zpow_right₀ (by norm_num) h

theorem AtLevel.unique {x : ℚ} {e e' : Int} (h : AtLevel x e) (h' : AtLevel x e') : e = e' := by
  wlog hle : e ≤ e' generalizing e e'
  · exact (this h' h (by omega)).symm
  by_contra hne
  rcases h'.full with hfull | hmin
  · have hpow := two_zpow_le (by omega : 53 + e ≤ 52 + e')
    linarith [h.lt]
  · have := h.least
    omega

/-- A fraction divided by a power of two is a fraction again. -/
theorem scaleRatio_spec (num : Nat) {den : Nat} (hden : 0 < den) (e : Int) :
    0 < (scaleRatio num den e).2 ∧
      ((scaleRatio num den e).1 : ℚ) / (scaleRatio num den e).2 = (num : ℚ) / den / 2 ^ e := by
  unfold scaleRatio
  split_ifs with he
  · obtain ⟨n, rfl⟩ := Int.eq_ofNat_of_zero_le he
    refine ⟨Nat.mul_pos hden (Nat.pow_pos (by norm_num)), ?_⟩
    simp [div_div]
  · obtain ⟨n, rfl⟩ : ∃ n : Nat, e = -(n : Int) := ⟨(-e).toNat, by omega⟩
    refine ⟨hden, ?_⟩
    simp [div_mul_eq_mul_div]

theorem log2_bounds {n : Nat} (h : 0 < n) :
    (2 : ℚ) ^ (n.log2 : Int) ≤ n ∧ (n : ℚ) < 2 ^ ((n.log2 : Int) + 1) := by
  constructor
  · rw [zpow_natCast]
    exact_mod_cast Nat.log2_self_le (Nat.ne_of_gt h)
  · have hlt : n < 2 ^ (n.log2 + 1) := Nat.lt_log2_self
    exact_mod_cast hlt

/-- The binary logarithms of numerator and denominator tell the size of a fraction up to a factor
of two on each side. -/
theorem ratio_bounds {num den : Nat} (hnum : 0 < num) (hden : 0 < den) :
    (2 : ℚ) ^ ((num.log2 : Int) - den.log2 - 1) < (num : ℚ) / den ∧
      (num : ℚ) / den < 2 ^ ((num.log2 : Int) - den.log2 + 1) := by
  obtain ⟨hnumle, hnumlt⟩ := log2_bounds hnum
  obtain ⟨hdenle, hdenlt⟩ := log2_bounds hden
  have hdenq : (0 : ℚ) < den := by exact_mod_cast hden
  constructor
  · rw [lt_div_iff₀ hdenq]
    calc (2 : ℚ) ^ ((num.log2 : Int) - den.log2 - 1) * den
        < 2 ^ ((num.log2 : Int) - den.log2 - 1) * 2 ^ ((den.log2 : Int) + 1) :=
          mul_lt_mul_of_pos_left hdenlt (by positivity)
      _ = 2 ^ (num.log2 : Int) := by
          rw [← zpow_add₀ (by norm_num)]
          congr 1
          omega
      _ ≤ num := hnumle
  · rw [div_lt_iff₀ hdenq]
    calc (num : ℚ) < 2 ^ ((num.log2 : Int) + 1) := hnumlt
      _ = 2 ^ ((num.log2 : Int) - den.log2 + 1) * 2 ^ (den.log2 : Int) := by
          rw [← zpow_add₀ (by norm_num)]
          congr 1
          omega
      _ ≤ 2 ^ ((num.log2 : Int) - den.log2 + 1) * den :=
          mul_le_mul_of_nonneg_left hdenle (by positivity)

theorem quotient_lt_iff {num den k : Nat} (hden : 0 < den) :
    num / den < k ↔ (num : ℚ) / den < k := by
  have hdenq : (0 : ℚ) < den := by exact_mod_cast hden
  rw [Nat.div_lt_iff_lt_mul hden, div_lt_iff₀ hdenq]
  norm_cast

/-- The exponent that is chosen for a positive fraction is its level. -/
theorem atLevel_ratioExponent {num den : Nat} (hnum : 0 < num) (hden : 0 < den) :
    AtLevel ((num : ℚ) / den) (Double.ratioExponent num den) := by
  obtain ⟨hlow, hhigh⟩ := ratio_bounds hnum hden
  unfold Double.ratioExponent
  simp only
  generalize hguess :
    max ((num.log2 : Int) - (den.log2 : Int) - (precision : Nat)) minExponent = guess
  have hguess' : max ((num.log2 : Int) - den.log2 - 53) minExponent = guess := hguess
  obtain ⟨hd, hscaled⟩ := scaleRatio_spec num hden guess
  have hpow : (0 : ℚ) < 2 ^ guess := by positivity
  have hfits : (scaleRatio num den guess).1 / (scaleRatio num den guess).2 < Nat.pow 2 precision ↔
      (num : ℚ) / den < 2 ^ (53 + guess) := by
    rw [quotient_lt_iff hd, hscaled, div_lt_iff₀ hpow, zpow_add₀ (by norm_num)]
    norm_num [precision]
  split_ifs with h
  · refine ⟨by omega, hfits.mp h, ?_⟩
    by_cases hmin : guess = minExponent
    · exact Or.inr hmin
    · have hexact : 52 + guess = (num.log2 : Int) - den.log2 - 1 := by omega
      rw [hexact]
      exact Or.inl hlow.le
  · have hbelow : (2 : ℚ) ^ (53 + guess) ≤ (num : ℚ) / den := not_lt.mp fun hlt => h (hfits.mpr hlt)
    refine ⟨by omega, hhigh.trans_le (two_zpow_le (by omega)), Or.inl ?_⟩
    rwa [show 52 + (guess + 1) = 53 + guess by ring]

/-! ## Doubles -/

/-- The finite double `m * 2 ^ e` in its standard form: the significand has full precision unless
the exponent is the least one. -/
structure Fits (m : Nat) (e : Int) : Prop where
  lt : m < 2 ^ 53
  least : minExponent ≤ e
  greatest : e ≤ maxExponent
  full : 2 ^ 52 ≤ m ∨ e = minExponent

namespace Fits

variable {m : Nat} {e : Int}

theorem least_le (h : Fits m e) (hm : 0 < m) : (2 : ℚ) ^ (-1074 : Int) ≤ m * 2 ^ e := by
  have hone : (1 : ℚ) ≤ m := by exact_mod_cast hm
  calc (2 : ℚ) ^ (-1074 : Int) ≤ 2 ^ e := two_zpow_le h.least
    _ ≤ m * 2 ^ e := le_mul_of_one_le_left (by positivity) hone

theorem lt_greatest (h : Fits m e) : (m : ℚ) * 2 ^ e < 2 ^ (1024 : Int) := by
  have hmlt : (m : ℚ) < 2 ^ (53 : Int) := by exact_mod_cast h.lt
  calc (m : ℚ) * 2 ^ e < 2 ^ (53 : Int) * 2 ^ e := mul_lt_mul_of_pos_right hmlt (by positivity)
    _ = 2 ^ (53 + e) := (zpow_add₀ (by norm_num) _ _).symm
    _ ≤ 2 ^ (1024 : Int) := two_zpow_le (by have : e ≤ 971 := h.greatest; omega)

end Fits

namespace Double

/-- The double with a rounded significand, which may have become one bit too long. -/
def placed (negative : Bool) (q : Nat) (e : Int) : Double :=
  let (m, e) := if q = 2 ^ 53 then (q / 2, e + 1) else (q, e)
  if maxExponent < e then .infinite negative else .finite negative m e

/-- The double of a fraction is determined by its level and by what it is rounded to there. -/
theorem ofRatio_eq_placed {num den : Nat} (hnum : 0 < num) (hden : 0 < den) {e : Int} {q : Nat}
    (hlevel : AtLevel ((num : ℚ) / den) e) (hround : RoundsTo ((num : ℚ) / den / 2 ^ e) q)
    (negative : Bool) : ofRatio negative num den = placed negative q e := by
  have he : ratioExponent num den = e := (atLevel_ratioExponent hnum hden).unique hlevel
  obtain ⟨hd, hscaled⟩ := scaleRatio_spec num hden e
  have hq : roundQuotient (scaleRatio num den e).1 (scaleRatio num den e).2 = q := by
    refine (roundsTo_roundQuotient _ hd).unique ?_
    rwa [hscaled]
  unfold ofRatio placed
  rw [if_neg (Nat.ne_of_gt hnum)]
  simp only [he, hq]
  rfl

theorem exists_placed {num den : Nat} (hnum : 0 < num) (hden : 0 < den) :
    ∃ q e, AtLevel ((num : ℚ) / den) e ∧ RoundsTo ((num : ℚ) / den / 2 ^ e) q ∧
      ∀ negative, ofRatio negative num den = placed negative q e := by
  have hlevel := atLevel_ratioExponent hnum hden
  obtain ⟨hd, hscaled⟩ := scaleRatio_spec num hden (ratioExponent num den)
  have hround := roundsTo_roundQuotient (scaleRatio num den (ratioExponent num den)).1 hd
  rw [hscaled] at hround
  exact ⟨_, _, hlevel, hround, ofRatio_eq_placed hnum hden hlevel hround⟩

/-- Equal fractions give the same double. -/
theorem ofRatio_congr {num den num' den' : Nat} (hden : 0 < den) (hden' : 0 < den')
    (h : (num : ℚ) / den = (num' : ℚ) / den') (negative : Bool) :
    ofRatio negative num den = ofRatio negative num' den' := by
  have hdenq : (den : ℚ) ≠ 0 := by exact_mod_cast hden.ne'
  have hdenq' : (den' : ℚ) ≠ 0 := by exact_mod_cast hden'.ne'
  rcases Nat.eq_zero_or_pos num with rfl | hnum
  · have hzero : (num' : ℚ) = 0 := by
      rw [Nat.cast_zero, zero_div, eq_comm, div_eq_zero_iff] at h
      exact h.resolve_right hdenq'
    obtain rfl : num' = 0 := by exact_mod_cast hzero
    rfl
  · have hnum' : 0 < num' := by
      rcases Nat.eq_zero_or_pos num' with rfl | hpos
      · rw [Nat.cast_zero, zero_div, div_eq_zero_iff] at h
        have : (num : ℚ) = 0 := h.resolve_right hdenq
        have : num = 0 := by exact_mod_cast this
        omega
      · exact hpos
    obtain ⟨q, e, hlevel, hround, hplaced⟩ := exists_placed hnum hden
    rw [h] at hlevel hround
    rw [hplaced, ofRatio_eq_placed hnum' hden' hlevel hround]

/-- A fraction is rounded to a standard double or beyond all of them. -/
theorem ofRatio_fits (negative : Bool) (num : Nat) {den : Nat} (hden : 0 < den) :
    ofRatio negative num den = .infinite negative ∨
      ∃ m e, Fits m e ∧ ofRatio negative num den = .finite negative m e := by
  rcases Nat.eq_zero_or_pos num with rfl | hnum
  · exact Or.inr ⟨0, minExponent, ⟨by norm_num, le_refl _, by decide, Or.inr rfl⟩, rfl⟩
  obtain ⟨q, e, hlevel, hround, hplaced⟩ := exists_placed hnum hden
  have hpow : (0 : ℚ) < 2 ^ e := by positivity
  have hscaled : (num : ℚ) / den / 2 ^ e < 2 ^ 53 := by
    have hlt := hlevel.lt
    rw [zpow_add₀ (by norm_num)] at hlt
    rw [div_lt_iff₀ hpow]
    exact_mod_cast hlt
  have hnear := abs_le.mp (by linarith [hround.near] : |(num : ℚ) / den / 2 ^ e - q| ≤ 1 / 2)
  have hq : q ≤ 2 ^ 53 := by
    have hltq : (q : ℚ) < 2 ^ 53 + 1 := by linarith
    have : q < 2 ^ 53 + 1 := by exact_mod_cast hltq
    omega
  have hfull : 2 ^ 52 ≤ q ∨ e = minExponent := by
    refine hlevel.full.imp (fun hle => ?_) id
    rw [zpow_add₀ (by norm_num), ← le_div_iff₀ hpow] at hle
    have hleq : (2 : ℚ) ^ 52 - 1 < q := by
      have : (2 : ℚ) ^ 52 ≤ (num : ℚ) / den / 2 ^ e := by exact_mod_cast hle
      linarith
    have : 2 ^ 52 < q + 1 := by
      have : (2 : ℚ) ^ 52 < q + 1 := by linarith
      exact_mod_cast this
    omega
  rw [hplaced]
  unfold placed
  have hleast := hlevel.least
  by_cases hlong : q = 2 ^ 53
  · rw [if_pos hlong]
    simp only
    split_ifs with hmax
    · exact Or.inl rfl
    · exact Or.inr ⟨_, _, ⟨by omega, by omega, by omega, Or.inl (by omega)⟩, rfl⟩
  · rw [if_neg hlong]
    simp only
    split_ifs with hmax
    · exact Or.inl rfl
    · exact Or.inr ⟨_, _, ⟨by omega, by omega, by omega, hfull⟩, rfl⟩

/-- What differs from a double by less than one part in `2 ^ 54` is rounded to it. Below a power of
two the doubles lie twice as close together; the bound is small enough for that. -/
theorem ofRatio_of_near {m : Nat} {e : Int} (hfits : Fits m e) {num den : Nat} (hnum : 0 < num)
    (hden : 0 < den) (hnear : |(num : ℚ) / den - m * 2 ^ e| * 2 ^ 54 < m * 2 ^ e)
    (negative : Bool) : ofRatio negative num den = .finite negative m e := by
  have hpow : (0 : ℚ) < 2 ^ e := by positivity
  have hm : (m : ℚ) + 1 ≤ 2 ^ 53 := by exact_mod_cast hfits.lt
  -- the fraction in units of the last place
  obtain ⟨y, hy⟩ : ∃ y : ℚ, (num : ℚ) / den = y * 2 ^ e := ⟨_, (div_mul_cancel₀ _ hpow.ne').symm⟩
  have hdist : |y - m| * 2 ^ 54 < m := by
    have habs : |y * 2 ^ e - m * 2 ^ e| = |y - m| * 2 ^ e := by
      rw [← sub_mul, abs_mul, abs_of_pos hpow]
    rw [hy, habs, mul_right_comm] at hnear
    exact lt_of_mul_lt_mul_right hnear hpow.le
  have hhalf : 2 * |y - m| < 1 := by
    norm_num at hdist hm ⊢
    linarith
  have hbelow := (abs_lt.mp (by linarith : |y - m| < 1 / 2)).1
  have habove := (abs_lt.mp (by linarith : |y - m| < 1 / 2)).2
  have hyhigh : y < 2 ^ 53 := by linarith
  have hyx : (num : ℚ) / den / 2 ^ e = y := by rw [hy, mul_div_cancel_right₀ _ hpow.ne']
  have hlt : (num : ℚ) / den < 2 ^ (53 + e) := by
    rw [hy, zpow_add₀ (by norm_num)]
    exact mul_lt_mul_of_pos_right (by exact_mod_cast hyhigh) hpow
  by_cases hfull : (2 : ℚ) ^ (52 + e) ≤ (num : ℚ) / den ∨ e = minExponent
  · have hlevel : AtLevel ((num : ℚ) / den) e := ⟨hfits.least, hlt, hfull⟩
    have hround : RoundsTo ((num : ℚ) / den / 2 ^ e) m := .of_near (by rwa [hyx])
    rw [ofRatio_eq_placed hnum hden hlevel hround]
    unfold placed
    have hgreatest := hfits.greatest
    rw [if_neg hfits.lt.ne]
    simp only
    rw [if_neg (by omega)]
  · -- just below a power of two
    obtain ⟨hlow, hmin⟩ := not_or.mp hfull
    have hlow : (num : ℚ) / den < 2 ^ (52 + e) := not_le.mp hlow
    have hylow : y < 2 ^ 52 := by
      rw [hy, zpow_add₀ (by norm_num)] at hlow
      exact_mod_cast lt_of_mul_lt_mul_right hlow hpow.le
    have hm52 : 2 ^ 52 ≤ m := hfits.full.resolve_right hmin
    have hmq : m = 2 ^ 52 := by
      have : (m : ℚ) < 2 ^ 52 + 1 := by linarith
      have : m < 2 ^ 52 + 1 := by exact_mod_cast this
      omega
    have hmq' : (m : ℚ) = 2 ^ 52 := by exact_mod_cast hmq
    have hquarter : 2 * |2 * y - (2 ^ 53 : Nat)| < 1 := by
      have hdouble : 2 * y - ((2 ^ 53 : Nat) : ℚ) = 2 * (y - m) := by
        rw [hmq']
        norm_num
        ring
      rw [hdouble, abs_mul, abs_two]
      rw [hmq'] at hdist ⊢
      norm_num at hdist ⊢
      linarith
    have hscaled : (num : ℚ) / den / 2 ^ (e - 1) = 2 * y := by
      rw [hy, zpow_sub_one₀ (by norm_num)]
      field_simp
    have hleast := hfits.least
    have hlevel : AtLevel ((num : ℚ) / den) (e - 1) := by
      refine ⟨by omega, ?_, Or.inl ?_⟩
      · rwa [show 53 + (e - 1) = 52 + e by ring]
      · have hyge : (2 : ℚ) ^ 51 ≤ y := by
          rw [hmq'] at hbelow
          norm_num at hbelow ⊢
          linarith
        rw [hy, show 52 + (e - 1) = 51 + e by ring, zpow_add₀ (by norm_num)]
        exact mul_le_mul_of_nonneg_right (by exact_mod_cast hyge) hpow.le
    have hround : RoundsTo ((num : ℚ) / den / 2 ^ (e - 1)) (2 ^ 53) :=
      .of_near (by rwa [hscaled])
    rw [ofRatio_eq_placed hnum hden hlevel hround]
    unfold placed
    have hgreatest := hfits.greatest
    rw [if_pos rfl]
    simp only
    rw [if_neg (by omega), hmq]
    norm_num

end Double

end ComponentLint.Number
