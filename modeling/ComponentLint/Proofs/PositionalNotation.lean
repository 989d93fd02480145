import ComponentLint.Proofs.NearestDoubles
import ComponentLint.Proofs.NumeralTexts

/-!
# What the positional notation denotes

A finite double is written with digits and at most one point, after a minus sign if it is negative. A
whole number of moderate size is written as this number. In any case the number that is written is
rounded to the double again, and to no double of another value.
-/

namespace ComponentLint.Number.Double

open Script (PlainNumeral)

theorem whole?_of_eq {m : Nat} {e : Int} {n : Nat} (h : (m : ℚ) * 2 ^ e = n) :
    whole? m e = some n := by
  obtain ⟨hden, hvalue⟩ := magnitude_spec m e
  have hdenq : ((magnitude m e).2 : ℚ) ≠ 0 := by exact_mod_cast hden.ne'
  have hmul : (magnitude m e).1 = n * (magnitude m e).2 := by
    rw [h, div_eq_iff hdenq] at hvalue
    exact_mod_cast hvalue
  unfold whole?
  simp only
  rw [hmul, Nat.mul_mod_left, if_pos rfl, Nat.mul_div_cancel n hden]

/-- Only a number below zero gets a minus sign. -/
theorem positional_eq_signed (negative : Bool) (m : Nat) (e : Int) :
    (Double.finite negative m e).positional =
      signed (decide ((Double.finite negative m e).value < 0))
        (Double.finite false m e).positional := by
  have hpow : (0 : ℚ) < 2 ^ e := by positivity
  have hnonneg : (0 : ℚ) ≤ m * 2 ^ e := by positivity
  cases negative with
  | false =>
    rw [value_positive, decide_eq_false (not_lt.mpr hnonneg)]
    rfl
  | true =>
    by_cases hm : m = 0
    · have hvalue : ¬ (Double.finite true m e).value < 0 := by simp [value_negative, hm]
      rw [decide_eq_false hvalue, hm]
      rfl
    · have hpos : (0 : ℚ) < m * 2 ^ e := mul_pos (by exact_mod_cast Nat.pos_of_ne_zero hm) hpow
      have hvalue : (Double.finite true m e).value < 0 := neg_lt_zero.mpr hpos
      rw [decide_eq_true hvalue, Script.positional_negative e hm]
      rfl

theorem value_of_not_negative {negative : Bool} {m : Nat} {e : Int}
    (h : ¬ (Double.finite negative m e).value < 0) :
    (Double.finite false m e).value = (Double.finite negative m e).value := by
  have hnonneg : (0 : ℚ) ≤ m * 2 ^ e := by positivity
  cases negative with
  | false => rfl
  | true =>
    rw [value_negative] at h ⊢
    rw [value_positive]
    linarith

theorem positional_of_whole {m : Nat} {e : Int} {n : Nat} (h : (m : ℚ) * 2 ^ e = n)
    (hn : n < 10 ^ 21) : (Double.finite false m e).positional = Nat.toDigits 10 n := by
  have hpow : (2 : ℚ) ^ e ≠ 0 := by positivity
  unfold positional
  simp only
  by_cases hm : m = 0
  · have hzero : (n : ℚ) = 0 := by rw [← h, hm, Nat.cast_zero, zero_mul]
    obtain rfl : n = 0 := by exact_mod_cast hzero
    rw [if_pos hm]
    rfl
  · rw [if_neg hm, whole?_of_eq h]
    exact if_pos hn

/-- A whole number below `10 ^ 21` is written as this number, and both zeros as `0`. -/
theorem positional_eq_toString {negative : Bool} {m : Nat} {e : Int} {n : Int}
    (h : (Double.finite negative m e).value = n) (hn : |n| < 10 ^ 21) :
    (Double.finite negative m e).positional = (toString n).toList := by
  have hnonneg : (0 : ℚ) ≤ m * 2 ^ e := by positivity
  have hsize : n.natAbs < 10 ^ 21 := by
    rw [Int.abs_eq_natAbs] at hn
    exact_mod_cast hn
  have habs : (m : ℚ) * 2 ^ e = (n.natAbs : Nat) := by
    have hcast : ((n.natAbs : Nat) : ℚ) = |(n : ℚ)| := by
      rw [← Int.cast_abs, Int.abs_eq_natAbs, Int.cast_natCast]
    rw [hcast, ← h]
    cases negative with
    | false => rw [value_positive, abs_of_nonneg hnonneg]
    | true => rw [value_negative, abs_neg, abs_of_nonneg hnonneg]
  rw [positional_eq_signed, positional_of_whole habs hsize, h, Int.toString_eq_repr, Int.repr_eq_if]
  by_cases hneg : n < 0
  · have hneg' : (n : ℚ) < 0 := by exact_mod_cast hneg
    rw [decide_eq_true hneg', if_neg (not_le.mpr hneg), String.toList_append, Nat.toList_repr]
    have : (-n).toNat = n.natAbs := by omega
    rw [this]
    rfl
  · have hneg' : ¬ (n : ℚ) < 0 := by exact_mod_cast hneg
    rw [decide_eq_false hneg', if_pos (not_lt.mp hneg), Nat.toList_repr]
    have : n.toNat = n.natAbs := by omega
    rw [this]
    rfl

/-- What is written for a double that is not negative is a numeral whose value is rounded to it. -/
theorem exists_plain_nearest {m : Nat} {e : Int} (hfits : Fits m e) :
    ∃ p : PlainNumeral, p.text = (Double.finite false m e).positional ∧
      Nearest p.value (.finite false m e) := by
  rcases Nat.eq_zero_or_pos m with rfl | hm
  · obtain rfl : e = minExponent := hfits.full.resolve_left (by norm_num)
    refine ⟨⟨['0'], [], Script.allDigits_zeros 1, nofun, Or.inl rfl⟩, rfl, ?_⟩
    have hvalue : PlainNumeral.value ⟨['0'], [], Script.allDigits_zeros 1, nofun, Or.inl rfl⟩ = 0 := by
      simp [PlainNumeral.value, Script.valueOf, Json.hexValue?]
    rw [hvalue]
    exact nearest_zero
  · obtain ⟨p, htext, hdouble⟩ := Script.exists_plain_of_fits hfits
    exact ⟨p, htext, nearest_ofDecimal hfits hm hdouble⟩

/-- A finite double is written as a plain numeral with a minus sign in front exactly if it is negative.
If it is a whole number below `10 ^ 21`, the text is that of this number, which is `0` for both zeros.
The doubles to which the written number is rounded are those with the value of the double. -/
theorem positional_rounds_back {v : Double} (h : v.Standard) :
    ∃ (sign : Bool) (p : PlainNumeral),
      v.positional = signed sign p.text ∧ (sign = true ↔ v.value < 0) ∧
      (∀ n : Int, v.value = n → |n| < 10 ^ 21 → v.positional = (toString n).toList) ∧
      ∀ w, Nearest (if sign then -p.value else p.value) w ↔ w.Standard ∧ w.value = v.value := by
  obtain @⟨negative, m, e, hfits⟩ := h
  obtain ⟨p, htext, hnearest⟩ := exists_plain_nearest hfits
  have hwritten := positional_eq_signed negative m e
  rw [← htext] at hwritten
  refine ⟨_, p, hwritten, decide_eq_true_iff, fun n => positional_eq_toString, ?_⟩
  by_cases hneg : (Double.finite negative m e).value < 0
  · obtain rfl : negative = true := by
      refine Bool.eq_true_of_not_eq_false ?_
      rintro rfl
      have hnonneg : (0 : ℚ) ≤ m * 2 ^ e := by positivity
      exact absurd hneg (not_lt.mpr hnonneg)
    rw [decide_eq_true hneg]
    exact hnearest.negate.iff
  · rw [decide_eq_false hneg, ← value_of_not_negative hneg]
    exact hnearest.iff

/-- The text of the double nearest to a tenth, below zero, is short although its value is not. -/
theorem positional_rounds_back_tenth :
    (Double.finite true 7205759403792794 (-56)).positional = ['-', '0', '.', '1'] ∧
    ∀ w, Nearest (-(1 / 10)) w ↔
      w.Standard ∧ w.value = (Double.finite true 7205759403792794 (-56)).value := by
  have htext : (Double.finite true 7205759403792794 (-56)).positional = ['-', '0', '.', '1'] := by
    decide +kernel
  have hfits : Fits 7205759403792794 (-56) := ⟨by norm_num, by decide, by decide, Or.inl (by norm_num)⟩
  have hneg : (Double.finite true 7205759403792794 (-56)).value < 0 := by
    rw [value_negative]
    norm_num
  obtain ⟨sign, p, hwritten, hsign, -, hnearest⟩ := positional_rounds_back (.finite true hfits)
  obtain rfl : sign = true := hsign.mpr hneg
  rw [htext] at hwritten
  have hnumeral : ['0', '.', '1'] = p.units ++ PlainNumeral.fraction p.places :=
    (List.cons.inj hwritten).2
  have hvalue : p.value = 1 / 10 := by
    rcases p.leading with hzero | ⟨d, more, hunits, hd⟩
    · rw [hzero] at hnumeral
      have hfraction : ['.', '1'] = PlainNumeral.fraction p.places := (List.cons.inj hnumeral).2
      cases hplaces : p.places with
      | nil =>
        rw [hplaces] at hfraction
        cases hfraction
      | cons c places =>
        rw [hplaces] at hfraction
        obtain ⟨rfl, rfl⟩ := List.cons.inj (List.cons.inj hfraction).2
        have hdigits : Script.valueOf 10 ['0', '1'] = 1 := by decide
        rw [PlainNumeral.value, hzero, hplaces, List.singleton_append, hdigits]
        norm_num
    · rw [hunits] at hnumeral
      exact absurd (List.cons.inj hnumeral).1.symm hd
  rw [if_pos rfl, hvalue] at hnearest
  exact ⟨htext, hnearest⟩

end ComponentLint.Number.Double
