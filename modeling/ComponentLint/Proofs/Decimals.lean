import ComponentLint.Number.Shortest
import ComponentLint.Proofs.Rounding

/-!
# Decimals of doubles

A decimal is rounded to a double by its value alone (`ofDecimal_congr`). Seventeen significant digits
are enough to tell every finite double from its neighbours, because the decimals with so many digits
lie closer together than the doubles do. So the search for the shortest decimal of a double always
finds one, and what it finds is rounded to the double again (`ofDecimal_shortest`).
-/

namespace ComponentLint.Number

/-- The exact value of a decimal. -/
def Decimal.value (d : Decimal) : ℚ := d.digits * 10 ^ d.power

/-! ## Reading decimals -/

/-- The number of digits and the power together tell the size of a decimal. -/
theorem decimal_bounds {digits : Nat} (h : 0 < digits) (power : Int) :
    (10 : ℚ) ^ (power + (Nat.toDigits 10 digits).length - 1) ≤ digits * 10 ^ power ∧
      (digits : ℚ) * 10 ^ power < 10 ^ (power + (Nat.toDigits 10 digits).length) := by
  have hlen : 0 < (Nat.toDigits 10 digits).length := Nat.length_toDigits_pos
  have hpow : (0 : ℚ) < 10 ^ power := by positivity
  have hlt : digits < 10 ^ (Nat.toDigits 10 digits).length :=
    (Nat.length_toDigits_le_iff (by norm_num) hlen).mp le_rfl
  have hle : 10 ^ ((Nat.toDigits 10 digits).length - 1) ≤ digits := by
    by_cases hone : (Nat.toDigits 10 digits).length = 1
    · rw [hone]
      exact h
    · have hiff := Nat.length_toDigits_le_iff (b := 10) (n := digits)
        (k := (Nat.toDigits 10 digits).length - 1) (by norm_num) (by omega)
      exact not_lt.mp fun hless => by
        have := hiff.mpr hless
        omega
  generalize (Nat.toDigits 10 digits).length = n at *
  constructor
  · have hexp : power + (n : Int) - 1 = ((n - 1 : Nat) : Int) + power := by omega
    rw [hexp, zpow_add₀ (by norm_num), zpow_natCast]
    exact mul_le_mul_of_nonneg_right (by exact_mod_cast hle) hpow.le
  · rw [add_comm power, zpow_add₀ (by norm_num), zpow_natCast]
    exact mul_lt_mul_of_pos_right (by exact_mod_cast hlt) hpow

theorem ten_zpow_le {a b : Int} (h : a ≤ b) : (10 : ℚ) ^ a ≤ 10 ^ b :=
  zpow_le_zpow_right₀ (by norm_num) h

theorem two_zpow_le_ten_zpow {a b : Int} (hb : 0 ≤ b) (h : a ≤ 3 * b) : (2 : ℚ) ^ a ≤ 10 ^ b := by
  obtain ⟨n, rfl⟩ := Int.eq_ofNat_of_zero_le hb
  calc (2 : ℚ) ^ a ≤ 2 ^ (3 * (n : Int)) := two_zpow_le h
    _ = 8 ^ n := by
        rw [zpow_mul, zpow_natCast]
        norm_num
    _ ≤ 10 ^ n := pow_le_pow_left₀ (by norm_num) (by norm_num) n
    _ = 10 ^ (n : Int) := (zpow_natCast _ _).symm

namespace Double

/-- Decimals of a reasonable size are rounded as fractions. -/
theorem exists_ratio (digits : Nat) (power : Int) :
    ∃ num den : Nat, 0 < den ∧ (num : ℚ) / den = digits * 10 ^ power ∧
      (0 < digits → power + (Nat.toDigits 10 digits).length ≤ 400 →
        -400 ≤ power + (Nat.toDigits 10 digits).length →
        ∀ negative, ofDecimal negative digits power = ofRatio negative num den) := by
  by_cases hpower : 0 ≤ power
  · obtain ⟨n, rfl⟩ := Int.eq_ofNat_of_zero_le hpower
    refine ⟨digits * 10 ^ n, 1, one_pos, by simp, fun hdigits hhigh hlow negative => ?_⟩
    unfold ofDecimal
    rw [if_neg (Nat.ne_of_gt hdigits)]
    simp only
    rw [if_neg (by omega), if_neg (by omega), if_pos hpower]
    rfl
  · obtain ⟨n, rfl⟩ : ∃ n : Nat, power = -(n : Int) := ⟨(-power).toNat, by omega⟩
    refine ⟨digits, 10 ^ n, Nat.pow_pos (by norm_num), by simp [div_eq_mul_inv],
      fun hdigits hhigh hlow negative => ?_⟩
    unfold ofDecimal
    rw [if_neg (Nat.ne_of_gt hdigits)]
    simp only
    rw [if_neg (by omega), if_neg (by omega), if_neg hpower]
    simp

/-- Decimals with the same value give the same double. -/
theorem ofDecimal_congr {a b : Nat} {p q : Int} (h : (a : ℚ) * 10 ^ p = b * 10 ^ q)
    (negative : Bool) : ofDecimal negative a p = ofDecimal negative b q := by
  have hp : (10 : ℚ) ^ p ≠ 0 := by positivity
  have hq : (10 : ℚ) ^ q ≠ 0 := by positivity
  have hzero : a = 0 ↔ b = 0 := by
    constructor
    · rintro rfl
      have : (b : ℚ) * 10 ^ q = 0 := by rw [← h]; simp
      exact_mod_cast (mul_eq_zero.mp this).resolve_right hq
    · rintro rfl
      have : (a : ℚ) * 10 ^ p = 0 := by rw [h]; simp
      exact_mod_cast (mul_eq_zero.mp this).resolve_right hp
  rcases Nat.eq_zero_or_pos a with rfl | ha
  · obtain rfl := hzero.mp rfl
    rfl
  have hb : 0 < b := Nat.pos_of_ne_zero fun hb => ha.ne' (hzero.mpr hb)
  obtain ⟨hlowa, hhigha⟩ := decimal_bounds ha p
  obtain ⟨hlowb, hhighb⟩ := decimal_bounds hb q
  obtain ⟨num, den, hden, hvalue, hratio⟩ := exists_ratio a p
  obtain ⟨num', den', hden', hvalue', hratio'⟩ := exists_ratio b q
  -- the size of a decimal depends on its value only
  have hsize : p + (Nat.toDigits 10 a).length = q + (Nat.toDigits 10 b).length := by
    rw [h] at hlowa hhigha
    have hone := (zpow_lt_zpow_iff_right₀ (by norm_num : (1 : ℚ) < 10)).mp (hlowa.trans_lt hhighb)
    have htwo := (zpow_lt_zpow_iff_right₀ (by norm_num : (1 : ℚ) < 10)).mp (hlowb.trans_lt hhigha)
    omega
  by_cases hhigh : 400 < p + ((Nat.toDigits 10 a).length : Int)
  · unfold ofDecimal
    rw [if_neg ha.ne', if_neg hb.ne']
    simp only
    rw [if_pos hhigh, if_pos (by omega)]
  by_cases hlow : p + ((Nat.toDigits 10 a).length : Int) < -400
  · unfold ofDecimal
    rw [if_neg ha.ne', if_neg hb.ne']
    simp only
    rw [if_neg hhigh, if_pos hlow, if_neg (by omega), if_pos (by omega)]
  rw [hratio ha (by omega) (by omega), hratio' hb (by omega) (by omega)]
  exact ofRatio_congr hden hden' (by rw [hvalue, hvalue', h]) negative

/-- What differs from a double by less than one part in `2 ^ 54` is read as it. -/
theorem ofDecimal_of_near {m : Nat} {e : Int} (hfits : Fits m e) (hm : 0 < m) {digits : Nat}
    {power : Int}
    (hnear : |(digits : ℚ) * 10 ^ power - m * 2 ^ e| * 2 ^ 54 < m * 2 ^ e) (negative : Bool) :
    ofDecimal negative digits power = .finite negative m e := by
  have hnear' := hnear
  have hlow := hfits.least_le hm
  have hhigh := hfits.lt_greatest
  generalize (m : ℚ) * 2 ^ e = v at hnear hlow hhigh
  have hleast : (0 : ℚ) < 2 ^ (-1074 : Int) := by positivity
  have hdist : |(digits : ℚ) * 10 ^ power - v| < v / 2 := by
    norm_num at hnear
    linarith
  obtain ⟨habove, hbelow⟩ := abs_lt.mp hdist
  have hpositive : 0 < (digits : ℚ) * 10 ^ power := by linarith
  have hdigits : 0 < digits := by
    refine Nat.pos_of_ne_zero ?_
    rintro rfl
    rw [Nat.cast_zero, zero_mul] at hpositive
    exact lt_irrefl _ hpositive
  obtain ⟨hsizelow, hsizehigh⟩ := decimal_bounds hdigits power
  obtain ⟨num, den, hden, hvalue, hratio⟩ := exists_ratio digits power
  have hnot_large : power + ((Nat.toDigits 10 digits).length : Int) ≤ 400 := by
    by_contra hlarge
    have hsize := (ten_zpow_le (by omega : (400 : Int) ≤ _)).trans hsizelow
    have hbig : (2 : ℚ) ^ (1024 + 1 : Int) ≤ 10 ^ (400 : Int) :=
      two_zpow_le_ten_zpow (by norm_num) (by norm_num)
    rw [zpow_add_one₀ (by norm_num)] at hbig
    generalize (2 : ℚ) ^ (1024 : Int) = top at hhigh hbig
    generalize (10 : ℚ) ^ (400 : Int) = bound at hsize hbig
    linarith
  have hnot_small : -400 ≤ power + ((Nat.toDigits 10 digits).length : Int) := by
    by_contra hsmall
    have hsize := hsizehigh.trans_le (ten_zpow_le (by omega : _ ≤ (-400 : Int)))
    have htiny : (10 : ℚ) ^ (-400 : Int) ≤ 2 ^ (-1074 - 1 : Int) := by
      rw [zpow_neg, show (-1074 - 1 : Int) = -1075 by norm_num, zpow_neg]
      exact inv_anti₀ (by positivity) (two_zpow_le_ten_zpow (by norm_num) (by norm_num))
    rw [zpow_sub_one₀ (by norm_num)] at htiny
    generalize (2 : ℚ) ^ (-1074 : Int) = least at *
    linarith
  have hnum : 0 < num := by
    refine Nat.pos_of_ne_zero ?_
    rintro rfl
    rw [← hvalue, Nat.cast_zero, zero_div] at hpositive
    exact lt_irrefl _ hpositive
  rw [hratio hdigits hnot_large hnot_small]
  refine ofRatio_of_near hfits hnum hden ?_ negative
  rw [hvalue]
  exact hnear'

/-- The magnitude of a double as a fraction. -/
theorem magnitude_spec (m : Nat) (e : Int) :
    0 < (magnitude m e).2 ∧ ((magnitude m e).1 : ℚ) / (magnitude m e).2 = m * 2 ^ e := by
  unfold magnitude
  split_ifs with he
  · obtain ⟨n, rfl⟩ := Int.eq_ofNat_of_zero_le he
    simp
  · obtain ⟨n, rfl⟩ : ∃ n : Nat, e = -(n : Int) := ⟨(-e).toNat, by omega⟩
    refine ⟨Nat.pow_pos (by norm_num), ?_⟩
    simp [div_eq_mul_inv]

end Double

/-! ## The decimal exponent -/

theorem ratioBelowPower_iff (num : Nat) {den : Nat} (hden : 0 < den) (k : Int) :
    ratioBelowPower num den k = true ↔ (num : ℚ) / den < 10 ^ k := by
  have hdenq : (0 : ℚ) < den := by exact_mod_cast hden
  unfold ratioBelowPower
  split_ifs with hk
  · obtain ⟨n, rfl⟩ := Int.eq_ofNat_of_zero_le hk
    rw [decide_eq_true_iff, div_lt_iff₀ hdenq, Int.toNat_natCast, zpow_natCast, mul_comm]
    exact_mod_cast Iff.rfl
  · obtain ⟨n, rfl⟩ : ∃ n : Nat, k = -(n : Int) := ⟨(-k).toNat, by omega⟩
    have hpow : (0 : ℚ) < 10 ^ n := by positivity
    rw [decide_eq_true_iff, neg_neg, Int.toNat_natCast, zpow_neg, zpow_natCast, div_lt_iff₀ hdenq,
      inv_mul_eq_div, lt_div_iff₀ hpow]
    exact_mod_cast Iff.rfl

/-- If `a ^ j ≤ b ^ k`, powers with exponents in that ratio compare in the same way. -/
theorem pow_le_pow_of_ratio {a b j k s t : Nat} (ha : 0 < a) (hk : k ≠ 0) (hbase : a ^ j ≤ b ^ k)
    (h : k * t ≤ j * s) : a ^ t ≤ b ^ s := by
  refine (Nat.pow_le_pow_iff_left hk).mp ?_
  calc (a ^ t) ^ k = a ^ (k * t) := by rw [← pow_mul, mul_comm]
    _ ≤ a ^ (j * s) := Nat.pow_le_pow_right ha h
    _ = (a ^ j) ^ s := pow_mul a j s
    _ ≤ (b ^ k) ^ s := Nat.pow_le_pow_left hbase s
    _ = (b ^ s) ^ k := by rw [← pow_mul, ← pow_mul, mul_comm]

theorem ten_pow_le_two_pow {t n : Nat} (hn : n ≤ 100000) (h : 100000 * t ≤ 30103 * n) :
    10 ^ t ≤ 2 ^ (n + 1) :=
  pow_le_pow_of_ratio (j := 30103) (k := 100001) (by norm_num) (by norm_num) (by decide +kernel)
    (by omega)

theorem two_pow_le_ten_pow {t n : Nat} (h : 30103 * n ≤ 100000 * t) : 2 ^ n ≤ 10 ^ t :=
  pow_le_pow_of_ratio (j := 100000) (k := 30103) (by norm_num) (by norm_num) (by decide +kernel) h

/-- The decimal logarithm of a power of two is estimated by its first five places. Two less than the
estimate is certainly not too much. -/
theorem ten_zpow_estimate_le {l : Int} (h : l ≤ 100000) :
    (10 : ℚ) ^ (l * 30103 / 100000 - 2) ≤ 2 ^ (l - 1) := by
  rw [zpow_sub₀ (by norm_num), zpow_sub₀ (by norm_num)]
  by_cases hl : 0 ≤ l
  · obtain ⟨n, rfl⟩ := Int.eq_ofNat_of_zero_le hl
    obtain ⟨t, ht⟩ := Int.eq_ofNat_of_zero_le (by omega : 0 ≤ (n : Int) * 30103 / 100000)
    have hle : (10 : ℚ) ^ t ≤ 2 ^ (n + 1) := by
      exact_mod_cast ten_pow_le_two_pow (by omega) (by omega : 100000 * t ≤ 30103 * n)
    rw [pow_succ] at hle
    rw [ht, zpow_natCast, zpow_natCast]
    have htwo : (0 : ℚ) < 2 ^ n := by positivity
    norm_num
    linarith
  · obtain ⟨n, rfl⟩ : ∃ n : Nat, l = -(n : Int) := ⟨(-l).toNat, by omega⟩
    obtain ⟨t, ht⟩ : ∃ t : Nat, -(n : Int) * 30103 / 100000 = -(t : Int) :=
      ⟨(-(-(n : Int) * 30103 / 100000)).toNat, by omega⟩
    have hle : (2 : ℚ) ^ n ≤ 10 ^ t := by
      exact_mod_cast two_pow_le_ten_pow (by omega : 30103 * n ≤ 100000 * t)
    have hinv : ((10 : ℚ) ^ t)⁻¹ ≤ (2 ^ n)⁻¹ := inv_anti₀ (by positivity) hle
    rw [ht, zpow_neg, zpow_neg, zpow_natCast, zpow_natCast]
    have hten : (0 : ℚ) < ((10 : ℚ) ^ t)⁻¹ := by positivity
    norm_num
    linarith

/-- The decimal exponent of a number that is not too large is not too great. -/
theorem decimalExponent_le {num den : Nat} (hnum : 0 < num) (hden : 0 < den)
    (hsize : (num.log2 : Int) - den.log2 ≤ 100000) :
    (10 : ℚ) ^ decimalExponent num den ≤ (num : ℚ) / den := by
  have hstep : ∀ k : Int, (10 : ℚ) ^ k ≤ (num : ℚ) / den →
      (10 : ℚ) ^ (if ratioBelowPower num den (k + 1) then k else k + 1) ≤ (num : ℚ) / den := by
    intro k hk
    split_ifs with hbelow
    · exact hk
    · exact not_lt.mp fun hlt => hbelow ((ratioBelowPower_iff num hden (k + 1)).mpr hlt)
  have hstart := (ten_zpow_estimate_le hsize).trans (ratio_bounds hnum hden).1.le
  exact hstep _ (hstep _ (hstep _ (hstep _ hstart)))

/-! ## The shortest decimal -/

theorem gridRatio_spec (num : Nat) {den : Nat} (hden : 0 < den) (p : Int) :
    0 < (gridRatio num den p).2 ∧
      ((gridRatio num den p).1 : ℚ) / (gridRatio num den p).2 = (num : ℚ) / den / 10 ^ p := by
  unfold gridRatio
  split_ifs with hp
  · obtain ⟨n, rfl⟩ := Int.eq_ofNat_of_zero_le hp
    refine ⟨Nat.mul_pos hden (Nat.pow_pos (by norm_num)), ?_⟩
    simp [div_div]
  · obtain ⟨n, rfl⟩ : ∃ n : Nat, p = -(n : Int) := ⟨(-p).toNat, by omega⟩
    refine ⟨hden, ?_⟩
    simp [div_mul_eq_mul_div]

theorem Decimal.readsAs_iff {d : Decimal} {m : Nat} {e : Int} :
    d.readsAs m e = true ↔ Double.ofDecimal false d.digits d.power = .finite false m e := by
  rw [readsAs, beq_iff_eq]

theorem Tie.half_of_goesDown {tie : Tie} {q r d : Nat} (h : tie.goesDown q r d = true) :
    2 * r ≤ d := by
  simp only [goesDown, Bool.or_eq_true, Bool.and_eq_true, decide_eq_true_eq, beq_iff_eq] at h
  omega

theorem Tie.half_of_not_goesDown {tie : Tie} {q r d : Nat} (h : ¬ tie.goesDown q r d = true) :
    d ≤ 2 * r := by
  simp only [goesDown, Bool.or_eq_true, decide_eq_true_eq, not_or] at h
  omega

/-- One of the two neighbours of a number on a grid is at most half a step away. -/
theorem Tie.nearest (tie : Tie) (n : Nat) {d : Nat} (hd : 0 < d) :
    2 * |(((if tie.goesDown (n / d) (n % d) d then n / d else n / d + 1 : Nat) : ℚ)) - (n : ℚ) / d|
      ≤ 1 := by
  have hdq : (0 : ℚ) < d := by exact_mod_cast hd
  have hsplit : (n : ℚ) = d * (n / d : Nat) + (n % d : Nat) := by
    exact_mod_cast (Nat.div_add_mod n d).symm
  have hquot : (n : ℚ) / d = (n / d : Nat) + ((n % d : Nat) : ℚ) / d := by
    rw [hsplit]
    field_simp
  have hmod : n % d < d := Nat.mod_lt n hd
  rw [hquot]
  split_ifs with hdown
  · have hhalf : 2 * (n % d) ≤ d := half_of_goesDown hdown
    have hhalfq : ((n % d : Nat) : ℚ) / d ≤ 1 / 2 := by
      rw [div_le_iff₀ hdq]
      have : (2 * (n % d : Nat) : ℚ) ≤ d := by exact_mod_cast hhalf
      linarith
    have hpart : (0 : ℚ) ≤ ((n % d : Nat) : ℚ) / d := by positivity
    rw [sub_add_cancel_left, abs_neg, abs_of_nonneg hpart]
    linarith
  · have hhalf : d ≤ 2 * (n % d) := half_of_not_goesDown hdown
    have hhalfq : 1 / 2 ≤ ((n % d : Nat) : ℚ) / d := by
      rw [le_div_iff₀ hdq]
      have : (d : ℚ) ≤ 2 * (n % d : Nat) := by exact_mod_cast hhalf
      linarith
    have hone : ((n % d : Nat) : ℚ) / d < 1 := by
      rw [div_lt_one hdq]
      exact_mod_cast hmod
    have hdist : ((n / d + 1 : Nat) : ℚ) - ((n / d : Nat) + ((n % d : Nat) : ℚ) / d) =
        1 - ((n % d : Nat) : ℚ) / d := by
      push_cast
      ring
    rw [hdist, abs_of_nonneg (by linarith)]
    linarith

/-- What is found with a number of digits is read as the double. -/
theorem readsAs_of_decimalOfLength {tie : Tie} {m : Nat} {e : Int} {count : Nat} {d : Decimal}
    (h : decimalOfLength? tie m e count = some d) : d.readsAs m e = true := by
  unfold decimalOfLength? at h
  simp only at h
  -- whichever neighbour is tried first, it is returned only if it is read as the double
  split_ifs at h <;>
  · cases h
    assumption

/-- With seventeen digits a decimal is found: the grid is then so fine that the nearer neighbour is
read as the double. -/
theorem exists_decimalOfLength {m : Nat} {e : Int} (hfits : Fits m e) (hm : 0 < m) (tie : Tie) :
    ∃ d, decimalOfLength? tie m e 17 = some d := by
  obtain ⟨hden, hvalue⟩ := Double.magnitude_spec m e
  have hpow : (0 : ℚ) < 2 ^ e := by positivity
  have hmq : (0 : ℚ) < m := by exact_mod_cast hm
  have hnum : 0 < (Double.magnitude m e).1 := by
    refine Nat.pos_of_ne_zero fun hzero => ?_
    rw [hzero, Nat.cast_zero, zero_div] at hvalue
    linarith [mul_pos hmq hpow]
  have hsize : ((Double.magnitude m e).1.log2 : Int) - (Double.magnitude m e).2.log2 ≤ 100000 := by
    have hlow := (ratio_bounds hnum hden).1
    rw [hvalue] at hlow
    have := (zpow_lt_zpow_iff_right₀ (by norm_num : (1 : ℚ) < 2)).mp (hlow.trans hfits.lt_greatest)
    omega
  have hexponent := decimalExponent_le hnum hden hsize
  unfold decimalOfLength?
  simp only
  generalize Double.magnitude m e = ratio at *
  generalize hp : decimalExponent ratio.1 ratio.2 - ((17 : Nat) : Int) + 1 = p
  obtain ⟨hd, hgrid⟩ := gridRatio_spec ratio.1 hden p
  have hnearest := tie.nearest (gridRatio ratio.1 ratio.2 p).1 hd
  generalize gridRatio ratio.1 ratio.2 p = grid at *
  have hstep : (10 : ℚ) ^ p * 10 ^ 16 ≤ m * 2 ^ e := by
    have hp' : decimalExponent ratio.1 ratio.2 = p + (16 : Nat) := by omega
    rw [hp', zpow_add₀ (by norm_num), hvalue, zpow_natCast] at hexponent
    exact hexponent
  have hreads : ∀ q : Nat, 2 * |(q : ℚ) - (grid.1 : ℚ) / grid.2| ≤ 1 →
      (Decimal.mk q p).readsAs m e = true := by
    intro q hq
    have hten : (0 : ℚ) < 10 ^ p := by positivity
    refine Decimal.readsAs_iff.mpr (Double.ofDecimal_of_near hfits hm ?_ false)
    have hscale : (m : ℚ) * 2 ^ e = (grid.1 : ℚ) / grid.2 * 10 ^ p := by
      rw [hgrid, hvalue, div_mul_cancel₀ _ hten.ne']
    have hdist : |(q : ℚ) * 10 ^ p - m * 2 ^ e| = |(q : ℚ) - (grid.1 : ℚ) / grid.2| * 10 ^ p := by
      rw [hscale, ← sub_mul, abs_mul, abs_of_pos hten]
    rw [hdist]
    have hhalf : |(q : ℚ) - (grid.1 : ℚ) / grid.2| * 10 ^ p ≤ 1 / 2 * 10 ^ p :=
      mul_le_mul_of_nonneg_right (by linarith) hten.le
    norm_num at hhalf hstep ⊢
    linarith
  have hfirst := hreads _ hnearest
  by_cases hdown : tie.goesDown (grid.1 / grid.2) (grid.1 % grid.2) grid.2 = true
  · rw [if_pos hdown] at hfirst
    exact ⟨_, by rw [if_pos hdown, if_pos hfirst]⟩
  · rw [if_neg hdown] at hfirst
    exact ⟨_, by rw [if_neg hdown, if_pos hfirst]⟩

/-- One length is tried, and the longer ones only if it has no decimal. -/
theorem shortestFrom_succ_eq_match (tie : Tie) (m : Nat) (e : Int) (count more : Nat) :
    shortestFrom tie m e count (more + 1) =
      match decimalOfLength? tie m e count with
      | some d => some d
      | none => shortestFrom tie m e (count + 1) more := by
  rfl

theorem shortestFrom_succ (tie : Tie) (m : Nat) (e : Int) (count more : Nat) :
    shortestFrom tie m e count (more + 1) =
      (decimalOfLength? tie m e count).or (shortestFrom tie m e (count + 1) more) := by
  rw [shortestFrom_succ_eq_match]
  cases decimalOfLength? tie m e count with
  | some d => rfl
  | none => rfl

theorem exists_shortestFrom {tie : Tie} {m : Nat} {e : Int} {last : Nat}
    (h : ∃ d, decimalOfLength? tie m e last = some d) {count more : Nat} (hcount : count ≤ last)
    (hmore : last < count + more) :
    ∃ d, shortestFrom tie m e count more = some d ∧ d.readsAs m e = true := by
  induction more generalizing count with
  | zero => omega
  | succ more ih =>
    rw [shortestFrom_succ]
    cases hfound : decimalOfLength? tie m e count with
    | some d => exact ⟨d, Option.some_or, readsAs_of_decimalOfLength hfound⟩
    | none =>
      have hne : count ≠ last := by
        rintro rfl
        obtain ⟨d, hd⟩ := h
        rw [hd] at hfound
        cases hfound
      rw [Option.none_or]
      exact ih (by omega) (by omega)

/-- Zeros at the end of the digits go into the power. -/
theorem Decimal.value_stripZeros (d : Decimal) (count : Nat) :
    (d.stripZeros count).value = d.value := by
  induction count generalizing d with
  | zero => rfl
  | succ count ih =>
    rw [stripZeros]
    split_ifs with hzero
    · rw [ih]
      have hsplit : (d.digits : ℚ) = 10 * (d.digits / 10 : Nat) := by
        have : d.digits = 10 * (d.digits / 10) := by omega
        exact_mod_cast this
      simp only [value]
      rw [zpow_add_one₀ (by norm_num), hsplit]
      ring
    · rfl

/-- The shortest decimal of a finite double is read as this double. -/
theorem ofDecimal_shortest {m : Nat} {e : Int} (hfits : Fits m e) (hm : 0 < m) (tie : Tie) :
    Double.ofDecimal false (shortest tie m e).digits (shortest tie m e).power =
      .finite false m e := by
  have hfound : ∃ d, shortestFrom tie m e 1 17 = some d ∧ d.readsAs m e = true :=
    exists_shortestFrom (exists_decimalOfLength hfits hm tie) (by norm_num) (by norm_num)
  obtain ⟨d, hd, hreads⟩ := hfound
  have hshortest : shortest tie m e = d.stripZeros 17 := by
    unfold shortest
    rw [hd]
    rfl
  rw [hshortest, ← Decimal.readsAs_iff.mp hreads]
  exact Double.ofDecimal_congr (d.value_stripZeros 17) false

/-- The shortest decimal of a positive double is positive. -/
theorem shortest_pos {m : Nat} {e : Int} (hfits : Fits m e) (hm : 0 < m) (tie : Tie) :
    0 < (shortest tie m e).digits := by
  refine Nat.pos_of_ne_zero fun hzero => ?_
  have hread := ofDecimal_shortest hfits hm tie
  rw [hzero] at hread
  unfold Double.ofDecimal Double.zero at hread
  rw [if_pos rfl] at hread
  injection hread
  omega

end ComponentLint.Number
