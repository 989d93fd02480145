import ComponentLint.Proofs.Decimals
import ComponentLint.Script.Lexer.Numeral

/-!
# Numbers as literals

Every finite double that is not negative is written as a numeral of the script language, with digits
and at most a point, and is read from it again. Conversely the value of every numeral of the language
is such a double, or infinite if the numeral is too large.
-/

namespace ComponentLint.Script

open Number (Double Decimal Fits digitsOf)

/-! ## Digits -/

/-- A list of decimal digits. -/
def AllDigits (s : List Char) : Prop := ∀ c ∈ s, c.isDigit = true

theorem AllDigits.append {s t : List Char} (hs : AllDigits s) (ht : AllDigits t) :
    AllDigits (s ++ t) := by
  intro c hc
  exact (List.mem_append.mp hc).elim (hs c) (ht c)

theorem allDigits_zeros (n : Nat) : AllDigits (List.replicate n '0') := by
  intro c hc
  rw [List.eq_of_mem_replicate hc]
  rfl

theorem allDigits_digitsOf (n : Nat) : AllDigits (digitsOf n) := by
  intro c hc
  exact Nat.isDigit_of_mem_toDigits (by norm_num) (by norm_num) hc

theorem ne_of_digit {d c : Char} (hd : d.isDigit = true) (hc : c.isDigit = false) : d ≠ c := by
  rintro rfl
  rw [hd] at hc
  cases hc

theorem hexValue?_of_isDigit {c : Char} (h : c.isDigit = true) :
    Json.hexValue? c = some (c.toNat - '0'.toNat) := by
  have hrange : '0' ≤ c ∧ c ≤ '9' := by
    simpa [Char.isDigit, Char.le_def] using h
  rw [Json.hexValue?, if_pos hrange]

theorem digitValue?_of_isDigit {c : Char} (h : c.isDigit = true) :
    digitValue? 10 c = some (c.toNat - '0'.toNat) := by
  have hrange : c.toNat - '0'.toNat < 10 := by
    have hle : c.val ≤ 57 := by
      have : 48 ≤ c.val ∧ c.val ≤ 57 := by simpa [Char.isDigit] using h
      exact this.2
    have hnat : c.toNat ≤ 57 := UInt32.le_iff_toNat_le.mp hle
    have hzero : '0'.toNat = 48 := rfl
    omega
  rw [digitValue?, hexValue?_of_isDigit h, Option.filter_some, if_pos (decide_eq_true hrange)]

theorem valueOf_eq {digits : List Char} (h : AllDigits digits) :
    valueOf 10 digits = Nat.ofDigitChars 10 digits 0 := by
  rw [valueOf, Nat.ofDigitChars_eq_foldl]
  refine List.foldl_ext _ _ _ fun n c hc => ?_
  rw [hexValue?_of_isDigit (h c hc), Option.getD_some]

theorem valueOf_digitsOf (n : Nat) : valueOf 10 (digitsOf n) = n := by
  rw [valueOf_eq (allDigits_digitsOf n)]
  exact Nat.ofDigitChars_ten_toDigits

/-- Zeros in front of digits do not count. -/
theorem valueOf_zeros_append (n : Nat) {digits : List Char} (h : AllDigits digits) :
    valueOf 10 (List.replicate n '0' ++ digits) = valueOf 10 digits := by
  rw [valueOf_eq ((allDigits_zeros n).append h), valueOf_eq h, Nat.ofDigitChars_append,
    Nat.ofDigitChars_replicate_zero, Nat.mul_zero]

/-- Zeros behind digits multiply by powers of ten. -/
theorem valueOf_append_zeros {digits : List Char} (h : AllDigits digits) (n : Nat) :
    valueOf 10 (digits ++ List.replicate n '0') = valueOf 10 digits * 10 ^ n := by
  rw [valueOf_eq (h.append (allDigits_zeros n)), valueOf_eq h, Nat.ofDigitChars_append,
    Nat.ofDigitChars_replicate_zero, Nat.mul_comm]

/-- The digits of a positive number begin with no zero. -/
theorem digitsOf_head {n : Nat} (h : 0 < n) : ∃ d more, digitsOf n = d :: more ∧ d ≠ '0' := by
  induction n using Nat.strong_induction_on with
  | h n ih =>
    unfold digitsOf
    by_cases hlt : n < 10
    · refine ⟨n.digitChar, [], Nat.toDigits_of_lt_base hlt, ?_⟩
      have hten : ∀ k < 10, 0 < k → k.digitChar ≠ '0' := by decide
      exact hten n hlt h
    · obtain ⟨d, more, hdigits, hd⟩ := ih (n / 10) (by omega) (by omega)
      unfold digitsOf at hdigits
      refine ⟨d, more ++ [(n % 10).digitChar], ?_, hd⟩
      rw [Nat.toDigits_of_base_le (by norm_num) (by omega), hdigits, List.cons_append]

/-! ## Numerals without an exponent -/

/-- A numeral of digits with perhaps a fraction, and without a superfluous zero at its beginning. -/
structure PlainNumeral where
  /-- The digits before the point. -/
  units : List Char
  /-- The digits behind the point; without any there is no point. -/
  places : List Char
  units_digits : AllDigits units
  places_digits : AllDigits places
  leading : units = ['0'] ∨ ∃ d more, units = d :: more ∧ d ≠ '0'

namespace PlainNumeral

/-- The fraction with its point. -/
def fraction : List Char → List Char
  | [] => []
  | d :: more => '.' :: d :: more

/-- The text of a numeral. -/
def text (p : PlainNumeral) : List Char := p.units ++ fraction p.places

/-- The exact value of a numeral. -/
def value (p : PlainNumeral) : ℚ :=
  valueOf 10 (p.units ++ p.places) * 10 ^ (-(p.places.length : Int))

end PlainNumeral

theorem separatorsFit_of_digits {s : List Char} (h : AllDigits s) : separatorsFit s = true := by
  induction s with
  | nil => rfl
  | cons c s ih =>
    have hc : c ≠ '_' := ne_of_digit (h c List.mem_cons_self) rfl
    have hs := ih fun d hd => h d (List.mem_cons_of_mem c hd)
    unfold separatorsFit
    split
    · rfl
    · next heq => exact absurd (List.cons.inj heq).1 hc
    · next heq => exact absurd (List.cons.inj heq).1 hc
    · next heq => rwa [← (List.cons.inj heq).2]

/-- A row of digits is read up to the first character that is neither digit nor separator. -/
theorem separatedDigits_append {digits : List Char} (hne : digits ≠ []) (h : AllDigits digits)
    {c : Char} (hmark : c ≠ '_') (hc : digitValue? 10 c = none) (rest : List Char) :
    separatedDigits 10 (digits ++ c :: rest) = some (digits, c :: rest) := by
  have haccepted : ∀ d ∈ digits, (d == '_' || (digitValue? 10 d).isSome) = true := by
    intro d hd
    rw [digitValue?_of_isDigit (h d hd)]
    simp
  have hstop : ¬ (c == '_' || (digitValue? 10 c).isSome) = true := by
    simp [hmark, hc]
  have hnone : (c :: rest).takeWhile (fun c => c == '_' || (digitValue? 10 c).isSome) = [] :=
    List.takeWhile_cons_of_neg hstop
  have hall : (c :: rest).dropWhile (fun c => c == '_' || (digitValue? 10 c).isSome) = c :: rest :=
    List.dropWhile_cons_of_neg hstop
  have htake : (digits ++ c :: rest).takeWhile
      (fun c => c == '_' || (digitValue? 10 c).isSome) = digits := by
    rw [List.takeWhile_append_of_pos haccepted, hnone, List.append_nil]
  have hdrop : (digits ++ c :: rest).dropWhile
      (fun c => c == '_' || (digitValue? 10 c).isSome) = c :: rest := by
    rw [List.dropWhile_append_of_pos haccepted, hall]
  have hplain : digits.filter (· != '_') = digits := by
    refine List.filter_eq_self.mpr fun d hd => ?_
    simpa using ne_of_digit (h d hd) rfl
  unfold separatedDigits
  simp only
  rw [htake, hdrop, separatorsFit_of_digits h, hplain]
  cases digits with
  | nil => exact absurd rfl hne
  | cons d more =>
    have hd : d ≠ '_' := ne_of_digit (h d List.mem_cons_self) rfl
    split
    · next heq => cases heq
    · next heq => exact absurd (List.cons.inj heq).1 hd
    · rfl

/-- The rest of a decimal literal that has no exponent and stands before a closing parenthesis. -/
theorem decimalTail_append (units : List Char) {places : List Char} (h : AllDigits places)
    (after : List Char) :
    decimalTail units (PlainNumeral.fraction places ++ ')' :: after) =
      some (.number (Double.ofDecimal false (valueOf 10 (units ++ places))
        (-(places.length : Int))), ')' :: after) := by
  cases places with
  | nil => rfl
  | cons d more =>
    have hd : d.isDigit = true := h d List.mem_cons_self
    have hread : separatedDigits 10 (d :: more ++ ')' :: after) = some (d :: more, ')' :: after) :=
      separatedDigits_append (by simp) h (by decide) (by decide) after
    have hplaces : fractionDigits (d :: more ++ ')' :: after) = some (d :: more, ')' :: after) := by
      unfold fractionDigits
      simp only [List.cons_append, hd, Bool.true_or, if_true]
      exact hread
    have hexponent : exponentPart (')' :: after) = some (0, ')' :: after) := rfl
    unfold decimalTail
    simp only [PlainNumeral.fraction, List.cons_append] at hplaces ⊢
    simp only [hplaces, hexponent, Option.bind_eq_bind, Option.bind_some, zero_sub]
    rfl

/-- A literal that begins with a digit other than zero. -/
theorem numeralBody_of_digit {d : Char} (hd : d.isDigit = true) (hzero : d ≠ '0')
    (s : List Char) :
    numeralBody (d :: s) = (separatedDigits 10 (d :: s)).bind fun (units, rest) =>
      match rest with
      | 'n' :: rest => some (.bigint, rest)
      | _ => decimalTail units rest := by
  have hpoint : d ≠ '.' := ne_of_digit hd rfl
  unfold numeralBody
  split
  all_goals first
    | next heq => exact absurd (List.cons.inj heq).1 hzero
    | next heq => exact absurd (List.cons.inj heq).1 hpoint
    | rfl

namespace PlainNumeral

/-- The double that a plain numeral stands for. -/
def double (p : PlainNumeral) : Double :=
  .ofDecimal false (valueOf 10 (p.units ++ p.places)) (-(p.places.length : Int))

/-- A plain numeral before a closing parenthesis is read to its end. -/
theorem numeral_append (p : PlainNumeral) (after : List Char) :
    numeral (p.text ++ ')' :: after) = some (.number p.double, ')' :: after) := by
  have hbody : numeralBody (p.text ++ ')' :: after) = some (.number p.double, ')' :: after) := by
    have htail := decimalTail_append p.units p.places_digits after
    unfold text double
    rw [List.append_assoc]
    rcases p.leading with hzero | ⟨d, more, hunits, hd⟩
    · rw [hzero] at htail ⊢
      cases hplaces : p.places with
      | nil => rfl
      | cons c places =>
        rw [hplaces] at htail
        exact htail
    · have hdigits := p.units_digits
      rw [hunits] at hdigits htail ⊢
      rw [List.cons_append, numeralBody_of_digit (hdigits d List.mem_cons_self) hd,
        ← List.cons_append]
      cases hplaces : p.places with
      | nil =>
        have hread := separatedDigits_append (by simp) hdigits (c := ')') (by decide) (by decide)
          after
        rw [hplaces] at htail
        simp only [fraction, List.nil_append] at hread htail ⊢
        rw [hread]
        exact htail
      | cons c places =>
        have hread := separatedDigits_append (by simp) hdigits (c := '.') (by decide) (by decide)
          (c :: places ++ ')' :: after)
        rw [hplaces] at htail
        simp only [fraction, List.cons_append] at hread htail ⊢
        rw [hread]
        exact htail
  unfold numeral
  rw [hbody]
  rfl

end PlainNumeral

/-! ## Writing doubles -/

theorem exists_plain_digits {n : Nat} (h : 0 < n) :
    ∃ p : PlainNumeral, p.text = digitsOf n ∧ p.value = n := by
  refine ⟨⟨digitsOf n, [], allDigits_digitsOf n, nofun, Or.inr (digitsOf_head h)⟩, ?_, ?_⟩
  · exact List.append_nil _
  · simp [PlainNumeral.value, valueOf_digitsOf]

/-- A positive decimal is written as a plain numeral of the same value. -/
theorem exists_plain_positional {d : Decimal} (h : 0 < d.digits) :
    ∃ p : PlainNumeral, p.text = d.positional ∧ p.value = d.value := by
  obtain ⟨c, more, hdigits, hc⟩ := digitsOf_head h
  have hall := allDigits_digitsOf d.digits
  have hvalue := valueOf_digitsOf d.digits
  unfold Decimal.positional
  simp only
  generalize digitsOf d.digits = digits at *
  split_ifs with hpower hplaces
  · -- zeros up to the point
    obtain ⟨n, hn⟩ := Int.eq_ofNat_of_zero_le hpower
    refine ⟨⟨digits ++ List.replicate d.power.toNat '0', [], hall.append (allDigits_zeros _), nofun,
      Or.inr ⟨c, more ++ List.replicate d.power.toNat '0', by rw [hdigits, List.cons_append], hc⟩⟩,
      List.append_nil _, ?_⟩
    simp [PlainNumeral.value, valueOf_append_zeros hall, hvalue, Decimal.value, hn]
  · -- the point stands among the digits
    have hsplit := List.take_append_drop (digits.length - (-d.power).toNat) digits
    have hlength : (digits.drop (digits.length - (-d.power).toNat)).length = (-d.power).toNat := by
      rw [List.length_drop]
      omega
    refine ⟨⟨digits.take (digits.length - (-d.power).toNat),
      digits.drop (digits.length - (-d.power).toNat),
      fun x hx => hall x (List.mem_of_mem_take hx), fun x hx => hall x (List.mem_of_mem_drop hx),
      Or.inr ?_⟩, ?_, ?_⟩
    · obtain ⟨k, hk⟩ : ∃ k, digits.length - (-d.power).toNat = k + 1 :=
        ⟨digits.length - (-d.power).toNat - 1, by omega⟩
      exact ⟨c, more.take k, by rw [hk, hdigits, List.take_succ_cons], hc⟩
    · unfold PlainNumeral.text
      simp only
      congr 1
      cases hrest : digits.drop (digits.length - (-d.power).toNat) with
      | nil =>
        rw [hrest, List.length_nil] at hlength
        omega
      | cons x rest => rfl
    · unfold PlainNumeral.value Decimal.value
      simp only
      rw [hsplit, hlength, hvalue]
      congr 2
      omega
  · -- zeros behind the point
    have hlength : (List.replicate ((-d.power).toNat - digits.length) '0' ++ digits).length =
        (-d.power).toNat := by
      rw [List.length_append, List.length_replicate]
      omega
    refine ⟨⟨['0'], List.replicate ((-d.power).toNat - digits.length) '0' ++ digits,
      allDigits_zeros 1, (allDigits_zeros _).append hall, Or.inl rfl⟩, ?_, ?_⟩
    · unfold PlainNumeral.text
      simp only
      rw [List.cons_append, List.nil_append]
      congr 1
      cases hrest : List.replicate ((-d.power).toNat - digits.length) '0' ++ digits with
      | nil =>
        rw [hrest, List.length_nil] at hlength
        omega
      | cons x rest => rfl
    · unfold PlainNumeral.value Decimal.value
      simp only
      rw [hlength]
      have hzeros : valueOf 10 (['0'] ++ (List.replicate ((-d.power).toNat - digits.length) '0' ++
          digits)) = d.digits := by
        have hone := valueOf_zeros_append 1 ((allDigits_zeros
          ((-d.power).toNat - digits.length)).append hall)
        rw [valueOf_zeros_append _ hall, hvalue] at hone
        exact hone
      rw [hzeros]
      congr 2
      omega

theorem whole?_eq_some {m : Nat} {e : Int} {n : Nat} (h : Double.whole? m e = some n) :
    (n : ℚ) = m * 2 ^ e := by
  obtain ⟨hden, hvalue⟩ := Double.magnitude_spec m e
  unfold Double.whole? at h
  simp only at h
  split_ifs at h with hmod
  obtain rfl := Option.some.inj h
  obtain ⟨k, hk⟩ := Nat.dvd_of_mod_eq_zero hmod
  have hdenq : ((Double.magnitude m e).2 : ℚ) ≠ 0 := by exact_mod_cast hden.ne'
  rw [← hvalue, hk, Nat.mul_div_cancel_left k hden, Nat.cast_mul, mul_div_cancel_left₀ _ hdenq]

/-- A double that is not negative is written as a plain numeral that stands for it. -/
theorem exists_plain_of_fits {m : Nat} {e : Int} (hfits : Fits m e) :
    ∃ p : PlainNumeral, p.text = (Double.finite false m e).positional ∧
      p.double = .finite false m e := by
  rcases Nat.eq_zero_or_pos m with rfl | hm
  · -- a zero has the least exponent
    have he : e = Number.minExponent := hfits.full.resolve_left (by norm_num)
    subst he
    exact ⟨⟨['0'], [], allDigits_zeros 1, nofun, Or.inl rfl⟩, rfl, rfl⟩
  have hshortest : ∃ p : PlainNumeral, p.text = (Number.shortest .up m e).positional ∧
      p.double = .finite false m e := by
    obtain ⟨p, htext, hvalue⟩ := exists_plain_positional (Number.shortest_pos hfits hm .up)
    refine ⟨p, htext, ?_⟩
    rw [← Number.ofDecimal_shortest hfits hm .up]
    exact Double.ofDecimal_congr hvalue false
  unfold Double.positional
  simp only
  rw [if_neg hm.ne']
  split
  · next n hwhole =>
    have hn := whole?_eq_some hwhole
    split_ifs
    · have hpos : 0 < n := by
        have : (0 : ℚ) < n := by
          rw [hn]
          have : (0 : ℚ) < m := by exact_mod_cast hm
          positivity
        exact_mod_cast this
      obtain ⟨p, htext, hvalue⟩ := exists_plain_digits hpos
      refine ⟨p, htext, Double.ofDecimal_of_near hfits hm ?_ false⟩
      have hexact : p.value - m * 2 ^ e = 0 := by rw [hvalue, hn, sub_self]
      unfold PlainNumeral.value at hexact
      rw [hexact, abs_zero, zero_mul, ← hn]
      exact_mod_cast hpos
    · exact hshortest
  · exact hshortest

/-- A negative double is written with a minus sign in front, unless it is zero. -/
theorem positional_negative {m : Nat} (e : Int) (hm : m ≠ 0) :
    (Double.finite true m e).positional = '-' :: (Double.finite false m e).positional := by
  unfold Double.positional
  simp only
  rw [if_neg hm, if_neg hm]
  split
  · split_ifs
    · rfl
    · rfl
  · rfl

/-! ## The values of numerals -/

/-- The values that numerals have: a standard double that is not negative, or infinity. -/
inductive IsLiteralValue : Double → Prop where
  | infinite : IsLiteralValue (.infinite false)
  | finite {m : Nat} {e : Int} (h : Fits m e) : IsLiteralValue (.finite false m e)

theorem isLiteralValue_zero : IsLiteralValue (.zero false) :=
  .finite ⟨by norm_num, le_rfl, by decide, Or.inr rfl⟩

theorem isLiteralValue_ofRatio (num : Nat) {den : Nat} (h : 0 < den) :
    IsLiteralValue (.ofRatio false num den) := by
  rcases Double.ofRatio_fits false num h with hinfinite | ⟨m, e, hfits, hfinite⟩
  · rw [hinfinite]
    exact .infinite
  · rw [hfinite]
    exact .finite hfits

theorem isLiteralValue_ofDecimal (digits : Nat) (power : Int) :
    IsLiteralValue (.ofDecimal false digits power) := by
  unfold Double.ofDecimal
  simp only
  split_ifs
  · exact isLiteralValue_zero
  · exact .infinite
  · exact isLiteralValue_zero
  · exact isLiteralValue_ofRatio _ one_pos
  · exact isLiteralValue_ofRatio _ (Nat.pow_pos (by norm_num))

theorem isLiteralValue_mulAddNat {d : Double} (h : IsLiteralValue d) (factor summand : Nat) :
    IsLiteralValue (d.mulAddNat factor summand) := by
  cases h with
  | infinite => exact .infinite
  | @finite m e hfits =>
    unfold Double.mulAddNat
    exact isLiteralValue_ofRatio _ (Double.magnitude_spec m e).1

theorem isLiteralValue_foldl (base : Nat) (digits : List Char) {d : Double}
    (h : IsLiteralValue d) : IsLiteralValue
      (digits.foldl (fun d c => d.mulAddNat base ((Json.hexValue? c).getD 0)) d) := by
  induction digits generalizing d with
  | nil => exact h
  | cons c digits ih => exact ih (isLiteralValue_mulAddNat h _ _)

theorem isLiteralValue_radixValue (base : Nat) (digits : List Char) :
    IsLiteralValue (radixValue base digits) := by
  unfold radixValue
  split_ifs
  · exact isLiteralValue_ofRatio _ one_pos
  · exact isLiteralValue_foldl base digits isLiteralValue_zero

/-- A kind of token that is a number only with a value that numerals have. -/
def LiteralKind (kind : TokenKind) : Prop := ∀ v, kind = .number v → IsLiteralValue v

theorem literalKind_number {v : Double} (h : IsLiteralValue v) : LiteralKind (.number v) := by
  rintro w hw
  obtain rfl := TokenKind.number.inj hw
  exact h

theorem literalKind_radixLiteral {base : Nat} {s rest : List Char} {kind : TokenKind}
    (h : radixLiteral base s = some (kind, rest)) : LiteralKind kind := by
  unfold radixLiteral at h
  obtain ⟨⟨digits, middle⟩, -, h⟩ := Option.bind_eq_some_iff.mp h
  simp only at h
  split at h
  · cases h
    exact nofun
  · cases h
    exact literalKind_number (isLiteralValue_radixValue base digits)

theorem literalKind_decimalTail {units s rest : List Char} {kind : TokenKind}
    (h : decimalTail units s = some (kind, rest)) : LiteralKind kind := by
  have hread : ∃ places middle power, ∃ last : List Char,
      exponentPart middle = some (power, last) ∧
        (TokenKind.number (.ofDecimal false (valueOf 10 (units ++ places))
          (power - (places.length : Int))), last) = (kind, rest) := by
    unfold decimalTail at h
    simp only at h
    split at h
    · obtain ⟨⟨places, middle⟩, -, h⟩ := Option.bind_eq_some_iff.mp h
      obtain ⟨⟨power, last⟩, hpower, h⟩ := Option.bind_eq_some_iff.mp h
      exact ⟨places, middle, power, last, hpower, Option.some.inj h⟩
    · obtain ⟨⟨places, middle⟩, -, h⟩ := Option.bind_eq_some_iff.mp h
      obtain ⟨⟨power, last⟩, hpower, h⟩ := Option.bind_eq_some_iff.mp h
      exact ⟨places, middle, power, last, hpower, Option.some.inj h⟩
  obtain ⟨places, middle, power, last, -, h⟩ := hread
  cases h
  exact literalKind_number (isLiteralValue_ofDecimal _ _)

theorem literalKind_oldOctal {s rest : List Char} {kind : TokenKind}
    (h : oldOctal s = some (kind, rest)) : LiteralKind kind := by
  unfold oldOctal at h
  simp only at h
  split_ifs at h
  · cases h
    exact literalKind_number (isLiteralValue_radixValue _ _)
  · exact literalKind_decimalTail h

theorem literalKind_numeralBody {s rest : List Char} {kind : TokenKind}
    (h : numeralBody s = some (kind, rest)) : LiteralKind kind := by
  unfold numeralBody at h
  split at h
  · exact literalKind_radixLiteral h
  · exact literalKind_radixLiteral h
  · exact literalKind_radixLiteral h
  · exact literalKind_radixLiteral h
  · exact literalKind_radixLiteral h
  · exact literalKind_radixLiteral h
  · cases h
    exact nofun
  · split_ifs at h
    · exact literalKind_oldOctal h
    · exact literalKind_decimalTail h
  · obtain ⟨⟨places, middle⟩, -, h⟩ := Option.bind_eq_some_iff.mp h
    obtain ⟨⟨power, last⟩, -, h⟩ := Option.bind_eq_some_iff.mp h
    cases h
    exact literalKind_number (isLiteralValue_ofDecimal _ _)
  · obtain ⟨⟨units, middle⟩, -, h⟩ := Option.bind_eq_some_iff.mp h
    simp only at h
    split at h
    · cases h
      exact nofun
    · exact literalKind_decimalTail h

/-- The value of every numeral is a standard double that is not negative, or infinity. -/
theorem isLiteralValue_of_numeral {s rest : List Char} {v : Double}
    (h : numeral s = some (.number v, rest)) : IsLiteralValue v := by
  unfold numeral at h
  obtain ⟨⟨kind, last⟩, hbody, h⟩ := Option.bind_eq_some_iff.mp h
  have hkind : kind = .number v := by
    simp only at h
    split at h
    · split_ifs at h
      exact (Prod.mk.inj (Option.some.inj h)).1
    · exact (Prod.mk.inj (Option.some.inj h)).1
  exact literalKind_numeralBody hbody v hkind

end ComponentLint.Script
