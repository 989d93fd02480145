import ComponentLint.Proofs.JsonGrammar
import Mathlib.Data.List.DropRight

/-!
# Reading what is written

Every way of writing a JSON value is read back as that value, and reading stops exactly behind it.
Numbers have no end of their own, so what follows a value must not go on with it: inside a text a
blank, a comma or a closing bracket follows (`Ends`).

The lemmas on members are about any kind of member and any reader of it, so that they serve for the
elements of arrays, the entries of objects and the settings of a configuration. The bound on the
number of members is met by the length of the text.
-/

namespace ComponentLint.Json

open Number (Double)

/-! ## Where texts begin and end -/

/-- The characters that end a member. -/
def IsStop (c : Char) : Prop := c = ',' ∨ c = ']' ∨ c = '\x7d'

theorem IsStop.comma : IsStop ',' := Or.inl rfl

theorem IsStop.bracket : IsStop ']' := Or.inr (Or.inl rfl)

theorem IsStop.brace : IsStop '\x7d' := Or.inr (Or.inr rfl)

theorem IsStop.not_blank {c : Char} (h : IsStop c) : isBlank c = false := by
  rcases h with rfl | rfl | rfl <;> rfl

/-- A value may end in front of `s`. -/
def Ends (s : List Char) : Prop := ∀ c, s.head? = some c → isBlank c = true ∨ IsStop c

/-- A text that begins with neither a blank nor a closing bracket. -/
def Begins (t : List Char) : Prop :=
  ∃ c rest, t = c :: rest ∧ isBlank c = false ∧ c ≠ ']' ∧ c ≠ '\x7d'

theorem Blanks.ends {blanks rest : List Char} {c : Char} (h : Blanks blanks)
    (hc : IsStop c) : Ends (blanks ++ c :: rest) := by
  intro d hd
  cases blanks with
  | nil =>
    cases hd
    exact Or.inr hc
  | cons b blanks =>
    cases hd
    exact Or.inl (h d List.mem_cons_self)

theorem skipBlanks_append {blanks : List Char} (h : Blanks blanks) (s : List Char) :
    skipBlanks (blanks ++ s) = skipBlanks s :=
  List.dropWhile_append_of_pos h

theorem Blanks.skipBlanks_eq {blanks : List Char} (h : Blanks blanks) : skipBlanks blanks = [] :=
  List.dropWhile_eq_nil_iff.mpr h

theorem Blanks.ends_nil {blanks : List Char} (h : Blanks blanks) : Ends blanks :=
  fun c hc => Or.inl (h c (List.mem_of_mem_head? hc))

theorem skipBlanks_cons {c : Char} (h : isBlank c = false) (s : List Char) :
    skipBlanks (c :: s) = c :: s :=
  List.dropWhile_cons_of_neg (by simp [h])

theorem Begins.skipBlanks_append {t : List Char} (h : Begins t) (s : List Char) :
    skipBlanks (t ++ s) = t ++ s := by
  obtain ⟨c, rest, rfl, hblank, -, -⟩ := h
  exact skipBlanks_cons hblank _

/-! ## Strings -/

/-- The number of a character is not that of half a character. -/
theorem not_half_toNat (c : Char) : c.toNat < 0xD800 ∨ 0xDFFF < c.toNat := by
  rcases c.valid with h | ⟨h, -⟩
  · exact Or.inl h
  · exact Or.inr h

/-- A written character is read as that character. -/
theorem stringTail_writtenChar {c : Char} {t : List Char} (h : WrittenChar c t)
    (done rest : List Char) : stringTail done (t ++ rest) = stringTail (c :: done) rest := by
  cases h with
  | plain hcontrol hquote hslash =>
    simp [stringTail, hslash, Nat.not_lt.mpr hcontrol]
  | letter h =>
    rename_i mark
    have hmark : mark ≠ 'u' := by
      rintro rfl
      cases h
    simp [stringTail, hmark, h]
  | number h =>
    -- no character has the number of half a character, so no other half is looked for
    have hhalf := not_half_toNat c
    simp only [List.cons_append, List.nil_append]
    rw [stringTail, h]
    simp only
    rw [if_neg (by omega), if_neg (by omega), Char.ofNat_toNat]
  | halves hhigh hhigh' hlow hlow' h =>
    rename_i high low
    have hcode : 0x10000 + (0xD800 + high - 0xD800) * 0x400 + (0xDC00 + low - 0xDC00) =
        c.toNat := by omega
    simp only [List.cons_append, List.nil_append]
    rw [stringTail, hhigh]
    simp only
    rw [if_pos (by omega), hlow]
    simp only
    rw [if_pos (by omega), hcode, Char.ofNat_toNat]

theorem stringTail_writtenChars {cs t : List Char} (h : WrittenChars cs t)
    (done rest : List Char) :
    stringTail done (t ++ '"' :: rest) = .ok (String.ofList (done.reverse ++ cs), rest) := by
  induction h generalizing done with
  | nil => rw [List.nil_append, stringTail, List.append_nil]
  | cons hc _ ih =>
    rw [List.append_assoc, stringTail_writtenChar hc, ih, List.reverse_cons, List.append_assoc,
      List.singleton_append]

/-- A written string is read as that string. -/
theorem stringTail_writtenString {s : String} {t : List Char} (h : WrittenString s t) :
    ∃ inner, t = '"' :: inner ∧
      ∀ rest, stringTail [] (inner ++ rest) = .ok (s, rest) := by
  obtain ⟨hs⟩ := h
  refine ⟨_, rfl, fun rest => ?_⟩
  rw [List.append_assoc, List.singleton_append, stringTail_writtenChars hs, List.reverse_nil,
    List.nil_append, String.ofList_toList]

/-! ## Numbers -/

theorem ne_of_isDigit {d c : Char} (hd : d.isDigit = true) (hc : c.isDigit = false) : d ≠ c := by
  rintro rfl
  rw [hd] at hc
  cases hc

/-- A text that does not go on with digits. -/
def NoDigit (s : List Char) : Prop := ∀ c, s.head? = some c → c.isDigit = false

theorem Digits.digits1_append {digits rest : List Char} (h : Digits digits) (hrest : NoDigit rest) :
    digits1 (digits ++ rest) = .ok (digits, rest) := by
  have htake : rest.takeWhile Char.isDigit = [] := by
    cases rest with
    | nil => rfl
    | cons c rest => exact List.takeWhile_cons_of_neg (by simp [hrest c rfl])
  have hdrop : rest.dropWhile Char.isDigit = rest := by
    cases rest with
    | nil => rfl
    | cons c rest => exact List.dropWhile_cons_of_neg (by simp [hrest c rfl])
  cases digits with
  | nil => exact absurd rfl h.nonempty
  | cons d digits =>
    have hdigits : ∀ c ∈ digits, c.isDigit = true := fun c hc => h.all c (List.mem_cons_of_mem d hc)
    rw [List.cons_append, digits1, if_pos (h.all d List.mem_cons_self),
      List.takeWhile_append_of_pos hdigits, List.dropWhile_append_of_pos hdigits, htake, hdrop,
      List.append_nil]

/-- A number may end in front of `s`. -/
structure NumberEnds (s : List Char) : Prop where
  noDigit : NoDigit s
  noPoint : s.head? ≠ some '.'
  noExponent : s.head? ≠ some 'e' ∧ s.head? ≠ some 'E'

theorem Ends.numberEnds {s : List Char} (h : Ends s) : NumberEnds s := by
  have hhead : ∀ c, s.head? = some c → c.isDigit = false ∧ c ≠ '.' ∧ c ≠ 'e' ∧ c ≠ 'E' := by
    intro c hc
    have hone : c ∈ [' ', '\n', '\t', '\r', ',', ']', '\x7d'] := by
      rcases h c hc with hblank | rfl | rfl | rfl
      · simp only [isBlank, Bool.or_eq_true, beq_iff_eq] at hblank
        rcases hblank with ((rfl | rfl) | rfl) | rfl <;> decide
      all_goals decide
    simp only [List.mem_cons, List.not_mem_nil, or_false] at hone
    rcases hone with rfl | rfl | rfl | rfl | rfl | rfl | rfl <;> decide
  exact ⟨fun c hc => (hhead c hc).1, fun hc => (hhead _ hc).2.1 rfl,
    fun hc => (hhead _ hc).2.2.1 rfl, fun hc => (hhead _ hc).2.2.2 rfl⟩

/-- An exponent, or where none is written nothing. -/
theorem exponent_append (e : Option Exponent) {rest : List Char} (hrest : NumberEnds rest) :
    exponent (e.elim [] Exponent.text ++ rest) = .ok (e.map Exponent.value, rest) := by
  cases e with
  | none =>
    cases rest with
    | nil => rfl
    | cons c rest =>
      have hc : ¬ (c == 'e' || c == 'E') = true := by
        have := hrest.noExponent
        simpa using this
      unfold exponent
      rw [Option.elim_none, List.nil_append]
      simp only [if_neg hc]
      rfl
  | some e =>
    obtain ⟨mark, sign, digits, isMark, isDigits⟩ := e
    have hmark : (mark == 'e' || mark == 'E') = true := by simpa using isMark
    have hread := isDigits.digits1_append hrest.noDigit
    simp only [Option.elim_some, Exponent.text, Exponent.signText, List.cons_append, exponent,
      if_pos hmark, Option.map_some, Exponent.value]
    rcases sign with _ | isNegative
    · cases digits with
      | nil => exact absurd rfl isDigits.nonempty
      | cons d digits =>
        have hminus : d ≠ '-' := ne_of_isDigit (isDigits.all d List.mem_cons_self) rfl
        have hplus : d ≠ '+' := ne_of_isDigit (isDigits.all d List.mem_cons_self) rfl
        rw [List.cons_append] at hread
        simp [hminus, hplus, hread, Except.map]
    · cases isNegative <;> simp [hread, Except.map]

/-- What may follow the places of a number: an exponent, or its end. -/
theorem noDigit_exponent_append (e : Option Exponent) {rest : List Char}
    (hrest : NumberEnds rest) :
    NoDigit (e.elim [] Exponent.text ++ rest) ∧
      (e.elim [] Exponent.text ++ rest).head? ≠ some '.' := by
  cases e with
  | none => exact ⟨hrest.noDigit, hrest.noPoint⟩
  | some e =>
    have hhead : ((some e).elim [] Exponent.text ++ rest).head? = some e.mark := rfl
    unfold NoDigit
    rw [hhead]
    constructor
    · rintro c ⟨rfl⟩
      rcases e.isMark with h | h <;> rw [h] <;> decide
    · rcases e.isMark with h | h <;> rw [h] <;> decide

/-- Places behind a point, or where none are written nothing. -/
theorem fraction_append {places : Option (List Char)} (h : ∀ digits ∈ places, Digits digits)
    {rest : List Char} (hrest : NoDigit rest ∧ rest.head? ≠ some '.') :
    fraction (places.elim [] ('.' :: ·) ++ rest) = .ok (places, rest) := by
  cases places with
  | none =>
    rw [Option.elim_none, List.nil_append]
    unfold fraction
    split
    · exact absurd rfl hrest.2
    · rfl
  | some digits =>
    rw [Option.elim_some, List.cons_append, fraction, (h digits rfl).digits1_append hrest.1]
    rfl

/-- The value of digits behind those of a number. -/
def digitsFrom (n : Nat) (digits : List Char) : Nat :=
  digits.foldl (fun n c => 10 * n + (c.toNat - '0'.toNat)) n

/-- Digits do not make a number smaller. -/
theorem le_digitsFrom (n : Nat) (digits : List Char) : n ≤ digitsFrom n digits := by
  induction digits generalizing n with
  | nil => exact Nat.le_refl n
  | cons c digits ih =>
    have hnext : n ≤ 10 * n + (c.toNat - '0'.toNat) := by omega
    exact Nat.le_trans hnext (ih _)

/-- All digits count if the number stays below the bound. -/
theorem takeDigits_of_lt {digits : List Char} {n : Nat}
    (h : digitsFrom n digits < significandBound) :
    takeDigits n digits = (digitsFrom n digits, []) := by
  induction digits generalizing n with
  | nil => rfl
  | cons c digits ih =>
    have hnext := le_digitsFrom (10 * n + (c.toNat - '0'.toNat)) digits
    rw [takeDigits, if_pos (Nat.lt_of_le_of_lt hnext h)]
    exact ih h

/-- Some digits do not count if the number reaches the bound. -/
theorem takeDigits_of_le {digits : List Char} {n : Nat} (hn : n < significandBound)
    (h : significandBound ≤ digitsFrom n digits) : (takeDigits n digits).2 ≠ [] := by
  induction digits generalizing n with
  | nil => exact absurd hn (Nat.not_lt.mpr h)
  | cons c digits ih =>
    rw [takeDigits]
    by_cases hnext : 10 * n + (c.toNat - '0'.toNat) < significandBound
    · rw [if_pos hnext]
      exact ih hnext h
    · rw [if_neg hnext]
      exact List.cons_ne_nil c digits

/-- Whole numbers are those of which all digits count and nothing else is written. -/
theorem Numeral.isWhole_iff (n : Numeral) :
    n.IsWhole ↔ n.places = none ∧ n.exponent = none ∧ n.keptUnits.2 = [] := by
  have hkept : Double.digitsValue n.units < significandBound ↔ n.keptUnits.2 = [] := by
    constructor
    · intro h
      rw [keptUnits, takeDigits_of_lt h]
    · intro h
      by_contra hlarge
      exact takeDigits_of_le (by decide) (Nat.not_lt.mp hlarge) h
  rw [IsWhole, hkept]

/-- A written number is read as its value. -/
theorem numberTail_body {n : Numeral} {v : JsonNumber} (h : n.value? = some v) {rest : List Char}
    (hrest : NumberEnds rest) : numberTail n.isNegative (n.body ++ rest) = .ok (v, rest) := by
  have htail := noDigit_exponent_append n.exponent hrest
  have hunits : digits1 (n.body ++ rest) =
      .ok (n.units, n.places.elim [] ('.' :: ·) ++ (n.exponent.elim [] Exponent.text ++ rest)) := by
    rw [Numeral.body, List.append_assoc, List.append_assoc]
    refine n.units_digits.digits1_append ?_
    cases n.places with
    | none => exact htail.1
    | some digits =>
      rintro c ⟨rfl⟩
      rfl
  have hzero : ¬ (n.units.length > 1 && n.units.head? == some '0') = true := by
    simp only [Bool.and_eq_true, decide_eq_true_eq, beq_iff_eq]
    rintro ⟨hlength, hhead⟩
    exact absurd (n.units_zero hhead) (by omega)
  have hwhole : (n.places.isNone && (n.exponent.map Exponent.value).isNone &&
      (takeDigits 0 n.units).2.isEmpty) = true ↔ n.IsWhole := by
    rw [n.isWhole_iff, Numeral.keptUnits]
    simp [and_assoc]
  unfold numberTail
  simp only [hunits, bind, Except.bind, if_neg hzero, fraction_append n.places_digits htail,
    exponent_append n.exponent hrest]
  unfold Numeral.value? at h
  by_cases hn : n.IsWhole
  · rw [if_pos hn] at h
    rw [if_pos (hwhole.mpr hn), ← Option.some.inj h, takeDigits_of_lt hn.2.2]
    rfl
  · rw [if_neg hn] at h
    rw [if_neg (mt hwhole.mp hn)]
    have hfloat : float n.isNegative n.kept.1 n.power = .ok v := by
      cases hresult : float n.isNegative n.kept.1 n.power with
      | error fault =>
        rw [hresult] at h
        cases h
      | ok v' =>
        rw [hresult] at h
        rw [Option.some.inj h]
    simp only [Numeral.power, Numeral.kept, Numeral.keptUnits] at hfloat
    rw [hfloat]
    rfl

/-! ## Scalars -/

theorem literalTail_append {α : Type} (value : α) (letters rest : List Char) :
    literalTail value letters (letters ++ rest) = .ok (value, rest) := by
  induction letters with
  | nil => rfl
  | cons c letters ih =>
    rw [List.cons_append, literalTail, if_pos rfl]
    exact ih

theorem Numeral.exists_body_eq (n : Numeral) : ∃ d more, n.body = d :: more ∧ d.isDigit = true := by
  cases hunits : n.units with
  | nil => exact absurd hunits n.units_digits.nonempty
  | cons d units =>
    have hd : d.isDigit = true := n.units_digits.all d (by simp [hunits])
    rw [body, hunits]
    exact ⟨d, _, rfl, hd⟩

theorem scalar?_of_isDigit {d : Char} (hd : d.isDigit = true) (rest : List Char) :
    scalar? (d :: rest) =
      some ((numberTail false (d :: rest)).map fun (n, rest) => (.number n, rest)) := by
  rw [scalar?, if_pos hd]
  all_goals exact ne_of_isDigit hd rfl

/-- A written scalar is read as that scalar. -/
theorem WrittenScalar.scalar?_append {v : Json} {t : List Char} (h : WrittenScalar v t)
    {rest : List Char} (hrest : Ends rest) : scalar? (t ++ rest) = some (.ok (v, rest)) := by
  cases h with
  | null => exact congrArg some (literalTail_append Json.null "ull".toList rest)
  | bool b =>
    cases b with
    | true => exact congrArg some (literalTail_append (Json.bool true) "rue".toList rest)
    | false => exact congrArg some (literalTail_append (Json.bool false) "alse".toList rest)
  | @number n v h =>
    have hread := numberTail_body h hrest.numberEnds
    unfold Numeral.text
    cases hsign : n.isNegative with
    | true =>
      rw [hsign] at hread
      rw [if_pos rfl, List.cons_append, scalar?, hread]
      rfl
    | false =>
      obtain ⟨d, more, hbody, hd⟩ := n.exists_body_eq
      rw [hsign, hbody, List.cons_append] at hread
      rw [if_neg (by decide), hbody, List.cons_append, scalar?_of_isDigit hd, hread]
      rfl
  | string h =>
    obtain ⟨inner, rfl, hread⟩ := stringTail_writtenString h
    rw [List.cons_append, scalar?, hread]
    rfl

/-- A written scalar begins with neither a blank nor a bracket. -/
theorem WrittenScalar.begins {v : Json} {t : List Char} (h : WrittenScalar v t) : Begins t := by
  cases h with
  | null => exact ⟨'n', _, rfl, rfl, by decide, by decide⟩
  | bool b =>
    cases b with
    | true => exact ⟨'t', _, rfl, rfl, by decide, by decide⟩
    | false => exact ⟨'f', _, rfl, rfl, by decide, by decide⟩
  | @number n v h =>
    unfold Numeral.text
    split_ifs
    · exact ⟨'-', _, rfl, rfl, by decide, by decide⟩
    · obtain ⟨d, more, hbody, hd⟩ := n.exists_body_eq
      have hne : ∀ c : Char, c.isDigit = false → d ≠ c := fun c => ne_of_isDigit hd
      have hblank : isBlank d = false := by
        simp [isBlank, hne ' ' rfl, hne '\n' rfl, hne '\t' rfl, hne '\r' rfl]
      exact ⟨d, more, hbody, hblank, hne _ rfl, hne _ rfl⟩
  | string h =>
    obtain ⟨inner, rfl, -⟩ := stringTail_writtenString h
    exact ⟨'"', inner, rfl, rfl, by decide, by decide⟩

/-! ## Members -/

section Members

variable {α : Type} {P : α → List Char → Prop}

/-- A reader reads every way of writing a member, up to a length, and stops behind it. -/
structure Reads (read : List Char → Except JsonFault (α × List Char))
    (P : α → List Char → Prop) (limit : Nat) : Prop where
  /-- What is written can be told from blanks and closing brackets. -/
  begins : ∀ {a t}, P a t → Begins t
  /-- What is written is read, and nothing more. -/
  reads : ∀ {a t}, P a t → t.length ≤ limit → ∀ {rest}, Ends rest →
    read (t ++ rest) = .ok (a, rest)

/-- Blanks around a member do not matter. -/
theorem Reads.padded {read : List Char → Except JsonFault (α × List Char)} {limit : Nat}
    (hP : Reads read P limit) {a : α} {t : List Char} (h : P a t) (hlimit : t.length ≤ limit)
    {before after : List Char} (hbefore : Blanks before) (hafter : Blanks after) {c : Char}
    (hc : IsStop c) (rest : List Char) :
    read (skipBlanks (before ++ (t ++ (after ++ c :: rest)))) = .ok (a, after ++ c :: rest) := by
  rw [skipBlanks_append hbefore, (hP.begins h).skipBlanks_append]
  exact hP.reads h hlimit (hafter.ends hc)

theorem Begins.ne_bracket {s : List Char} (h : Begins s) (rest : List Char) : s ≠ ']' :: rest := by
  obtain ⟨c, more, rfl, -, hc, -⟩ := h
  exact fun heq => hc (List.cons.inj heq).1

theorem Begins.ne_brace {s : List Char} (h : Begins s) (rest : List Char) : s ≠ '\x7d' :: rest := by
  obtain ⟨c, more, rfl, -, -, hc⟩ := h
  exact fun heq => hc (List.cons.inj heq).1

theorem Begins.length_pos {t : List Char} (h : Begins t) : 0 < t.length := by
  obtain ⟨c, rest, rfl, -⟩ := h
  exact Nat.zero_lt_succ _

theorem separator_done {closing : Char} {blanks : List Char} (h : Blanks blanks)
    (hc : IsStop closing) (rest : List Char) :
    separator closing (blanks ++ closing :: rest) = .ok (.done, rest) := by
  rw [separator, skipBlanks_append h, skipBlanks_cons hc.not_blank]
  exact if_pos rfl

theorem separator_more {closing : Char} {blanks : List Char} (h : Blanks blanks)
    (hc : ',' ≠ closing) (rest : List Char) :
    separator closing (blanks ++ ',' :: rest) = .ok (.more, rest) := by
  rw [separator, skipBlanks_append h, skipBlanks_cons rfl]
  simp only [if_neg hc, if_true]

/-- Elements that are read one by one are read as a whole. -/
theorem elements_append {element : JsonRead Json} {P : Json → List Char → Prop} {limit : Nat}
    (hP : Reads element P limit) {vs : List Json} {t : List Char} (h : Separated P vs t)
    (hlimit : t.length ≤ limit) {fuel : Nat} (hfuel : t.length ≤ fuel) (done : List Json)
    (rest : List Char) :
    elements element fuel done (t ++ ']' :: rest) = .ok (done.reverse ++ vs, rest) := by
  induction h generalizing fuel done with
  | last h =>
    obtain ⟨hbefore, ht, hafter⟩ := h
    simp only [List.length_append] at hlimit hfuel
    have hread := hP.padded ht (by omega) hbefore hafter .bracket rest
    have hpos := (hP.begins ht).length_pos
    cases fuel with
    | zero => omega
    | succ fuel =>
      simp only [List.append_assoc, elements, bind, Except.bind, hread,
        separator_done hafter .bracket, List.reverse_cons]
      rfl
  | more h _ ih =>
    obtain ⟨hbefore, ht, hafter⟩ := h
    simp only [List.length_append, List.length_cons] at hlimit hfuel
    have hread := hP.padded ht (by omega) hbefore hafter .comma
    cases fuel with
    | zero => omega
    | succ fuel =>
      simp only [List.append_assoc, List.cons_append, elements, bind, Except.bind, hread,
        separator_more hafter (by decide : ',' ≠ ']')]
      -- one is taken off the bound, and at least the comma off the text
      rw [ih (by omega) (by omega), List.reverse_cons, List.append_assoc]
      rfl

/-- A key and the colon behind it are read up to the value. -/
theorem exists_of_padded_entry {name : String} {a : α} {t : List Char}
    (h : Padded (WrittenEntry P) (name, a) t) :
    ∃ u before after, P a u ∧ u.length < t.length ∧ Blanks before ∧ Blanks after ∧
      ∀ rest, ∃ mid, key (t ++ rest) = .ok (name, mid) ∧
        colon mid = .ok (before ++ (u ++ (after ++ rest))) := by
  obtain ⟨hbefore, ⟨hkey, hgap, hblanks, hu⟩, hafter⟩ := h
  rename_i before after k u gap blanks
  obtain ⟨inner, rfl, hread⟩ := stringTail_writtenString hkey
  refine ⟨u, blanks, after, hu, ?_, hblanks, hafter, fun rest =>
    ⟨gap ++ ':' :: (blanks ++ (u ++ (after ++ rest))), ?_, ?_⟩⟩
  · simp only [List.length_append, List.length_cons]
    omega
  · rw [key]
    simp only [List.append_assoc, List.cons_append, skipBlanks_append hbefore]
    rw [skipBlanks_cons rfl]
    exact hread _
  · rw [colon, skipBlanks_append hgap, skipBlanks_cons rfl]
    rfl

/-- Entries whose values are read one by one are read as a whole. -/
theorem entries_append {element : JsonRead Json} {P : Json → List Char → Prop} {limit : Nat}
    (hP : Reads element P limit) {es : List (String × Json)} {t : List Char}
    (h : Separated (WrittenEntry P) es t) (hlimit : t.length ≤ limit) {fuel : Nat}
    (hfuel : t.length ≤ fuel) (done : List (String × Json)) (rest : List Char) :
    entries element fuel done (t ++ '\x7d' :: rest) = .ok (done.reverse ++ es, rest) := by
  induction h generalizing fuel done with
  | @last e t h =>
    obtain ⟨u, before, after, hu, hlength, hbefore, hafter, hkey⟩ := exists_of_padded_entry h
    obtain ⟨mid, hkey, hcolon⟩ := hkey ('\x7d' :: rest)
    have hread := hP.padded hu (by omega) hbefore hafter .brace rest
    cases fuel with
    | zero => omega
    | succ fuel =>
      simp only [entries, bind, Except.bind, hkey, hcolon, hread,
        separator_done hafter .brace, List.reverse_cons]
      rfl
  | @more e t es ts h _ ih =>
    obtain ⟨u, before, after, hu, hlength, hbefore, hafter, hkey⟩ := exists_of_padded_entry h
    obtain ⟨mid, hkey, hcolon⟩ := hkey (',' :: (ts ++ '\x7d' :: rest))
    simp only [List.length_append, List.length_cons] at hlimit hfuel
    have hread := hP.padded hu (by omega) hbefore hafter .comma
    cases fuel with
    | zero => omega
    | succ fuel =>
      simp only [List.append_assoc, List.cons_append, entries, bind, Except.bind, hkey, hcolon,
        hread, separator_more hafter (by decide : ',' ≠ '\x7d')]
      rw [ih (by omega) (by omega), List.reverse_cons, List.append_assoc]
      rfl

end Members

/-! ## Brackets

A reader looks behind an opening bracket for the closing one before it reads members, and for that
skips the blanks that the first member would have skipped. -/

theorem skipBlanks_skipBlanks (s : List Char) : skipBlanks (skipBlanks s) = skipBlanks s :=
  List.dropWhile_idempotent ..

/-- Written members begin, after blanks, with neither a blank nor a closing bracket. -/
theorem Separated.begins {α : Type} {P : α → List Char → Prop} (hP : ∀ {a t}, P a t → Begins t)
    {as : List α} {t : List Char} (h : Separated P as t) (rest : List Char) :
    Begins (skipBlanks (t ++ rest)) := by
  have hpadded : ∀ {a t}, Padded P a t → ∀ rest, Begins (skipBlanks (t ++ rest)) := by
    rintro a t ⟨hbefore, ht, -⟩ rest
    obtain ⟨c, more, rfl, hc⟩ := hP ht
    simp only [List.append_assoc, skipBlanks_append hbefore, List.cons_append]
    rw [skipBlanks_cons hc.1]
    exact ⟨c, _, rfl, hc⟩
  cases h with
  | last h => exact hpadded h rest
  | more h _ =>
    rw [List.append_assoc]
    exact hpadded h _

theorem elements_skipBlanks (element : JsonRead Json) (fuel : Nat) (done : List Json)
    (s : List Char) :
    elements element fuel done (skipBlanks s) = elements element fuel done s := by
  cases fuel with
  | zero => rfl
  | succ fuel => rw [elements, elements, skipBlanks_skipBlanks]

theorem key_skipBlanks (s : List Char) : key (skipBlanks s) = key s := by
  rw [key, key, skipBlanks_skipBlanks]

theorem entries_skipBlanks (element : JsonRead Json) (fuel : Nat) (done : List (String × Json))
    (s : List Char) :
    entries element fuel done (skipBlanks s) = entries element fuel done s := by
  cases fuel with
  | zero => rfl
  | succ fuel => rw [entries, entries, key_skipBlanks]

/-- A written array is read after its opening bracket. -/
theorem arrayTail_append {element : JsonRead Json} {P : Json → List Char → Prop} {fuel : Nat}
    (hP : Reads element P fuel) {vs : List Json} {t : List Char} (h : Bracketed '[' ']' P vs t)
    (hfuel : t.length ≤ fuel) :
    ∃ inner, t = '[' :: inner ∧
      ∀ rest, arrayTail element fuel (inner ++ rest) = .ok (vs, rest) := by
  cases h with
  | empty h =>
    refine ⟨_, rfl, fun rest => ?_⟩
    rw [List.append_assoc, arrayTail, skipBlanks_append h]
    rfl
  | members h =>
    simp only [List.length_cons, List.length_append] at hfuel
    refine ⟨_, rfl, fun rest => ?_⟩
    rw [List.append_assoc, List.singleton_append]
    have hbegins := h.begins hP.begins (']' :: rest)
    unfold arrayTail
    split
    · next heq => exact absurd heq (hbegins.ne_bracket _)
    · rw [elements_skipBlanks, elements_append hP h (by omega) (by omega)]
      rfl

theorem WrittenEntry.begins {α : Type} {P : α → List Char → Prop} {e : String × α}
    {t : List Char} (h : WrittenEntry P e t) : Begins t := by
  obtain ⟨hkey, -, -, -⟩ := h
  obtain ⟨inner, rfl, -⟩ := stringTail_writtenString hkey
  exact ⟨'"', _, rfl, rfl, by decide, by decide⟩

/-- A written object is read after its opening brace. -/
theorem objectTail_append {element : JsonRead Json} {P : Json → List Char → Prop} {fuel : Nat}
    (hP : Reads element P fuel) {es : List (String × Json)} {t : List Char}
    (h : Bracketed '\x7b' '\x7d' (WrittenEntry P) es t) (hfuel : t.length ≤ fuel) :
    ∃ inner, t = '\x7b' :: inner ∧
      ∀ rest, objectTail element fuel (inner ++ rest) = .ok (es, rest) := by
  cases h with
  | empty h =>
    refine ⟨_, rfl, fun rest => ?_⟩
    rw [List.append_assoc, objectTail, skipBlanks_append h]
    rfl
  | members h =>
    simp only [List.length_cons, List.length_append] at hfuel
    refine ⟨_, rfl, fun rest => ?_⟩
    rw [List.append_assoc, List.singleton_append]
    have hbegins := h.begins WrittenEntry.begins ('\x7d' :: rest)
    unfold objectTail
    split
    · next heq => exact absurd heq (hbegins.ne_brace _)
    · rw [entries_skipBlanks, entries_append hP h (by omega) (by omega)]
      rfl

/-! ## Values -/

/-- A written value begins with neither a blank nor a closing bracket. -/
theorem Written.begins {depth : Nat} {v : Json} {t : List Char} (h : Written depth v t) :
    Begins t := by
  have hbracket : ∀ {α : Type} {P : α → List Char → Prop} {opening closing as},
      isBlank opening = false ∧ opening ≠ ']' ∧ opening ≠ '\x7d' →
      Bracketed opening closing P as t → Begins t := by
    rintro α P opening closing as hopening (_ | _)
    · exact ⟨opening, _, rfl, hopening⟩
    · exact ⟨opening, _, rfl, hopening⟩
  cases depth with
  | zero => exact WrittenScalar.begins h
  | succ depth =>
    rcases h with h | ⟨elements, -, h⟩ | ⟨entries, -, h⟩
    · exact h.begins
    · exact hbracket (by decide) h
    · exact hbracket (by decide) h

/-- Every way of writing a value is read as that value, and reading stops behind it. -/
theorem reads_written (fuel depth : Nat) : Reads (value fuel depth) (Written depth) fuel := by
  refine ⟨Written.begins, ?_⟩
  induction depth with
  | zero =>
    intro v t h _ rest hrest
    rw [value, WrittenScalar.scalar?_append h hrest]
    rfl
  | succ depth ih =>
    intro v t h hlimit rest hrest
    have hP : Reads (value fuel depth) (Written depth) fuel := ⟨Written.begins, ih⟩
    rcases h with h | ⟨elements, rfl, h⟩ | ⟨entries, rfl, h⟩
    · unfold value
      rw [h.scalar?_append hrest]
    · obtain ⟨inner, rfl, hread⟩ := arrayTail_append hP h hlimit
      rw [List.cons_append, value, hread]
      rfl
    · obtain ⟨inner, rfl, hread⟩ := objectTail_append hP h hlimit
      rw [List.cons_append, value, hread]
      · rfl
      · decide

/-- Every text of a value, with blanks around it, is read as that value. -/
theorem parse_of_written {v : Json} {text : String}
    (h : Padded (Written maxDepth) v text.toList) : parse text = .ok v := by
  generalize htext : text.toList = s at h
  obtain ⟨hbefore, ht, hafter⟩ := h
  rename_i before t after
  have hread : value ((before ++ (t ++ after)).length + 1) maxDepth
      (skipBlanks (before ++ (t ++ after))) = .ok (v, after) := by
    rw [skipBlanks_append hbefore, ht.begins.skipBlanks_append]
    refine (reads_written _ maxDepth).reads ht ?_ hafter.ends_nil
    simp only [List.length_append]
    omega
  simp only [parse, htext, hread, bind, Except.bind, hafter.skipBlanks_eq]
  rfl

end ComponentLint.Json
