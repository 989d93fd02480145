import ComponentLint.Span
import Mathlib.Data.List.Basic

/-!
# Texts as bytes

A text is read by its bytes in many places, and a part of it is taken by the offsets of its first byte
and of the byte behind it. In UTF-8 an ASCII character is a byte of its own, and no byte of any other
character looks like one. A part can be taken exactly if its ends are in order, in range and where
characters begin or the text ends (`isSome_cut?_iff`), and then it has exactly the bytes between them.
-/

namespace ComponentLint

/-- The bytes of a text in UTF-8. -/
def utf8 (text : List Char) : List UInt8 := text.flatMap String.utf8EncodeChar

@[simp] theorem utf8_nil : utf8 [] = [] := rfl

theorem utf8_cons (c : Char) (text : List Char) :
    utf8 (c :: text) = String.utf8EncodeChar c ++ utf8 text := List.flatMap_cons

@[simp] theorem utf8_append (front back : List Char) :
    utf8 (front ++ back) = utf8 front ++ utf8 back := List.flatMap_append

theorem utf8_eq_toByteArray (text : List Char) :
    utf8 text = (String.ofList text).toByteArray.data.toList := by
  rw [String.toByteArray_ofList, List.utf8Encode, List.toList_data_toByteArray, utf8]

@[simp] theorem length_utf8 (text : List Char) : (utf8 text).length = byteLength text := by
  induction text with
  | nil => rfl
  | cons c text ih =>
    rw [utf8_cons, List.length_append, String.length_utf8EncodeChar, ih, byteLength]

@[simp] theorem byteLength_append (front back : List Char) :
    byteLength (front ++ back) = byteLength front + byteLength back := by
  rw [← length_utf8, utf8_append, List.length_append, length_utf8, length_utf8]

theorem byteLength_eq_zero {text : List Char} (h : byteLength text = 0) : text = [] := by
  cases text with
  | nil => rfl
  | cons c text =>
    have hpos := c.utf8Size_pos
    rw [byteLength] at h
    omega

/-! ## ASCII -/

/-- The characters that take one byte, which is their code. -/
def IsAscii (c : Char) : Prop := c.toNat < 128

instance (c : Char) : Decidable (IsAscii c) := inferInstanceAs (Decidable (c.toNat < 128))

theorem ne_of_not_isAscii {c mark : Char} (h : ¬ IsAscii c) (hmark : IsAscii mark) : c ≠ mark := by
  rintro rfl
  exact h hmark

theorem IsAscii.utf8EncodeChar {c : Char} (h : IsAscii c) :
    String.utf8EncodeChar c = [c.toUInt8] := by
  have hle : c.val ≤ 127 := Nat.le_of_lt_succ h
  exact String.utf8EncodeChar_eq_singleton (Char.utf8Size_eq_one_iff.mpr hle)

theorem IsAscii.utf8Size {c : Char} (h : IsAscii c) : c.utf8Size = 1 := by
  rw [← String.length_utf8EncodeChar, h.utf8EncodeChar, List.length_singleton]

theorem IsAscii.utf8_cons {c : Char} (h : IsAscii c) (text : List Char) :
    utf8 (c :: text) = c.toUInt8 :: utf8 text := by
  rw [ComponentLint.utf8_cons, h.utf8EncodeChar, List.singleton_append]

theorem toNat_ofUInt8 (byte : UInt8) : (Char.ofUInt8 byte).toNat = byte.toNat := rfl

theorem IsAscii.ofUInt8_toUInt8 {c : Char} (h : IsAscii c) : Char.ofUInt8 c.toUInt8 = c := by
  apply Char.toNat_inj.mp
  have hcode : c.toUInt8.toNat = c.toNat % 256 := UInt32.toNat_toUInt8 c.val
  have hlt : c.toNat < 128 := h
  rw [toNat_ofUInt8, hcode]
  omega

theorem not_isAscii_ofNat {a m k : Nat} (hm : 0 < m) (hk : 128 ≤ k) (h : m + k ≤ 256) :
    ¬ IsAscii (Char.ofUInt8 (UInt8.ofNat (a % m + k))) := by
  have hlt := Nat.mod_lt a hm
  rw [IsAscii, toNat_ofUInt8, UInt8.toNat_ofNat']
  omega

/-- No byte of a longer character is an ASCII character. -/
theorem not_isAscii_of_mem {c : Char} (h : ¬ IsAscii c) {byte : UInt8}
    (hbyte : byte ∈ String.utf8EncodeChar c) : ¬ IsAscii (Char.ofUInt8 byte) := by
  have hlong : ¬ c.val.toNat ≤ 127 := fun hle => h (Nat.lt_succ_of_le hle)
  simp only [String.utf8EncodeChar, if_neg hlong] at hbyte
  split_ifs at hbyte <;> simp only [List.mem_cons, List.not_mem_nil, or_false] at hbyte
  · rcases hbyte with rfl | rfl <;> exact not_isAscii_ofNat (by omega) (by omega) (by omega)
  · rcases hbyte with rfl | rfl | rfl <;> exact not_isAscii_ofNat (by omega) (by omega) (by omega)
  · rcases hbyte with rfl | rfl | rfl | rfl <;>
      exact not_isAscii_ofNat (by omega) (by omega) (by omega)

/-- A byte of a text that is an ASCII character is all there is of this character. -/
theorem mem_utf8EncodeChar_iff {mark c : Char} (hmark : IsAscii mark) :
    mark.toUInt8 ∈ String.utf8EncodeChar c ↔ c = mark := by
  constructor
  · intro hmem
    have hc : IsAscii c := by
      by_contra hc
      have hnot := not_isAscii_of_mem hc hmem
      rw [hmark.ofUInt8_toUInt8] at hnot
      exact hnot hmark
    rw [hc.utf8EncodeChar, List.mem_singleton] at hmem
    rw [← hc.ofUInt8_toUInt8, ← hmem, hmark.ofUInt8_toUInt8]
  · rintro rfl
    rw [hmark.utf8EncodeChar]
    exact List.mem_singleton_self _

theorem IsAscii.toUInt8_inj {c mark : Char} (hc : IsAscii c) (hmark : IsAscii mark) :
    c.toUInt8 = mark.toUInt8 ↔ c = mark := by
  rw [← mem_utf8EncodeChar_iff hmark, hc.utf8EncodeChar, List.mem_singleton, eq_comm]

theorem ne_toUInt8 {byte : UInt8} (h : ¬ IsAscii (Char.ofUInt8 byte)) {mark : Char}
    (hmark : IsAscii mark) : byte ≠ mark.toUInt8 := by
  have hne := ne_of_not_isAscii h hmark
  rintro rfl
  exact hne hmark.ofUInt8_toUInt8

theorem utf8EncodeChar_ne_nil (c : Char) : String.utf8EncodeChar c ≠ [] := by
  rw [← List.length_pos_iff, String.length_utf8EncodeChar]
  exact c.utf8Size_pos

theorem head?_utf8 {mark : Char} (hmark : IsAscii mark) (text : List Char) :
    (utf8 text).head? = some mark.toUInt8 ↔ text.head? = some mark := by
  cases text with
  | nil => simp
  | cons c text =>
    have hhead : (utf8 (c :: text)).head? = (String.utf8EncodeChar c).head? := by
      rw [utf8_cons, List.head?_append_of_ne_nil _ (utf8EncodeChar_ne_nil c)]
    rw [hhead, List.head?_cons, Option.some.injEq]
    constructor
    · intro h
      exact (mem_utf8EncodeChar_iff hmark).mp (List.mem_of_head? h)
    · rintro rfl
      rw [hmark.utf8EncodeChar, List.head?_cons]

/-! ## Parts of a text -/

theorem dropBytes_append (front back : List Char) :
    dropBytes (front ++ back) (byteLength front) = some back := by
  induction front with
  | nil => rw [List.nil_append, byteLength, dropBytes]
  | cons c front ih =>
    obtain ⟨n, hn⟩ := Nat.exists_eq_add_one.mpr c.utf8Size_pos
    rw [List.cons_append, byteLength, hn, Nat.add_right_comm, dropBytes, if_pos (by omega), ← ih]
    congr 1
    omega

theorem takeBytes_append (front back : List Char) :
    takeBytes (front ++ back) (byteLength front) = some front := by
  induction front with
  | nil => rw [List.nil_append, byteLength, takeBytes]
  | cons c front ih =>
    obtain ⟨n, hn⟩ := Nat.exists_eq_add_one.mpr c.utf8Size_pos
    have hrest : n + byteLength front + 1 - c.utf8Size = byteLength front := by omega
    rw [List.cons_append, byteLength, hn, Nat.add_right_comm, takeBytes, if_pos (by omega), hrest, ih]
    rfl

theorem dropBytes_eq_some_iff {text back : List Char} {n : Nat} :
    dropBytes text n = some back ↔ ∃ front, text = front ++ back ∧ byteLength front = n := by
  constructor
  · intro h
    fun_induction dropBytes text n with
    | case1 text =>
      cases h
      exact ⟨[], rfl, rfl⟩
    | case2 n => cases h
    | case3 c text n hle ih =>
      obtain ⟨front, rfl, hfront⟩ := ih h
      exact ⟨c :: front, rfl, by rw [byteLength, hfront, Nat.add_sub_of_le hle]⟩
    | case4 c text n hlt => cases h
  · rintro ⟨front, rfl, rfl⟩
    exact dropBytes_append front back

theorem takeBytes_eq_some_iff {text front : List Char} {n : Nat} :
    takeBytes text n = some front ↔ ∃ back, text = front ++ back ∧ byteLength front = n := by
  constructor
  · intro h
    fun_induction takeBytes text n generalizing front with
    | case1 text =>
      cases h
      exact ⟨text, rfl, rfl⟩
    | case2 n => cases h
    | case3 c text n hle ih =>
      obtain ⟨front, hfront, rfl⟩ := Option.map_eq_some_iff.mp h
      obtain ⟨back, rfl, hback⟩ := ih hfront
      exact ⟨back, rfl, by rw [byteLength, hback, Nat.add_sub_of_le hle]⟩
    | case4 c text n hlt => cases h
  · rintro ⟨back, rfl, rfl⟩
    exact takeBytes_append front back

/-- A part that is cut out stands where the span says. -/
theorem Span.cut?_eq_some_iff {span : Span} {text part : List Char} :
    span.cut? text = some part ↔ ∃ front back, text = front ++ (part ++ back) ∧
      byteLength front = span.start ∧ byteLength (front ++ part) = span.stop := by
  rw [Span.cut?]
  split_ifs with hordered
  · rw [Option.bind_eq_some_iff]
    constructor
    · rintro ⟨rest, hdrop, htake⟩
      obtain ⟨front, rfl, hstart⟩ := dropBytes_eq_some_iff.mp hdrop
      obtain ⟨back, rfl, hstop⟩ := takeBytes_eq_some_iff.mp htake
      refine ⟨front, back, rfl, hstart, ?_⟩
      rw [byteLength_append]
      omega
    · rintro ⟨front, back, rfl, hstart, hstop⟩
      rw [byteLength_append] at hstop
      exact ⟨part ++ back, dropBytes_eq_some_iff.mpr ⟨front, rfl, hstart⟩,
        takeBytes_eq_some_iff.mpr ⟨back, rfl, by omega⟩⟩
  · constructor
    · rintro ⟨⟩
    · rintro ⟨front, back, -, hstart, hstop⟩
      rw [byteLength_append] at hstop
      omega

/-- An offset where a character begins or the text ends. -/
def Boundary (text : List Char) (offset : Nat) : Prop :=
  String.Pos.Raw.IsValid (String.ofList text) ⟨offset⟩

theorem boundary_iff {text : List Char} {offset : Nat} :
    Boundary text offset ↔ ∃ front back, text = front ++ back ∧ byteLength front = offset := by
  have hsize : ∀ front, (String.ofList front).utf8ByteSize = byteLength front := by
    intro front
    rw [← length_utf8, utf8_eq_toByteArray]
    rfl
  rw [Boundary, String.Pos.Raw.isValid_ofList]
  simp only [hsize]
  constructor
  · rintro ⟨i, hi⟩
    exact ⟨text.take i, text.drop i, (List.take_append_drop i text).symm, hi.symm⟩
  · rintro ⟨front, back, rfl, rfl⟩
    exact ⟨front.length, by rw [List.take_left]⟩

/-- A span whose ends are in order, in range and where characters begin or the text ends. -/
structure Sliceable (text : List Char) (span : Span) : Prop where
  ordered : span.start ≤ span.stop
  inRange : span.stop ≤ (utf8 text).length
  start : Boundary text span.start
  stop : Boundary text span.stop

theorem Sliceable.of_cut? {span : Span} {text part : List Char} (h : span.cut? text = some part) :
    Sliceable text span := by
  obtain ⟨front, back, rfl, hstart, hstop⟩ := Span.cut?_eq_some_iff.mp h
  refine ⟨?_, ?_, boundary_iff.mpr ⟨front, _, rfl, hstart⟩,
    boundary_iff.mpr ⟨front ++ part, back, by rw [List.append_assoc], hstop⟩⟩
  · rw [byteLength_append] at hstop
    omega
  · rw [← List.append_assoc, length_utf8, byteLength_append]
    omega

/-- Of two beginnings of a text the shorter one begins the longer one. -/
theorem exists_eq_append {front back front' back' : List Char} (h : front ++ back = front' ++ back')
    (hle : byteLength front ≤ byteLength front') : ∃ part, front' = front ++ part := by
  rcases List.append_eq_append_iff.mp h with ⟨part, hpart, -⟩ | ⟨part, hpart, -⟩
  · exact ⟨part, hpart⟩
  · rw [hpart, byteLength_append] at hle
    have hnil : part = [] := byteLength_eq_zero (by omega)
    rw [hpart, hnil]
    exact ⟨[], by simp⟩

theorem isSome_cut?_iff {span : Span} {text : List Char} :
    (span.cut? text).isSome = true ↔ Sliceable text span := by
  rw [Option.isSome_iff_exists]
  constructor
  · rintro ⟨part, hcut⟩
    exact .of_cut? hcut
  · rintro ⟨hordered, -, hstart, hstop⟩
    obtain ⟨front, back, rfl, hfront⟩ := boundary_iff.mp hstart
    obtain ⟨front', back', htext, hfront'⟩ := boundary_iff.mp hstop
    obtain ⟨part, rfl⟩ := exists_eq_append htext (by omega)
    refine ⟨part, Span.cut?_eq_some_iff.mpr ⟨front, back', ?_, hfront, hfront'⟩⟩
    rw [htext, List.append_assoc]

/-- A part that is cut out has the bytes from the one end of the span to the other. -/
theorem utf8_of_cut? {span : Span} {text part : List Char} (h : span.cut? text = some part) :
    utf8 part = (utf8 text).extract span.start span.stop := by
  obtain ⟨front, back, rfl, hstart, hstop⟩ := Span.cut?_eq_some_iff.mp h
  rw [byteLength_append] at hstop
  rw [List.extract_eq_take_drop, utf8_append, utf8_append,
    List.drop_left' (by rw [length_utf8, hstart]), List.take_left' (by rw [length_utf8]; omega)]

theorem cut?_append (front part back : List Char) :
    Span.cut? (front ++ (part ++ back)) ⟨byteLength front, byteLength (front ++ part)⟩ =
      some part := Span.cut?_eq_some_iff.mpr ⟨front, back, rfl, rfl, rfl⟩

end ComponentLint
