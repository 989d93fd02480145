import ComponentLint.Proofs.AnnotationLayout
import ComponentLint.Proofs.MessageTexts
import ComponentLint.Proofs.TextBytes

/-!
# Scans over bytes

Where the text of a type ends, where a union falls apart and where a template has a hole is found by
comparing single bytes, and the text is then sliced at the offsets that were found. Here these scans
are written down as they go over the bytes, with every slice as a step that can fail. All that they
look for are ASCII characters, and no byte of another character looks like one. So none of the slices
fails, whatever text is scanned, and the scans over characters give the same (`slices_never_fail`).
-/

namespace ComponentLint

/-! ## Types -/

namespace Types

/-- The offset of the equals sign that begins an initial value, in bytes that stand behind `i` others.
The last one of those is `before`. -/
def signOffset? (depth : Nat) (before : Option UInt8) (i : Nat) : List UInt8 → Option Nat
  | [] => none
  | byte :: rest =>
    if opens (Char.ofUInt8 byte) then signOffset? (depth + 1) (some byte) (i + 1) rest
    else if byte = '>'.toUInt8 ∧ before = some '='.toUInt8 then
      signOffset? depth (some byte) (i + 1) rest
    else if closes (Char.ofUInt8 byte) then signOffset? (depth - 1) (some byte) (i + 1) rest
    else if byte = '='.toUInt8 ∧ depth = 0 ∧ rest.head? ≠ some '>'.toUInt8 then some i
    else signOffset? depth (some byte) (i + 1) rest

/-- The slice of a text up to the equals sign that begins an initial value. -/
def sliceAtInitializer? (text : List Char) : Option (List Char) :=
  match signOffset? 0 none 0 (utf8 text) with
  | some i => Span.cut? text ⟨0, i⟩
  | none => some text

/-- The spans between the bars outside of brackets, in bytes that stand behind `i` others. The first
span begins at `start`. -/
def barSpans (depth start i : Nat) : List UInt8 → List Span
  | [] => [⟨start, i⟩]
  | byte :: rest =>
    if opens (Char.ofUInt8 byte) then barSpans (depth + 1) start (i + 1) rest
    else if closes (Char.ofUInt8 byte) then barSpans (depth - 1) start (i + 1) rest
    else if byte = '|'.toUInt8 ∧ depth = 0 then ⟨start, i⟩ :: barSpans depth (i + 1) (i + 1) rest
    else barSpans depth start (i + 1) rest

/-- The slices of a text between the bars outside of brackets, without blanks around them; empty ones
do not count. -/
def sliceMembers? (text : List Char) : Option (List (List Char)) :=
  ((barSpans 0 0 0 (utf8 text)).mapM (Span.cut? text)).map fun pieces =>
    (pieces.map Text.trim).filter (!·.isEmpty)

theorem inert_of_not_isAscii {c : Char} (h : ¬ IsAscii c) : opens c = false ∧ closes c = false := by
  simp only [opens, closes, Bool.or_eq_false_iff, beq_eq_false_iff_ne]
  refine ⟨⟨⟨⟨?_, ?_⟩, ?_⟩, ?_⟩, ⟨⟨?_, ?_⟩, ?_⟩, ?_⟩ <;> exact ne_of_not_isAscii h (by decide)

theorem depthAfter_of_not_isAscii {c : Char} (h : ¬ IsAscii c) (depth : Nat) :
    depthAfter depth c = depth :=
  depthAfter_of_inert (inert_of_not_isAscii h).1 (inert_of_not_isAscii h).2 depth

/-- The scan for an equals sign goes over an ASCII character as the scan over characters does. -/
theorem signOffset?_cons {c : Char} (hc : IsAscii c) (depth i : Nat) {before : Option UInt8}
    {f : Bool} (hf : before = some '='.toUInt8 ↔ f = true) (text : List Char) :
    signOffset? depth before i (utf8 (c :: text)) =
      if c == '>' && f then signOffset? depth (some c.toUInt8) (i + c.utf8Size) (utf8 text)
      else if c == '=' && depth == 0 && text.head? != some '>' then some i
      else signOffset? (depthAfter depth c) (some c.toUInt8) (i + c.utf8Size) (utf8 text) := by
  have harrow : c.toUInt8 = '>'.toUInt8 ↔ c = '>' := hc.toUInt8_inj (by decide)
  have hsign : c.toUInt8 = '='.toUInt8 ↔ c = '=' := hc.toUInt8_inj (by decide)
  have hhead : (utf8 text).head? = some '>'.toUInt8 ↔ text.head? = some '>' :=
    head?_utf8 (by decide) text
  simp only [hc.utf8_cons, signOffset?, hc.ofUInt8_toUInt8, hc.utf8Size, harrow, hsign, ne_eq, hhead,
    hf, Bool.and_eq_true, beq_iff_eq, bne_iff_ne, and_assoc]
  cases hopens : opens c with
  | true =>
    have hgreater : c ≠ '>' := by
      rintro rfl
      exact absurd hopens (by decide)
    have hequals : c ≠ '=' := by
      rintro rfl
      exact absurd hopens (by decide)
    simp [hgreater, hequals, depthAfter_of_opens hopens]
  | false =>
    cases hcloses : closes c with
    | true =>
      have hequals : c ≠ '=' := by
        rintro rfl
        exact absurd hcloses (by decide)
      simp [hequals, depthAfter_of_closes hcloses]
    | false => simp [depthAfter_of_inert hopens hcloses]

/-- The scan for an equals sign passes over bytes that are no ASCII characters. -/
theorem signOffset?_skip {bytes : List UInt8} (h : ∀ byte ∈ bytes, ¬ IsAscii (Char.ofUInt8 byte))
    (depth : Nat) (before : Option UInt8) (i : Nat) (rest : List UInt8) :
    signOffset? depth before i (bytes ++ rest) =
      signOffset? depth (bytes.getLast?.or before) (i + bytes.length) rest := by
  induction bytes generalizing before i with
  | nil => rfl
  | cons byte bytes ih =>
    obtain ⟨hbyte, hbytes⟩ := List.forall_mem_cons.mp h
    have hstep : signOffset? depth before i (byte :: (bytes ++ rest)) =
        signOffset? depth (some byte) (i + 1) (bytes ++ rest) := by
      have hgreater : byte ≠ '>'.toUInt8 := ne_toUInt8 hbyte (by decide)
      have hequals : byte ≠ '='.toUInt8 := ne_toUInt8 hbyte (by decide)
      rw [signOffset?, (inert_of_not_isAscii hbyte).1, (inert_of_not_isAscii hbyte).2]
      simp [hgreater, hequals]
    have hlast : bytes.getLast?.or (some byte) = (byte :: bytes).getLast?.or before := by
      rw [List.getLast?_cons]
      cases bytes.getLast? <;> rfl
    rw [List.cons_append, hstep, ih hbytes, hlast, List.length_cons]
    congr 1
    omega

/-- `Ends i text front found`: the offset that was found is the one at which `front` ends, counted
with the `i` bytes before the text. If none was found, `front` is all of the text. -/
inductive Ends (i : Nat) : List Char → List Char → Option Nat → Prop
  | never (text) : Ends i text text none
  | here (front back) : Ends i (front ++ back) front (some (i + byteLength front))

theorem Ends.cons {i : Nat} {c : Char} {text front : List Char} {found : Option Nat}
    (h : Ends (i + c.utf8Size) text front found) : Ends i (c :: text) (c :: front) found := by
  cases h with
  | never => exact .never _
  | here _ back =>
    rw [Nat.add_assoc]
    exact .here (c :: front) back

/-- Over bytes the scan finds the equals sign at which the scan over characters stops. -/
theorem ends_signOffset? (text : List Char) (depth i : Nat) {before : Option UInt8} {f : Bool}
    (hf : before = some '='.toUInt8 ↔ f = true) :
    Ends i text (cutFrom depth f text) (signOffset? depth before i (utf8 text)) := by
  induction text generalizing depth before i f with
  | nil => exact .never []
  | cons c text ih =>
    by_cases hc : IsAscii c
    · have hafter : some c.toUInt8 = some '='.toUInt8 ↔ (c == '=') = true := by
        rw [Option.some.injEq, hc.toUInt8_inj (by decide), beq_iff_eq]
      rw [cutFrom, signOffset?_cons hc depth i hf]
      split_ifs with harrow hsign
      · rw [Bool.and_eq_true, beq_iff_eq] at harrow
        obtain ⟨rfl, -⟩ := harrow
        exact .cons (ih depth _ hafter)
      · exact .here [] (c :: text)
      · exact .cons (ih _ _ hafter)
    · have hgreater : c ≠ '>' := ne_of_not_isAscii hc (by decide)
      have hequals : c ≠ '=' := ne_of_not_isAscii hc (by decide)
      have hcopied : cutFrom depth f (c :: text) = c :: cutFrom depth (c == '=') text := by
        rw [cutFrom_of_copied, depthAfter_of_not_isAscii hc]
        · simp [hgreater]
        · exact fun heq => absurd heq hequals
      rw [hcopied, utf8_cons, signOffset?_skip fun _ => not_isAscii_of_mem hc,
        String.length_utf8EncodeChar]
      refine .cons (ih depth _ ?_)
      rw [List.getLast?_eq_some_getLast (utf8EncodeChar_ne_nil c), Option.some_or, Option.some.injEq,
        beq_iff_eq]
      constructor
      · intro hlast
        exact (mem_utf8EncodeChar_iff (by decide)).mp (hlast ▸ List.getLast_mem _)
      · exact fun heq => absurd heq hequals

theorem ends_cutAtInitializer (text : List Char) :
    Ends 0 text (cutAtInitializer text) (signOffset? 0 none 0 (utf8 text)) :=
  ends_signOffset? text 0 0 (by simp)

theorem Ends.sliceable {text front : List Char} {offset : Nat} (h : Ends 0 text front (some offset)) :
    Sliceable text ⟨0, offset⟩ := by
  generalize hfound : some offset = found at h
  cases h with
  | never => cases hfound
  | here _ back =>
    obtain rfl := Option.some.inj hfound
    rw [Nat.zero_add]
    exact .of_cut? (cut?_append [] front back)

theorem sliceAtInitializer?_eq (text : List Char) :
    sliceAtInitializer? text = some (cutAtInitializer text) := by
  have hends := ends_cutAtInitializer text
  rw [sliceAtInitializer?]
  generalize signOffset? 0 none 0 (utf8 text) = found at hends ⊢
  generalize cutAtInitializer text = front at hends ⊢
  cases hends with
  | never => rfl
  | here _ back =>
    rw [Nat.zero_add]
    exact cut?_append [] front back

/-! ## Unions -/

/-- The scan for bars goes over an ASCII character as the scan over characters does. -/
theorem barSpans_cons {c : Char} (hc : IsAscii c) (depth start i : Nat) (text : List Char) :
    barSpans depth start i (utf8 (c :: text)) =
      if c == '|' && depth == 0 then
        ⟨start, i⟩ :: barSpans 0 (i + c.utf8Size) (i + c.utf8Size) (utf8 text)
      else barSpans (depthAfter depth c) start (i + c.utf8Size) (utf8 text) := by
  have hbar : c.toUInt8 = '|'.toUInt8 ↔ c = '|' := hc.toUInt8_inj (by decide)
  simp only [hc.utf8_cons, barSpans, hc.ofUInt8_toUInt8, hc.utf8Size, hbar, Bool.and_eq_true,
    beq_iff_eq]
  cases hopens : opens c with
  | true =>
    simp [(ne_bar_of_bracket (Or.inl hopens)).symm, depthAfter_of_opens hopens]
  | false =>
    cases hcloses : closes c with
    | true => simp [(ne_bar_of_bracket (Or.inr hcloses)).symm, depthAfter_of_closes hcloses]
    | false =>
      rw [depthAfter_of_inert hopens hcloses]
      by_cases hsplit : c = '|' ∧ depth = 0
      · obtain ⟨rfl, rfl⟩ := hsplit
        simp
      · simp [hsplit]

/-- The scan for bars passes over bytes that are no ASCII characters. -/
theorem barSpans_skip {bytes : List UInt8} (h : ∀ byte ∈ bytes, ¬ IsAscii (Char.ofUInt8 byte))
    (depth start i : Nat) (rest : List UInt8) :
    barSpans depth start i (bytes ++ rest) = barSpans depth start (i + bytes.length) rest := by
  induction bytes generalizing i with
  | nil => rfl
  | cons byte bytes ih =>
    obtain ⟨hbyte, hbytes⟩ := List.forall_mem_cons.mp h
    have hstep : barSpans depth start i (byte :: (bytes ++ rest)) =
        barSpans depth start (i + 1) (bytes ++ rest) := by
      have hbar : byte ≠ '|'.toUInt8 := ne_toUInt8 hbyte (by decide)
      rw [barSpans, (inert_of_not_isAscii hbyte).1, (inert_of_not_isAscii hbyte).2]
      simp [hbar]
    rw [List.cons_append, hstep, ih hbytes, List.length_cons]
    congr 1
    omega

theorem modifyHead_pushFront {pieces : List (List Char)} (h : pieces ≠ []) (piece : List Char)
    (c : Char) :
    (pushFront c pieces).modifyHead (piece ++ ·) = pieces.modifyHead (piece ++ [c] ++ ·) := by
  cases pieces with
  | nil => exact absurd rfl h
  | cons first rest => simp [pushFront]

theorem modifyHead_nil_append (pieces : List (List Char)) :
    pieces.modifyHead ([] ++ ·) = pieces := by
  cases pieces with
  | nil => rfl
  | cons first rest => rfl

/-- The spans that are found over bytes cut out the pieces between the bars, the first one together
with what was passed before. -/
theorem cut?_barSpans (text front piece : List Char) (depth : Nat) :
    (barSpans depth (byteLength front) (byteLength (front ++ piece)) (utf8 text)).map
        (Span.cut? (front ++ (piece ++ text))) =
      ((barPieces depth text).modifyHead (piece ++ ·)).map some := by
  induction text generalizing front piece depth with
  | nil =>
    have hcut := cut?_append front piece []
    simpa [barSpans, barPieces] using hcut
  | cons c text ih =>
    -- A character that is no bar between two pieces belongs to the first one.
    have hpass : (barSpans (depthAfter depth c) (byteLength front)
          (byteLength (front ++ piece) + c.utf8Size) (utf8 text)).map
        (Span.cut? (front ++ (piece ++ c :: text))) =
        ((pushFront c (barPieces (depthAfter depth c) text)).modifyHead (piece ++ ·)).map some := by
      have hmore := ih front (piece ++ [c]) (depthAfter depth c)
      rw [modifyHead_pushFront (barPieces_ne_nil _ _)]
      simpa [byteLength, Nat.add_assoc] using hmore
    rw [barPieces]
    by_cases hc : IsAscii c
    · rw [barSpans_cons hc]
      split_ifs with hbar
      · rw [Bool.and_eq_true, beq_iff_eq] at hbar
        obtain ⟨rfl, -⟩ := hbar
        have hcut := cut?_append front piece ('|' :: text)
        have hmore := ih (front ++ (piece ++ ['|'])) [] 0
        have hoffset : byteLength (front ++ (piece ++ ['|'])) =
            byteLength (front ++ piece) + '|'.utf8Size := by simp [byteLength, Nat.add_assoc]
        rw [List.append_nil, hoffset, modifyHead_nil_append, List.nil_append,
          List.append_assoc, List.append_assoc] at hmore
        rw [List.map_cons, hcut]
        simpa using hmore
      · exact hpass
    · have hbar : ¬ (c == '|' && depth == 0) = true := by
        rw [Bool.and_eq_true, beq_iff_eq]
        exact fun hboth => ne_of_not_isAscii hc (by decide) hboth.1
      rw [if_neg hbar, utf8_cons, barSpans_skip fun _ => not_isAscii_of_mem hc,
        String.length_utf8EncodeChar]
      rw [depthAfter_of_not_isAscii hc] at hpass ⊢
      exact hpass

theorem cut?_barSpans_zero (text : List Char) :
    (barSpans 0 0 0 (utf8 text)).map (Span.cut? text) = (barPieces 0 text).map some := by
  have hcut := cut?_barSpans text [] [] 0
  rw [modifyHead_nil_append] at hcut
  exact hcut

theorem sliceable_of_mem_barSpans {text : List Char} {span : Span}
    (h : span ∈ barSpans 0 0 0 (utf8 text)) : Sliceable text span := by
  have hmem : span.cut? text ∈ (barPieces 0 text).map some := by
    rw [← cut?_barSpans_zero]
    exact List.mem_map_of_mem h
  obtain ⟨piece, -, hpiece⟩ := List.mem_map.mp hmem
  exact .of_cut? hpiece.symm

theorem sliceMembers?_eq (text : List Char) : sliceMembers? text = some (unionMembers text) := by
  have hpieces : (barSpans 0 0 0 (utf8 text)).mapM (Span.cut? text) = some (barPieces 0 text) :=
    calc (barSpans 0 0 0 (utf8 text)).mapM (Span.cut? text)
      _ = ((barSpans 0 0 0 (utf8 text)).map (Span.cut? text)).mapM id := by
          rw [List.mapM_map]
          rfl
      _ = ((barPieces 0 text).map some).mapM id := by rw [cut?_barSpans_zero]
      _ = (barPieces 0 text).mapM fun piece => some piece := by
          rw [List.mapM_map]
          rfl
      _ = some ((barPieces 0 text).map fun piece => piece) := List.mapM_pure
      _ = some (barPieces 0 text) := by rw [List.map_id']
  rw [sliceMembers?, hpieces]
  rfl

end Types

/-! ## Templates -/

namespace Template

/-- The offset at which a pattern first occurs. -/
def offset? (pattern : List UInt8) : List UInt8 → Option Nat
  | [] => none
  | byte :: rest =>
    if pattern.isPrefixOf (byte :: rest) then some 0 else (offset? pattern rest).map (· + 1)

/-- Where the first hole of a text opens. -/
def opening? (text : List Char) : Option Nat := offset? (utf8 ['\x7b', '\x7b']) (utf8 text)

/-- Where a hole closes in the text behind its opening braces. -/
def closing? (text : List Char) : Option Nat := offset? (utf8 ['\x7d', '\x7d']) (utf8 text)

/-- One round over what is left of a template: what it writes and, if there was a hole, what is left
behind it. -/
def round? (data : TemplateData) (rest : List Char) : Option (List Char × Option (List Char)) :=
  match opening? rest with
  | none => some (rest, none)
  | some opening => do
    let before ← Span.cut? rest ⟨0, opening⟩
    let after ← Span.cut? rest ⟨opening + 2, byteLength rest⟩
    match closing? after with
    | none =>
      let last ← Span.cut? rest ⟨opening, byteLength rest⟩
      return (before ++ last, none)
    | some closing =>
      let inside ← Span.cut? after ⟨0, closing⟩
      let shown ← data.value? (Text.trim inside) <|>
        Span.cut? rest ⟨opening, opening + 2 + closing + 2⟩
      let later ← Span.cut? after ⟨closing + 2, byteLength after⟩
      return (before ++ shown, some later)

theorem offset?_skip {mark : UInt8} {bytes : List UInt8} (h : mark ∉ bytes)
    (pattern rest : List UInt8) :
    offset? (mark :: pattern) (bytes ++ rest) =
      (offset? (mark :: pattern) rest).map (· + bytes.length) := by
  induction bytes with
  | nil => simp
  | cons byte bytes ih =>
    obtain ⟨hbyte, hbytes⟩ := not_or.mp (List.mem_cons.not.mp h)
    have hnot : (mark :: pattern).isPrefixOf (byte :: (bytes ++ rest)) = false := by
      rw [List.isPrefixOf, beq_eq_false_iff_ne.mpr hbyte, Bool.false_and]
    rw [List.cons_append, offset?, hnot, ih hbytes, if_neg Bool.false_ne_true, Option.map_map,
      List.length_cons]
    rfl

/-- Two equal ASCII characters in a row are found over bytes where they are found over characters. -/
theorem offset?_utf8 {mark : Char} (hmark : IsAscii mark) (text : List Char) :
    offset? (utf8 [mark, mark]) (utf8 text) =
      (breakAt? mark text).map fun split => byteLength split.1 := by
  have hpattern : utf8 [mark, mark] = [mark.toUInt8, mark.toUInt8] := by
    rw [hmark.utf8_cons, hmark.utf8_cons, utf8_nil]
  have hskip : ∀ c text, c ≠ mark → offset? (utf8 [mark, mark]) (utf8 (c :: text)) =
      (offset? (utf8 [mark, mark]) (utf8 text)).map (· + c.utf8Size) := by
    intro c text hne
    rw [hpattern, utf8_cons, offset?_skip (mt (mem_utf8EncodeChar_iff hmark).mp hne),
      String.length_utf8EncodeChar]
  fun_induction breakAt? mark text with
  | case1 => rfl
  | case2 c =>
    by_cases hc : c = mark
    · subst hc
      simp [hpattern, hmark.utf8_cons, offset?]
    · rw [hskip c [] hc]
      rfl
  | case3 c d rest hmarks =>
    obtain ⟨rfl, rfl⟩ : c = mark ∧ d = mark := by simpa using hmarks
    simp [hpattern, hmark.utf8_cons, offset?, byteLength]
  | case4 c d rest hmarks ih =>
    have hrest : offset? (utf8 [mark, mark]) (utf8 (c :: d :: rest)) =
        (offset? (utf8 [mark, mark]) (utf8 (d :: rest))).map (· + c.utf8Size) := by
      by_cases hc : c = mark
      · subst hc
        have hd : ¬ [c.toUInt8] <+: utf8 (d :: rest) := by
          rw [List.singleton_prefix_iff_head?_eq_some, head?_utf8 hmark]
          rintro ⟨⟩
          simp at hmarks
        have hnot : ¬ [c.toUInt8, c.toUInt8] <+: c.toUInt8 :: utf8 (d :: rest) := by
          rw [List.cons_prefix_cons]
          exact fun h => hd h.2
        rw [hpattern, hmark.utf8_cons, offset?, if_neg (mt List.isPrefixOf_iff_prefix.mp hnot),
          hmark.utf8Size]
      · exact hskip c (d :: rest) hc
    rw [hrest, ih, Option.map_map, Option.map_map]
    congr 1
    funext split
    simp [byteLength, Nat.add_comm]

theorem opening?_eq (text : List Char) :
    opening? text = (breakAt? '\x7b' text).map fun split => byteLength split.1 :=
  offset?_utf8 (by decide) text

theorem closing?_eq (text : List Char) :
    closing? text = (breakAt? '\x7d' text).map fun split => byteLength split.1 :=
  offset?_utf8 (by decide) text

/-- The parts of a text around two equal ASCII characters in a row, as they are cut out at the offset
where these stand. -/
theorem cut?_of_breakAt? {mark : Char} (hmark : IsAscii mark) {text before after : List Char}
    (h : breakAt? mark text = some (before, after)) :
    Span.cut? text ⟨0, byteLength before⟩ = some before ∧
      Span.cut? text ⟨byteLength before, byteLength text⟩ = some (mark :: mark :: after) ∧
      Span.cut? text ⟨byteLength before + 2, byteLength text⟩ = some after := by
  obtain rfl := eq_of_breakAt? h
  refine ⟨?_, ?_, ?_⟩ <;> rw [Span.cut?_eq_some_iff]
  · exact ⟨[], mark :: mark :: after, rfl, rfl, rfl⟩
  · exact ⟨before, [], by simp, rfl, rfl⟩
  · refine ⟨before ++ [mark, mark], [], by simp, ?_, by simp⟩
    simp [byteLength, hmark.utf8Size]

/-- A whole hole, as it is cut out from where it opens to where it closes. -/
theorem cut?_hole {text before after inside later : List Char}
    (hopen : breakAt? '\x7b' text = some (before, after))
    (hclose : breakAt? '\x7d' after = some (inside, later)) :
    Span.cut? text ⟨byteLength before, byteLength before + 2 + byteLength inside + 2⟩ =
      some (writtenHole inside) := by
  obtain rfl := eq_of_breakAt? hopen
  obtain rfl := eq_of_breakAt? hclose
  rw [Span.cut?_eq_some_iff]
  refine ⟨before, later, by simp [writtenHole], rfl, ?_⟩
  have hbrace : '\x7b'.utf8Size = 1 ∧ '\x7d'.utf8Size = 1 := by decide
  simp [writtenHole, byteLength, hbrace]
  omega

/-- Every slice of a round can be taken, and a round ends where the template's first hole does. -/
theorem round?_eq (data : TemplateData) (rest : List Char) :
    round? data rest = some (match (firstHole? rest).map Subtype.val with
      | none => (rest, none)
      | some (before, inside, later) =>
        (before ++ fillPiece data (.hole inside), some later)) := by
  rw [round?, opening?_eq, firstHole?_eq]
  cases hopen : breakAt? '\x7b' rest with
  | none => rfl
  | some opened =>
    obtain ⟨before, after⟩ := opened
    obtain ⟨hbefore, hlast, hafter⟩ := cut?_of_breakAt? (by decide) hopen
    simp only [Option.map_some, hbefore, hafter, Option.bind_eq_bind, Option.bind_some, closing?_eq]
    cases hclose : breakAt? '\x7d' after with
    | none =>
      have hall : before ++ '\x7b' :: '\x7b' :: after = rest := (eq_of_breakAt? hopen).symm
      simp [hlast, hall]
    | some closed =>
      obtain ⟨inside, later⟩ := closed
      obtain ⟨hinside, -, hlater⟩ := cut?_of_breakAt? (by decide) hclose
      have hhole := cut?_hole hopen hclose
      simp only [Option.map_some, hinside, hlater, hhole, Option.bind_some]
      cases hvalue : data.value? (Text.trim inside) with
      | none => simp [fillPiece, hvalue]
      | some value => simp [fillPiece, hvalue]

/-- A round leaves less than it began with. -/
theorem length_of_round? {data : TemplateData} {rest written later : List Char}
    (h : round? data rest = some (written, some later)) : later.length < rest.length := by
  rw [round?_eq] at h
  cases hhole : firstHole? rest with
  | none =>
    rw [hhole] at h
    cases h
  | some hole =>
    obtain ⟨⟨before, inside, later'⟩, hlt⟩ := hole
    rw [hhole] at h
    cases h
    exact hlt

/-- The message of a template with the given values, round by round. -/
def render? (data : TemplateData) (rest : List Char) : Option (List Char) :=
  match _hround : round? data rest with
  | none => none
  | some (written, none) => some written
  | some (written, some later) => (render? data later).map (written ++ ·)
termination_by rest.length
decreasing_by exact length_of_round? _hround

theorem render?_step (data : TemplateData) (rest : List Char) :
    render? data rest = (round? data rest).bind fun (written, later) =>
      match later with
      | none => some written
      | some later => (render? data later).map (written ++ ·) := by
  rw [render?]
  split
  · next hround => rw [hround, Option.bind_none]
  · next hround => rw [hround, Option.bind_some]
  · next hround => rw [hround, Option.bind_some]

theorem render?_eq (data : TemplateData) (text : List Char) :
    render? data text = some ((read text).fill data) := by
  fun_induction read text with
  | case1 text hnone =>
    rw [render?_step, round?_eq, hnone]
    simp [fill, fillPiece]
  | case2 text before inside later hlt hsome ih =>
    rw [render?_step, round?_eq, hsome]
    simp [fill, fillPiece, ih]

/-- Every slice that a round takes can be taken: around the place where a hole opens and, in what
stands behind that, around the place where it closes. -/
def RoundFits (rest : List Char) : Prop :=
  ∀ opening, opening? rest = some opening →
    Sliceable rest ⟨0, opening⟩ ∧ Sliceable rest ⟨opening, byteLength rest⟩ ∧
    ∃ after, Span.cut? rest ⟨opening + 2, byteLength rest⟩ = some after ∧
      ∀ closing, closing? after = some closing →
        Sliceable after ⟨0, closing⟩ ∧ Sliceable rest ⟨opening, opening + 2 + closing + 2⟩ ∧
        Sliceable after ⟨closing + 2, byteLength after⟩

theorem roundFits (rest : List Char) : RoundFits rest := by
  intro opening hopening
  rw [opening?_eq, Option.map_eq_some_iff] at hopening
  obtain ⟨⟨before, after⟩, hopen, rfl⟩ := hopening
  obtain ⟨hbefore, hlast, hafter⟩ := cut?_of_breakAt? (by decide) hopen
  refine ⟨.of_cut? hbefore, .of_cut? hlast, after, hafter, ?_⟩
  intro closing hclosing
  rw [closing?_eq, Option.map_eq_some_iff] at hclosing
  obtain ⟨⟨inside, later⟩, hclose, rfl⟩ := hclosing
  obtain ⟨hinside, -, hlater⟩ := cut?_of_breakAt? (by decide) hclose
  exact ⟨.of_cut? hinside, .of_cut? (cut?_hole hopen hclose), .of_cut? hlater⟩

end Template

/-- However a text is scanned, for the end of a type, for the members of a union or round by round
for the holes of a template, the offsets at which it is sliced are in order, in range and on
boundaries. So none of the slices fails, and over bytes each scan gives what it gives over characters.
A span of the text gives exactly its bytes if its ends are such offsets, and nothing otherwise. -/
theorem slices_never_fail (text : List Char) :
    (∀ offset, Types.signOffset? 0 none 0 (utf8 text) = some offset → Sliceable text ⟨0, offset⟩) ∧
    Types.sliceAtInitializer? text = some (Types.cutAtInitializer text) ∧
    (∀ span ∈ Types.barSpans 0 0 0 (utf8 text), Sliceable text span) ∧
    Types.sliceMembers? text = some (Types.unionMembers text) ∧
    Template.RoundFits text ∧
    (∀ data, Template.render? data text = some ((Template.read text).fill data)) ∧
    ∀ span : Span,
      (Sliceable text span → utf8 (span.text text) = (utf8 text).extract span.start span.stop) ∧
      (¬ Sliceable text span → span.text text = []) := by
  refine ⟨fun offset hoffset => ?_, Types.sliceAtInitializer?_eq text,
    fun _ => Types.sliceable_of_mem_barSpans, Types.sliceMembers?_eq text, Template.roundFits text,
    fun data => Template.render?_eq data text, fun span => ⟨fun hslice => ?_, fun hslice => ?_⟩⟩
  · have hends := Types.ends_cutAtInitializer text
    rw [hoffset] at hends
    exact hends.sliceable
  · obtain ⟨part, hcut⟩ := Option.isSome_iff_exists.mp (isSome_cut?_iff.mpr hslice)
    rw [Span.text, hcut, Option.getD_some, utf8_of_cut? hcut]
  · have hnone : span.cut? text = none := by
      rw [← Option.not_isSome_iff_eq_none, isSome_cut?_iff]
      exact hslice
    rw [Span.text, hnone, Option.getD_none]

/-- The scans find their offsets between characters of two bytes each. A span that ends inside such a
character gives nothing. -/
theorem slices_never_fail_accents :
    let text := "é\x7b\x7bö\x7d\x7dß|ü=ñ".toList
    Sliceable text ⟨0, 13⟩ ∧ Sliceable text ⟨11, 16⟩ ∧ Sliceable text ⟨2, 8⟩ ∧
      Span.text text ⟨1, 4⟩ = [] := by
  intro text
  obtain ⟨hsign, -, hbars, -, hround, -, hspan⟩ := slices_never_fail text
  refine ⟨hsign 13 (by decide), hbars ⟨11, 16⟩ (by decide), ?_, (hspan ⟨1, 4⟩).2 ?_⟩
  · obtain ⟨-, -, after, hafter, hclose⟩ := hround 2 (by decide)
    have heq : after = "ö\x7d\x7dß|ü=ñ".toList := Option.some.inj (hafter.symm.trans (by decide))
    exact (hclose 2 (by rw [heq]; decide)).2.1
  · rw [← isSome_cut?_iff]
    decide

end ComponentLint
