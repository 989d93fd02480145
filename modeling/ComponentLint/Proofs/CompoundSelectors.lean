import ComponentLint.Proofs.OwnSelectors

/-!
# The order in a compound selector

A class or an identifier always remains of a selector, wherever it stands. Whether the selector
reaches other elements then depends on what else is seen in it: a combinator anywhere, also inside of
parentheses and brackets, or a class, an identifier or an element name at the very beginning. So a
class counts in front of pseudo-classes, pseudo-elements and attributes, but behind them only if a
combinator stands in their arguments or texts (`reachesOthers_compound`).
-/

namespace ComponentLint.Selector

/-- A text that is written from pseudo-elements, pseudo-classes, calls and attributes, whatever
stands in the parentheses and in the brackets. -/
inductive Refines : List Char → Prop
  | nil : Refines []
  | pseudoElement {n s : List Char} (hn : IsName n) (rest : Refines s) :
      Refines (':' :: ':' :: (n ++ s))
  | pseudoClass {n s : List Char} (hn : IsName n) (rest : Refines s) : Refines (':' :: (n ++ s))
  | call {n s : List Char} (hn : IsName n) (a : List Char) (rest : Refines s) :
      Refines (':' :: (n ++ '(' :: (a ++ ')' :: s)))
  | attributeTest {n s : List Char} (hn : IsName n) (t : List Char) (rest : Refines s) :
      Refines ('[' :: (n ++ (t ++ ']' :: s)))

/-- A class or an identifier. -/
inductive IsMarker : List Char → Prop
  | className {n : List Char} (hn : IsName n) : IsMarker ('.' :: n)
  | identifier {n : List Char} (hn : IsName n) : IsMarker ('#' :: n)

theorem Refines.head {p : List Char} (h : Refines p) : ∀ c ∈ p.head?, c = ':' ∨ c = '[' := by
  cases h with
  | nil => exact nofun
  | pseudoElement | pseudoClass | call =>
    rintro c ⟨⟩
    exact Or.inl rfl
  | attributeTest =>
    rintro c ⟨⟩
    exact Or.inr rfl

/-! ## Markers -/

/-- What a marker begins with is a barrier and can begin a selector of another element. -/
theorem IsMarker.exists_name {e : List Char} (h : IsMarker e) :
    ∃ f n, e = f :: n ∧ IsName n ∧ isBarrier f = true ∧ beginsElement f = true := by
  cases h with
  | @className n hn => exact ⟨'.', n, rfl, hn, by decide, by decide⟩
  | @identifier n hn => exact ⟨'#', n, rfl, hn, by decide, by decide⟩

theorem isNameChar_of_isCombinator {c : Char} (h : isCombinator c = true) : isNameChar c = false := by
  simp only [isCombinator, Bool.or_eq_true, beq_iff_eq] at h
  rcases h with ((h | rfl) | rfl) | rfl
  · exact isNameChar_of_isBlank h
  · decide
  · decide
  · decide

/-- No combinator stands in a marker. -/
theorem IsMarker.isCombinator_eq_false {e : List Char} (h : IsMarker e) {c : Char} (hc : c ∈ e) :
    isCombinator c = false := by
  have hname : ∀ {n : List Char}, IsName n → c ∈ n → isCombinator c = false := by
    intro n hn hmem
    by_contra hcombinator
    have hnot := isNameChar_of_isCombinator (c := c) (by simpa using hcombinator)
    exact hn.notMem hnot hmem
  cases h with
  | className hn =>
    rcases List.mem_cons.mp hc with rfl | hmem
    · decide
    · exact hname hn hmem
  | identifier hn =>
    rcases List.mem_cons.mp hc with rfl | hmem
    · decide
    · exact hname hn hmem

/-! ## Compounds -/

section Compound

variable {e p : List Char}

theorem residue_marker_append_ne_nil (he : IsMarker e) (p : List Char) : residue (e ++ p) ≠ [] := by
  obtain ⟨f, n, rfl, -, -, hf⟩ := he.exists_name
  obtain ⟨hcolon, hbracket, hseparator, -⟩ := ne_of_beginsElement hf
  rw [List.cons_append, residue_cons hcolon hbracket]
  simp [hseparator]

/-- Nothing in front of a marker takes it along, since nothing is closed behind it. -/
theorem residue_append_marker_ne_nil (he : IsMarker e) (p : List Char) : residue (p ++ e) ≠ [] := by
  obtain ⟨f, n, rfl, hn, hbarrier, hf⟩ := he.exists_name
  obtain ⟨-, -, hseparator, -⟩ := ne_of_beginsElement hf
  have hclose : ')' ∉ n := hn.notMem (by decide)
  have hbracket : ']' ∉ f :: n := by
    intro hmem
    rcases List.mem_cons.mp hmem with rfl | hmem
    · exact absurd hf (by decide)
    · exact hn.notMem (by decide) hmem
  rw [residue_append hbarrier (Or.inr ⟨hclose, hbracket⟩)]
  simp [hseparator]

/-- A text that refines the element and a marker behind it leave nothing to be trimmed. -/
theorem Refines.trimmed_append (hp : Refines p) (hne : p ≠ []) (he : IsMarker e) :
    Text.Trimmed (p ++ e) where
  head := by
    intro c hc
    rw [List.head?_append_of_ne_nil p hne] at hc
    rcases hp.head c hc with rfl | rfl <;> decide
  last := by
    intro c hc
    obtain ⟨f, n, rfl, hn, -, -⟩ := he.exists_name
    have hmem : c ∈ n := by
      rw [List.getLast?_append_of_ne_nil p (List.cons_ne_nil f n), ← List.singleton_append,
        List.getLast?_append_of_ne_nil [f] hn.ne_nil] at hc
      exact List.mem_of_getLast? hc
    by_contra hblank
    exact hn.notMem (isNameChar_of_isBlank (by simpa using hblank)) hmem

theorem reachesOthers_marker_append (he : IsMarker e) (p : List Char) :
    reachesOthers ('&' :: (e ++ p)) = true := by
  refine reachesOthers_iff.mpr ⟨residue_marker_append_ne_nil he p, Or.inr ?_⟩
  obtain ⟨f, n, rfl, -, -, hf⟩ := he.exists_name
  obtain ⟨-, -, -, hblank⟩ := ne_of_beginsElement hf
  refine ⟨f, ?_, hf⟩
  exact Text.head?_trim (b := []) (by simp [Text.AllBlank]) hblank

theorem reachesOthers_append_marker_iff (hp : Refines p) (hne : p ≠ []) (he : IsMarker e) :
    reachesOthers ('&' :: (p ++ e)) = true ↔ ∃ c ∈ p, isCombinator c = true := by
  rw [reachesOthers_iff, Text.trim_of_trimmed (hp.trimmed_append hne he),
    List.head?_append_of_ne_nil p hne]
  constructor
  · -- What is seen first is a colon or a bracket, so only a combinator is left as a reason.
    rintro ⟨-, ⟨c, hc, hleads⟩ | ⟨c, hc, hbegins⟩⟩
    · rcases List.mem_append.mp hc with hc | hc
      · exact ⟨c, hc, hleads⟩
      · rw [he.isCombinator_eq_false hc] at hleads
        cases hleads
    · rcases hp.head c hc with rfl | rfl
      · exact absurd hbegins (by decide)
      · exact absurd hbegins (by decide)
  · rintro ⟨c, hc, hleads⟩
    exact ⟨residue_append_marker_ne_nil he p, Or.inl ⟨c, List.mem_append_left e hc, hleads⟩⟩

/-- A compound selector with its class or its identifier in front reaches other elements. With the
same parts in front of the class it does so exactly if there are none, or if a combinator stands in
their arguments or texts. So the order makes no difference in these cases and in no other. -/
theorem reachesOthers_compound (hp : Refines p) (he : IsMarker e) :
    reachesOthers ('&' :: (e ++ p)) = true ∧
    (reachesOthers ('&' :: (p ++ e)) = reachesOthers ('&' :: (e ++ p)) ↔
      p = [] ∨ ∃ c ∈ p, isCombinator c = true) := by
  have hfront := reachesOthers_marker_append he p
  refine ⟨hfront, ?_⟩
  by_cases hne : p = []
  · subst hne
    simp
  · rw [hfront, reachesOthers_append_marker_iff hp hne he]
    simp [hne]

/-- The blank in the arguments counts as a combinator. -/
theorem reachesOthers_compound_nth :
    reachesOthers "&:nth-child(2n + 1)[title=\"(\"].active".toList =
      reachesOthers "&.active:nth-child(2n + 1)[title=\"(\"]".toList := by
  have hp : Refines ":nth-child(2n + 1)[title=\"(\"]".toList :=
    .call (n := "nth-child".toList) (by decide) "2n + 1".toList
      (.attributeTest (n := "title".toList) (by decide) "=\"(\"".toList .nil)
  have he : IsMarker ".active".toList := .className (by decide)
  exact (reachesOthers_compound hp he).2.mpr (Or.inr ⟨' ', by decide, by decide⟩)

/-- A class behind a pseudo-class does not count, and in front of it does. -/
theorem reachesOthers_compound_unlike :
    Refines ":hover".toList ∧ IsMarker ".active".toList ∧
    reachesOthers "&:hover.active".toList = false ∧
    reachesOthers "&.active:hover".toList = true := by
  have hp : Refines ":hover".toList := .pseudoClass (n := "hover".toList) (by decide) .nil
  exact ⟨hp, .className (by decide), by decide +kernel, by decide +kernel⟩

end Compound

end ComponentLint.Selector
