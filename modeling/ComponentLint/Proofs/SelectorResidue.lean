import ComponentLint.Proofs.CallDeletion

/-!
# What remains of a selector

`residue` is what the deletions leave of a selector. Blanks around the selector make no difference to
it (`residue_trim`). A barrier parts it: what stands before and what stands behind is judged apart
(`residue_append`), if the text before leaves no parenthesis and no bracket open
(`SelfContained`).
-/

namespace ComponentLint.Selector

/-! ## Names and attributes -/

theorem nameLength_append {s r : List Char} (hr : EndsName r) :
    nameLength (s ++ r) = nameLength s := by
  have hnone : r.takeWhile isNameChar = [] := by
    cases r with
    | nil => rfl
    | cons c r => rw [List.takeWhile_cons_of_neg (by simpa using hr c rfl)]
  rw [nameLength, nameLength, List.takeWhile_append, hnone, List.append_nil]
  split_ifs with h
  · rw [h]
  · rfl

theorem nameLength_le (s : List Char) : nameLength s ≤ s.length :=
  (List.takeWhile_sublist isNameChar).length_le

theorem pseudoElement_cons {c : Char} (hc : c ≠ ':') (s : List Char) :
    pseudoElement (c :: s) = 0 := by
  simp [pseudoElement, hc]

theorem pseudoClass_cons {c : Char} (hc : c ≠ ':') (s : List Char) : pseudoClass (c :: s) = 0 := by
  simp [pseudoClass, hc]

theorem attributeTest_cons {c : Char} (hc : c ≠ '[') (s : List Char) :
    attributeTest (c :: s) = 0 := by
  simp [attributeTest, hc]

theorem pseudoElement_le (s : List Char) : pseudoElement s ≤ s.length := by
  rw [pseudoElement.eq_def]
  split
  · next rest =>
    have := nameLength_le rest
    split_ifs
    · exact Nat.zero_le _
    · simp only [List.length_cons]
      omega
  · exact Nat.zero_le _

theorem pseudoClass_le (s : List Char) : pseudoClass s ≤ s.length := by
  rw [pseudoClass.eq_def]
  split
  · next rest =>
    have := nameLength_le rest
    split_ifs
    · exact Nat.zero_le _
    · simp only [List.length_cons]
      omega
  · exact Nat.zero_le _

/-- An attribute goes up to the first bracket that closes. -/
theorem attributeTest_closed {w : List Char} (hw : ']' ∉ w) (s : List Char) :
    attributeTest ('[' :: (w ++ ']' :: s)) = if nameLength w = 0 then 0 else w.length + 2 := by
  have hname : nameLength (w ++ ']' :: s) = nameLength w :=
    nameLength_append (EndsName.cons (by decide) s)
  have hrest : ∀ c ∈ w, (c != ']') = true := by
    intro c hc
    rw [bne_iff_ne]
    rintro rfl
    exact hw hc
  have hclose : ¬ ((']' : Char) != ']') = true := by decide
  have hdrop : (w ++ ']' :: s).dropWhile (· != ']') = ']' :: s := by
    rw [List.dropWhile_append_of_pos hrest]
    exact List.dropWhile_cons_of_neg hclose
  have htake : (w ++ ']' :: s).takeWhile (· != ']') = w := by
    rw [List.takeWhile_append_of_pos hrest]
    exact List.append_right_eq_self.mpr (List.takeWhile_cons_of_neg hclose)
  simp only [attributeTest, hname, hdrop, htake]

theorem attributeTest_open {w : List Char} (hw : ']' ∉ w) : attributeTest ('[' :: w) = 0 := by
  have hrest : w.dropWhile (· != ']') = [] := by
    rw [List.dropWhile_eq_nil_iff]
    intro c hc
    rw [bne_iff_ne]
    rintro rfl
    exact hw hc
  simp only [attributeTest, hrest, ite_self]

theorem attributeTest_le (s : List Char) : attributeTest s ≤ s.length := by
  cases s with
  | nil => exact Nat.le_refl 0
  | cons c s =>
    by_cases hc : c = '['
    · subst hc
      by_cases hclosed : ']' ∈ s
      · obtain ⟨w, r, rfl, hw⟩ := List.eq_append_cons_of_mem hclosed
        rw [attributeTest_closed hw, List.length_cons, List.length_append, List.length_cons]
        split_ifs <;> omega
      · rw [attributeTest_open hclosed]
        exact Nat.zero_le _
    · rw [attributeTest_cons hc]
      exact Nat.zero_le _

/-! ## Barriers -/

theorem pseudoElement_append {c : Char} (hname : isNameChar c = false) (hcolon : c ≠ ':')
    {t : List Char} (ht : t ≠ []) (r : List Char) :
    pseudoElement (t ++ c :: r) = pseudoElement t := by
  obtain ⟨e, t, rfl⟩ := List.exists_cons_of_ne_nil ht
  by_cases he : e = ':'
  · subst he
    cases t with
    | nil => simp [pseudoElement, hcolon]
    | cons e' t =>
      by_cases he' : e' = ':'
      · subst he'
        simp only [List.cons_append, pseudoElement, nameLength_append (EndsName.cons hname r)]
      · simp [pseudoElement, he']
  · rw [List.cons_append, pseudoElement_cons he, pseudoElement_cons he]

theorem pseudoClass_append_of_endsName {t r : List Char} (ht : t ≠ []) (hr : EndsName r) :
    pseudoClass (t ++ r) = pseudoClass t := by
  obtain ⟨e, t, rfl⟩ := List.exists_cons_of_ne_nil ht
  by_cases he : e = ':'
  · subst he
    simp only [List.cons_append, pseudoClass, nameLength_append hr]
  · rw [List.cons_append, pseudoClass_cons he, pseudoClass_cons he]

/-- Whether all brackets that open in a text are closed in it. -/
def BracketsClosed (s : List Char) : Prop := ∀ t ∈ s.tails, t.head? = some '[' → ']' ∈ t

instance (s : List Char) : Decidable (BracketsClosed s) :=
  inferInstanceAs (Decidable (∀ t ∈ s.tails, t.head? = some '[' → ']' ∈ t))

theorem bracketsClosed_iff {s : List Char} :
    BracketsClosed s ↔ ∀ t, t <:+ s → t.head? = some '[' → ']' ∈ t := by
  simp only [BracketsClosed, List.mem_tails]

theorem BracketsClosed.of_notMem {s : List Char} (h : '[' ∉ s) : BracketsClosed s :=
  bracketsClosed_iff.mpr fun _ ht hhead => absurd (ht.mem (List.mem_of_mem_head? hhead)) h

/-- A bracket that closes at the end closes whatever is open. -/
theorem BracketsClosed.concat (s : List Char) : BracketsClosed (s ++ [']']) := by
  rw [bracketsClosed_iff]
  intro t ht hhead
  rcases Text.suffix_append_cases ht with ht | ⟨t, -, rfl⟩
  · rcases List.suffix_cons_iff.mp ht with rfl | ht
    · exact List.mem_singleton_self ']'
    · rw [List.suffix_nil.mp ht] at hhead
      cases hhead
  · simp

theorem BracketsClosed.append {s t : List Char} (hs : BracketsClosed s) (ht : BracketsClosed t) :
    BracketsClosed (s ++ t) := by
  rw [bracketsClosed_iff] at *
  intro x hx hhead
  rcases Text.suffix_append_cases hx with hx | ⟨y, hy, rfl⟩
  · exact ht x hx hhead
  · cases y with
    | nil => exact ht _ List.suffix_rfl hhead
    | cons c y => exact List.mem_append_left t (hs (c :: y) hy hhead)

/-- No attribute goes across a barrier if the brackets before it are closed, or if none is closed
behind it. -/
theorem attributeTest_append {p r : List Char} {c : Char} (hc : isBarrier c = true)
    (hclosed : BracketsClosed p ∨ ']' ∉ c :: r) :
    ∀ t, t <:+ p → t ≠ [] → attributeTest (t ++ c :: r) = attributeTest t := by
  intro t ht hne
  obtain ⟨hname, -⟩ := isBarrier_iff.mp hc
  obtain ⟨e, w, rfl⟩ := List.exists_cons_of_ne_nil hne
  by_cases he : e = '['
  · subst he
    by_cases hmem : ']' ∈ w
    · obtain ⟨w, x, rfl, hw⟩ := List.eq_append_cons_of_mem hmem
      rw [List.cons_append, List.append_assoc, List.cons_append, attributeTest_closed hw,
        attributeTest_closed hw]
    · have hrest : ']' ∉ c :: r := by
        refine hclosed.resolve_left fun hp => hmem ?_
        have := hp ('[' :: w) ((List.mem_tails _ _).mpr ht) rfl
        exact (List.mem_cons.mp this).resolve_left (by decide)
      rw [List.cons_append, attributeTest_open hmem, attributeTest_open]
      rw [List.mem_append]
      exact not_or.mpr ⟨hmem, hrest⟩
  · rw [List.cons_append, attributeTest_cons he, attributeTest_cons he]

/-! ## Passes -/

/-- The passes before the last one, which deletes attributes. -/
def withoutPseudo (s : List Char) : List Char :=
  deleteAll pseudoClass (deleteCalls (deleteAll pseudoElement s))

theorem residue_eq (s : List Char) :
    residue s = (deleteAll attributeTest (withoutPseudo s)).filter (!isSeparator ·) := rfl

/-- Whether a text leaves nothing open: no parenthesis, and no bracket once its pseudo-elements and
pseudo-classes are deleted. -/
structure SelfContained (s : List Char) : Prop where
  parentheses : Closed s
  brackets : BracketsClosed (withoutPseudo s)

instance (s : List Char) : Decidable (SelfContained s) :=
  decidable_of_iff (Closed s ∧ BracketsClosed (withoutPseudo s))
    ⟨fun h => ⟨h.1, h.2⟩, fun h => ⟨h.1, h.2⟩⟩

theorem exists_of_pseudoElement_pos {s : List Char} (h : 0 < pseudoElement s) :
    ∃ n r, IsName n ∧ s = ':' :: ':' :: (n ++ r) ∧ pseudoElement s = n.length + 2 := by
  rw [pseudoElement.eq_def] at h ⊢
  split at h
  · next rest =>
    split_ifs at h with hname
    · exact absurd h (Nat.lt_irrefl 0)
    · refine ⟨rest.takeWhile isNameChar, rest.dropWhile isNameChar, ⟨?_, ?_⟩, ?_, ?_⟩
      · exact List.length_pos_iff.mp (Nat.pos_of_ne_zero hname)
      · exact fun c hc => List.mem_takeWhile_imp hc
      · rw [List.takeWhile_append_dropWhile]
      · rw [if_neg hname, nameLength]
  · exact absurd h (Nat.lt_irrefl 0)

/-- The deletion of pseudo-elements takes no parentheses. -/
theorem count_deleteAll_pseudoElement {c : Char} (hc : isNameChar c = false) (hcolon : c ≠ ':')
    (s : List Char) : (deleteAll pseudoElement s).count c = s.count c := by
  induction s using deleteAll_induct pseudoElement_le with
  | nil => rfl
  | keep e s h ih => rw [deleteAll_cons h, List.count_cons, List.count_cons, ih]
  | delete m s hm h ih =>
    have hpos : 0 < pseudoElement (m ++ s) := by
      rw [h]
      exact List.length_pos_iff.mpr hm
    obtain ⟨n, r, hn, heq, hlength⟩ := exists_of_pseudoElement_pos hpos
    obtain ⟨rfl, -⟩ : m = ':' :: ':' :: n ∧ s = r := by
      refine List.append_inj (by simpa using heq) ?_
      simp only [List.length_cons]
      omega
    have hnone : (':' :: ':' :: n).count c = 0 :=
      List.count_eq_zero_of_not_mem (by simp [hcolon, hn.notMem hc])
    rw [deleteAll_piece hm h, ih, List.count_append, hnone, Nat.zero_add]

theorem Closed.deleteAll_pseudoElement {s : List Char} (h : Closed s) :
    Closed (deleteAll pseudoElement s) := by
  induction s using deleteAll_induct pseudoElement_le with
  | nil => exact h
  | keep c s hzero ih =>
    have hrest := ih (h.suffix (List.suffix_cons c s))
    rw [closed_iff]
    intro t ht
    rw [deleteAll_cons hzero] at ht
    rcases List.suffix_cons_iff.mp ht with rfl | ht
    · have hcount := h.of_suffix List.suffix_rfl
      rw [← deleteAll_cons hzero, count_deleteAll_pseudoElement (by decide) (by decide),
        count_deleteAll_pseudoElement (by decide) (by decide)]
      exact hcount
    · exact hrest.of_suffix ht
  | delete m s hm hpiece ih =>
    rw [deleteAll_piece hm hpiece]
    exact ih (h.suffix (List.suffix_append m s))

/-- The passes before the last one treat the texts on both sides of a barrier apart. -/
theorem withoutPseudo_append {p r : List Char} {c : Char} (hc : isBarrier c = true)
    (hclosed : Closed p ∨ ')' ∉ r) :
    withoutPseudo (p ++ c :: r) = withoutPseudo p ++ c :: withoutPseudo r := by
  obtain ⟨hname, hcolon, -⟩ := isBarrier_iff.mp hc
  have helements : deleteAll pseudoElement (p ++ c :: r) =
      deleteAll pseudoElement p ++ c :: deleteAll pseudoElement r := by
    rw [deleteAll_append pseudoElement_le fun t _ ht =>
        pseudoElement_append hname hcolon ht r,
      deleteAll_cons (pseudoElement_cons hcolon r)]
  have hclosed' : Closed (deleteAll pseudoElement p) ∨ ')' ∉ deleteAll pseudoElement r :=
    hclosed.imp Closed.deleteAll_pseudoElement
      fun h hmem => h ((deleteAll_sublist pseudoElement_le r).mem hmem)
  rw [withoutPseudo, helements, deleteCalls_append hc hclosed',
    deleteAll_append pseudoClass_le fun t _ ht =>
      pseudoClass_append_of_endsName ht (EndsName.cons hname _),
    deleteAll_cons (pseudoClass_cons hcolon _)]
  rfl

theorem withoutPseudo_cons {c : Char} (hc : c ≠ ':') (s : List Char) :
    withoutPseudo (c :: s) = c :: withoutPseudo s := by
  have hcalls : ∀ t, deleteCalls (c :: t) = c :: deleteCalls t := fun t =>
    deleteCalls_eq ((reduces_deleteCalls t).cons c) ((callFree_deleteCalls t).cons hc)
  rw [withoutPseudo, deleteAll_cons (pseudoElement_cons hc s), hcalls,
    deleteAll_cons (pseudoClass_cons hc _)]
  rfl

theorem withoutPseudo_sublist (s : List Char) : (withoutPseudo s).Sublist s := by
  refine (deleteAll_sublist pseudoClass_le _).trans ?_
  refine List.Sublist.trans ?_ (deleteAll_sublist pseudoElement_le s)
  generalize deleteAll pseudoElement s = t
  fun_induction deleteCalls t with
  | case1 t _ ih => exact ih.trans (deleteAll_sublist pseudoCall_le t)
  | case2 t _ => exact List.Sublist.refl t

/-- A barrier parts what remains, if the text before it is self-contained or if nothing is closed
behind it. -/
theorem residue_append {p r : List Char} {c : Char} (hc : isBarrier c = true)
    (h : SelfContained p ∨ (')' ∉ r ∧ ']' ∉ c :: r)) :
    residue (p ++ c :: r) = residue p ++ ([c].filter (!isSeparator ·) ++ residue r) := by
  have hbracket := (isBarrier_iff.mp hc).2.2.2.2
  have hbrackets : BracketsClosed (withoutPseudo p) ∨ ']' ∉ c :: withoutPseudo r := by
    refine h.imp (fun h => h.brackets) fun h hmem => h.2 ?_
    exact ((withoutPseudo_sublist r).cons_cons c).mem hmem
  rw [residue_eq, withoutPseudo_append hc (h.imp (fun h => h.parentheses) fun h => h.1),
    deleteAll_append attributeTest_le (attributeTest_append hc hbrackets),
    deleteAll_cons (attributeTest_cons hbracket _), ← List.singleton_append (l := deleteAll _ _),
    List.filter_append, List.filter_append]
  rfl

/-- A character with which no deletion begins remains, unless it is a separator. -/
theorem residue_cons {c : Char} (hcolon : c ≠ ':') (hbracket : c ≠ '[') (s : List Char) :
    residue (c :: s) = [c].filter (!isSeparator ·) ++ residue s := by
  rw [residue_eq, withoutPseudo_cons hcolon, deleteAll_cons (attributeTest_cons hbracket _),
    ← List.singleton_append, List.filter_append]
  rfl

/-! ## Blanks at the ends -/

theorem isBarrier_of_isBlank {c : Char} (h : Text.isBlank c = true) : isBarrier c = true := by
  refine isBarrier_iff.mpr ⟨isNameChar_of_isBlank h, ?_, ?_, ?_, ?_⟩
  all_goals
    rintro rfl
    exact absurd h (by decide)

theorem filter_of_isBlank {c : Char} (h : Text.isBlank c = true) :
    [c].filter (!isSeparator ·) = [] := by
  simp [isSeparator, h]

theorem residue_nil : residue [] = [] := by
  have hcalls : deleteCalls [] = [] := deleteCalls_eq .refl (callFree_of_notMem List.not_mem_nil)
  have hpasses : withoutPseudo [] = deleteAll pseudoClass (deleteCalls []) := rfl
  rw [residue_eq, hpasses, hcalls]
  rfl

theorem residue_blanks_append {a : List Char} (ha : Text.AllBlank a) (s : List Char) :
    residue (a ++ s) = residue s := by
  induction a with
  | nil => rfl
  | cons c a ih =>
    obtain ⟨hc, ha⟩ := List.forall_mem_cons.mp ha
    obtain ⟨-, hcolon, -, -, hbracket⟩ := isBarrier_iff.mp (isBarrier_of_isBlank hc)
    rw [List.cons_append, residue_cons hcolon hbracket, filter_of_isBlank hc, List.nil_append, ih ha]

theorem residue_append_blanks {b : List Char} (hb : Text.AllBlank b) (s : List Char) :
    residue (s ++ b) = residue s := by
  induction b with
  | nil => rw [List.append_nil]
  | cons c b ih =>
    have hall := hb
    obtain ⟨hc, hb⟩ := List.forall_mem_cons.mp hb
    have hrest : residue b = [] := by simpa [residue_nil] using residue_blanks_append hb []
    have hclose : ')' ∉ b := fun h => absurd (hb ')' h) (by decide)
    have hbracket : ']' ∉ c :: b := fun h => absurd (hall ']' h) (by decide)
    rw [residue_append (isBarrier_of_isBlank hc) (Or.inr ⟨hclose, hbracket⟩), filter_of_isBlank hc,
      hrest, List.append_nil, List.append_nil]

/-- Blanks around a text make no difference to what remains of it. -/
theorem residue_trim (s : List Char) : residue (Text.trim s) = residue s := by
  obtain ⟨a, b, ha, hb, hs⟩ := Text.exists_trim s
  conv_rhs => rw [hs]
  rw [residue_blanks_append ha, residue_append_blanks hb]

/-- A selector of the styled element reaches others if something remains of it that does not refine
the element, and if a combinator stands in it or an element, an identifier or a class begins it. -/
theorem reachesOthers_iff {s : List Char} :
    reachesOthers ('&' :: s) = true ↔ residue s ≠ [] ∧
      ((∃ c ∈ Text.trim s, isCombinator c = true) ∨
        ∃ c ∈ (Text.trim s).head?, beginsElement c = true) := by
  have hbody : body ('&' :: s) = Text.trim s := by
    simp [body, Text.dropFront?]
  have hempty : (residue s).isEmpty = false ↔ residue s ≠ [] := List.isEmpty_eq_false_iff
  rw [reachesOthers, hbody, residue_trim, Bool.and_eq_true, Bool.not_eq_true', hempty,
    Bool.or_eq_true, List.any_eq_true, Option.any_eq_true]
  rfl

end ComponentLint.Selector
