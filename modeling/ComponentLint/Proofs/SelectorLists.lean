import ComponentLint.Proofs.SelectorResidue

/-!
# Lists of selectors

A list is judged as one text: its commas and the `&` of its items are separators like blanks. What
leads from any item to another element counts for all of them, and the class or the element name
that an item begins with counts for the first item only. The verdict on a list of two is given by
what remains of the list and what leads away in it (`reachesOthers_list`). If the first item is
self-contained, something remains of the list exactly if something remains of an item.
-/

namespace ComponentLint.Selector

/-- A list of two selectors of the styled element, with blanks behind the comma. -/
def pair (s blanks t : List Char) : List Char := '&' :: (s ++ ',' :: (blanks ++ '&' :: t))

/-- What may lead to another element in a list: blanks behind the comma, combinators and blanks
inside of the list, and what the first item begins with. -/
inductive LeadsAway (s blanks t : List Char) : Prop
  | behindComma (h : blanks ≠ [])
  | first (h : ∃ c ∈ Text.trimStart s, isCombinator c = true)
  | beginning (h : ∃ c ∈ (Text.trimStart s).head?, beginsElement c = true)
  | second (h : ∃ c ∈ Text.trimEnd t, isCombinator c = true)

/-- A selector of which nothing remains or which reaches others. -/
def Settled (s : List Char) : Prop := residue s ≠ [] → reachesOthers ('&' :: s) = true

variable {s blanks t : List Char}

theorem trim_pair :
    Text.trim (s ++ ',' :: (blanks ++ '&' :: t)) =
      Text.trimStart s ++ ',' :: (blanks ++ '&' :: Text.trimEnd t) := by
  have hsome : ¬ Text.AllBlank ('&' :: t) := Text.not_allBlank List.mem_cons_self (by decide)
  rw [Text.trim, Text.trimStart_append_cons (by decide), ← List.cons_append, ← List.append_assoc,
    Text.trimEnd_append_of_not hsome, Text.trimEnd_cons (by decide), List.append_assoc,
    List.cons_append]

theorem residue_pair (h : SelfContained s) (hblanks : Text.AllBlank blanks) :
    residue (s ++ ',' :: (blanks ++ '&' :: t)) = residue s ++ residue t := by
  have hcomma : [','].filter (!isSeparator ·) = [] := by decide
  have hself : ['&'].filter (!isSeparator ·) = [] := by decide
  rw [residue_append (by decide) (Or.inl h), hcomma, residue_blanks_append hblanks,
    residue_cons (by decide) (by decide), hself]
  rfl

/-- What leads away in a list stands in it when it is trimmed. -/
theorem leadsAway_iff (hblanks : Text.AllBlank blanks) :
    ((∃ c ∈ Text.trim (s ++ ',' :: (blanks ++ '&' :: t)), isCombinator c = true) ∨
      ∃ c ∈ (Text.trim (s ++ ',' :: (blanks ++ '&' :: t))).head?, beginsElement c = true) ↔
      LeadsAway s blanks t := by
  rw [trim_pair]
  constructor
  · rintro (⟨c, hc, hleads⟩ | ⟨c, hc, hbegins⟩)
    · simp only [List.mem_append, List.mem_cons] at hc
      rcases hc with hc | rfl | hc | rfl | hc
      · exact .first ⟨c, hc, hleads⟩
      · exact absurd hleads (by decide)
      · exact .behindComma (List.ne_nil_of_mem hc)
      · exact absurd hleads (by decide)
      · exact .second ⟨c, hc, hleads⟩
    · cases hs : Text.trimStart s with
      | nil =>
        rw [hs] at hc
        obtain rfl : ',' = c := Option.some.inj hc
        exact absurd hbegins (by decide)
      | cons e r =>
        rw [hs] at hc
        exact .beginning ⟨c, by rw [hs]; exact hc, hbegins⟩
  · rintro (hne | ⟨c, hc, hleads⟩ | ⟨c, hc, hbegins⟩ | ⟨c, hc, hleads⟩)
    · obtain ⟨b, blanks, rfl⟩ := List.exists_cons_of_ne_nil hne
      exact Or.inl ⟨b, by simp, by simp [isCombinator, hblanks b List.mem_cons_self]⟩
    · exact Or.inl ⟨c, by simp [hc], hleads⟩
    · refine Or.inr ⟨c, ?_, hbegins⟩
      obtain ⟨r, hr⟩ := List.head?_eq_some_iff.mp hc
      rw [hr]
      exact rfl
    · exact Or.inl ⟨c, by simp [hc], hleads⟩

theorem reachesOthers_pair_iff (hblanks : Text.AllBlank blanks) :
    reachesOthers (pair s blanks t) = true ↔
      residue (s ++ ',' :: (blanks ++ '&' :: t)) ≠ [] ∧ LeadsAway s blanks t := by
  rw [pair, reachesOthers_iff, leadsAway_iff hblanks]

/-- A first item that reaches other elements leads away in every list. -/
theorem leadsAway_of_reachesOthers (h : reachesOthers ('&' :: s) = true) :
    LeadsAway s blanks t := by
  have hprefix : Text.trim s <+: Text.trimStart s := Text.trimEnd_prefix _
  rcases (reachesOthers_iff.mp h).2 with ⟨c, hc, hleads⟩ | ⟨c, hc, hbegins⟩
  · exact .first ⟨c, hprefix.mem hc, hleads⟩
  · obtain ⟨r, hr⟩ := List.head?_eq_some_iff.mp hc
    obtain ⟨u, hu⟩ := hprefix
    refine .beginning ⟨c, ?_, hbegins⟩
    rw [← hu, hr]
    exact rfl

/-- A list of two selectors reaches other elements exactly if something remains of it and something
leads away in it. If the first one is self-contained, something remains of the list exactly if
something remains of one of them. If moreover each of them is settled, the list reaches other
elements exactly if one of them does, except where nothing leads away in the list although the
second one reaches other elements. -/
theorem reachesOthers_list (hblanks : Text.AllBlank blanks) :
    (reachesOthers (pair s blanks t) = true ↔
      residue (s ++ ',' :: (blanks ++ '&' :: t)) ≠ [] ∧ LeadsAway s blanks t) ∧
    (SelfContained s → (residue (s ++ ',' :: (blanks ++ '&' :: t)) ≠ [] ↔
      residue s ≠ [] ∨ residue t ≠ [])) ∧
    (SelfContained s → Settled s → Settled t →
      (reachesOthers (pair s blanks t) = (reachesOthers ('&' :: s) || reachesOthers ('&' :: t)) ↔
        (reachesOthers ('&' :: t) = true → LeadsAway s blanks t))) := by
  have hremains : SelfContained s → (residue (s ++ ',' :: (blanks ++ '&' :: t)) ≠ [] ↔
      residue s ≠ [] ∨ residue t ≠ []) := by
    intro hself
    rw [residue_pair hself hblanks, Ne, List.append_eq_nil_iff, not_and_or]
  refine ⟨reachesOthers_pair_iff hblanks, hremains, ?_⟩
  intro hself hs ht
  have hiff : ∀ {u : List Char}, Settled u → (residue u ≠ [] ↔ reachesOthers ('&' :: u) = true) :=
    fun hu => ⟨hu, fun h => (reachesOthers_iff.mp h).1⟩
  rw [Bool.eq_iff_iff, Bool.or_eq_true, reachesOthers_pair_iff hblanks, hremains hself, hiff hs,
    hiff ht]
  constructor
  · intro h hsecond
    exact (h.mpr (Or.inr hsecond)).2
  · intro h
    refine ⟨fun hlist => hlist.1, fun hitem => ⟨hitem, ?_⟩⟩
    exact hitem.elim leadsAway_of_reachesOthers h

/-- Behind a blank the class of the second item counts, since the blank leads away. -/
theorem reachesOthers_list_blank :
    SelfContained ":hover".toList ∧ Settled ":hover".toList ∧ Settled ".active".toList ∧
    reachesOthers (pair ":hover".toList [' '] ".active".toList) =
      (reachesOthers "&:hover".toList || reachesOthers "&.active".toList) := by
  have hself : SelfContained ":hover".toList := by decide +kernel
  have hfirst : Settled ":hover".toList := by
    unfold Settled
    decide +kernel
  have hsecond : Settled ".active".toList := by
    unfold Settled
    decide +kernel
  have hblanks : Text.AllBlank [' '] := by decide
  have hlist := (@reachesOthers_list ":hover".toList [' '] ".active".toList hblanks).2.2
  exact ⟨hself, hfirst, hsecond,
    (hlist hself hfirst hsecond).mpr fun _ => .behindComma (List.cons_ne_nil _ _)⟩

/-- The verdict on a list is not that on its items: directly behind the comma a class does not count,
a blank behind the comma makes the list reach others that no item reaches, and a parenthesis that
the first item leaves open takes what leads away in it. -/
theorem reachesOthers_list_unlike_items :
    (reachesOthers "&:hover".toList = false ∧ reachesOthers "&.active".toList = true ∧
      reachesOthers "&:hover,&.active".toList = false ∧
      reachesOthers "&:hover, &.active".toList = true) ∧
    (reachesOthers "&*".toList = false ∧ reachesOthers "&:hover".toList = false ∧
      reachesOthers "&*, &:hover".toList = true) ∧
    (reachesOthers "&:not( >".toList = true ∧ reachesOthers "&)".toList = false ∧
      reachesOthers "&:not( >,&)".toList = false) := by
  decide +kernel

end ComponentLint.Selector
