import ComponentLint.Proofs.AnnotationScan

/-!
# The members of a written union

Bars outside of brackets part a text into members. Blanks around a text make no difference
(`presentMembers_of_blanks`), and a union that is written from some texts has the members of all of
them (`presentMembers_intercalate`). The scan may take a bar inside of a text for one of the union,
since it counts the `>` of an arrow as a bracket. Then a text with brackets at both ends falls apart
into several members that are no missing values, so that the whole union decides
(`BracketEnds.present_cases`).
-/

namespace ComponentLint.Types

/-! ## Blanks -/

theorem ne_bar_of_isBlank {c : Char} (h : Text.isBlank c = true) : c ≠ '|' := by
  rintro rfl
  cases h

theorem depthAfter_of_isBlank {c : Char} (h : Text.isBlank c = true) (d : Nat) :
    depthAfter d c = d := by
  obtain ⟨ho, hcl⟩ := inert_of_isBlank h
  exact depthAfter_of_inert ho hcl d

theorem showsBar_of_blanks {b : List Char} (hb : Text.AllBlank b) (d : Nat) :
    showsBar d b = false :=
  showsBar_of_notMem (fun h => ne_bar_of_isBlank (hb _ h) rfl) d

theorem unionMembers_blanks_append {a : List Char} (ha : Text.AllBlank a) (s : List Char) :
    unionMembers (a ++ s) = unionMembers s := by
  induction a with
  | nil => rfl
  | cons c a ih =>
    obtain ⟨hc, ha⟩ := List.forall_mem_cons.mp ha
    have hbar : (c == '|' && 0 == 0) = false := by simpa using ne_bar_of_isBlank hc
    rw [← ih ha, unionMembers, unionMembers, List.cons_append, barPieces, hbar,
      depthAfter_of_isBlank hc]
    obtain ⟨piece, pieces, hpieces⟩ := List.exists_cons_of_ne_nil (barPieces_ne_nil 0 (a ++ s))
    simp [hpieces, pushFront, Text.trim_cons_blank hc]

/-- Blanks behind a text belong to its last piece. -/
theorem barPieces_append_blanks {b : List Char} (hb : Text.AllBlank b) (d : Nat) (s : List Char) :
    ∃ pieces last, barPieces d s = pieces ++ [last] ∧ barPieces d (s ++ b) = pieces ++ [last ++ b] := by
  induction s generalizing d with
  | nil =>
    refine ⟨[], [], rfl, ?_⟩
    rw [List.nil_append, barPieces_of_not_showsBar (showsBar_of_blanks hb d)]
    rfl
  | cons c s ih =>
    rw [List.cons_append, barPieces, barPieces]
    split_ifs with hbar
    · obtain ⟨pieces, last, h, h'⟩ := ih 0
      exact ⟨[] :: pieces, last, by rw [h]; rfl, by rw [h']; rfl⟩
    · obtain ⟨pieces, last, h, h'⟩ := ih (depthAfter d c)
      rw [h, h']
      cases pieces with
      | nil => exact ⟨[], c :: last, rfl, rfl⟩
      | cons piece pieces => exact ⟨(c :: piece) :: pieces, last, rfl, rfl⟩

theorem unionMembers_append_blanks {b : List Char} (hb : Text.AllBlank b) (s : List Char) :
    unionMembers (s ++ b) = unionMembers s := by
  obtain ⟨pieces, last, h, h'⟩ := barPieces_append_blanks hb 0 s
  simp [unionMembers, h, h', Text.trim_append_blanks hb]

theorem presentMembers_of_blanks {a b : List Char} (ha : Text.AllBlank a) (hb : Text.AllBlank b)
    (s : List Char) : presentMembers (a ++ s ++ b) = presentMembers s := by
  rw [presentMembers, unionMembers_append_blanks hb, unionMembers_blanks_append ha, presentMembers]

/-! ## Unions -/

/-- A union that is written from texts has the members of all of them, if none of them leaves a
bracket open. -/
theorem presentMembers_intercalate {texts : List (List Char)}
    (h : ∀ s ∈ texts, depthOver 0 s = 0) :
    presentMembers (bar.intercalate texts) = texts.flatMap presentMembers := by
  have hblank : Text.AllBlank [' '] := by simp [Text.AllBlank]; decide
  induction texts with
  | nil => rfl
  | cons s texts ih =>
    obtain ⟨hs, htexts⟩ := List.forall_mem_cons.mp h
    cases texts with
    | nil => simp
    | cons s' texts =>
      have hbar : bar.intercalate (s :: s' :: texts) =
          (s ++ [' ']) ++ '|' :: ([' '] ++ bar.intercalate (s' :: texts)) := by
        rw [List.intercalate_cons_cons, List.append_assoc, List.append_assoc]
        rfl
      have hdepth : depthOver 0 (s ++ [' ']) = 0 := by
        rw [depthOver_append, hs]
        rfl
      have hfirst : presentMembers (s ++ [' ']) = presentMembers s :=
        presentMembers_of_blanks (a := []) (by simp [Text.AllBlank]) hblank s
      have hothers : presentMembers ([' '] ++ bar.intercalate (s' :: texts)) =
          presentMembers (bar.intercalate (s' :: texts)) := by
        simpa using presentMembers_of_blanks (b := []) hblank (by simp [Text.AllBlank])
          (bar.intercalate (s' :: texts))
      rw [hbar, presentMembers_append_bar hdepth, hfirst, hothers, ih htexts]
      exact List.flatMap_cons.symm

/-- A text with brackets at both ends is its own only member, or it falls apart into several. -/
theorem BracketEnds.present_cases {s : List Char} (h : BracketEnds s) (htrimmed : Text.Trimmed s) :
    (showsBar 0 s = false ∧ presentMembers s = [s]) ∨
      (showsBar 0 s = true ∧ 2 ≤ (presentMembers s).length) := by
  cases hbar : showsBar 0 s with
  | false =>
    obtain ⟨a, o, b, rfl, hopens, -⟩ := h.opening
    have hone := presentMembers_of_bracket (by simp) (Or.inl hopens) hbar
    rw [Text.trim_of_trimmed htrimmed] at hone
    exact Or.inl ⟨rfl, hone⟩
  | true => exact Or.inr ⟨rfl, h.two_le hbar⟩

/-- The one member that is no missing value decides, or else the whole text. -/
theorem decisive_of_singleton {s only : List Char} (h : presentMembers s = [only]) :
    decisive s = only := by
  rw [presentMembers] at h
  simp only [decisive, h]

theorem decisive_of_length_ne {s : List Char} (h : (presentMembers s).length ≠ 1) :
    decisive s = s := by
  rw [presentMembers] at h
  unfold decisive
  split
  · next only honly =>
    rw [honly] at h
    exact absurd rfl h
  · rfl

end ComponentLint.Types
