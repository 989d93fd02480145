import ComponentLint.Proofs.Trimming
import ComponentLint.Types.Annotation

/-!
# Scanning a type's text for brackets

Both scans over the text of a type count open brackets: one looks for the bars between the members of
a union, the other for the equals sign that begins an initial value. The lemmas here say what a text
does to such a scan whatever stands around it, so that longer texts can be judged by their parts.
-/

namespace ComponentLint.Types

/-! ## Brackets -/

theorem isBlank_of_opens {c : Char} (h : opens c = true) : Text.isBlank c = false := by
  simp only [opens, Bool.or_eq_true, beq_iff_eq] at h
  rcases h with ((rfl | rfl) | rfl) | rfl <;> decide

theorem isBlank_of_closes {c : Char} (h : closes c = true) : Text.isBlank c = false := by
  simp only [closes, Bool.or_eq_true, beq_iff_eq] at h
  rcases h with ((rfl | rfl) | rfl) | rfl <;> decide

theorem closes_of_opens {c : Char} (h : opens c = true) : closes c = false := by
  simp only [opens, Bool.or_eq_true, beq_iff_eq] at h
  rcases h with ((rfl | rfl) | rfl) | rfl <;> decide

theorem inert_of_isBlank {c : Char} (h : Text.isBlank c = true) :
    opens c = false ∧ closes c = false := by
  constructor
  · by_contra hopens
    rw [isBlank_of_opens (by simpa using hopens)] at h
    cases h
  · by_contra hcloses
    rw [isBlank_of_closes (by simpa using hcloses)] at h
    cases h

theorem depthAfter_of_opens {c : Char} (h : opens c = true) (d : Nat) :
    depthAfter d c = d + 1 := by
  rw [depthAfter, if_pos h]

theorem depthAfter_of_closes {c : Char} (h : closes c = true) (d : Nat) :
    depthAfter d c = d - 1 := by
  have hopens : ¬ opens c = true := by
    intro ho
    rw [closes_of_opens ho] at h
    cases h
  rw [depthAfter, if_neg hopens, if_pos h]

theorem depthAfter_of_inert {c : Char} (ho : opens c = false) (hc : closes c = false) (d : Nat) :
    depthAfter d c = d := by
  simp [depthAfter, ho, hc]

/-- The depth of nesting after a text. -/
def depthOver (d : Nat) (s : List Char) : Nat := s.foldl depthAfter d

@[simp] theorem depthOver_nil (d : Nat) : depthOver d [] = d := rfl

@[simp] theorem depthOver_cons (d : Nat) (c : Char) (s : List Char) :
    depthOver d (c :: s) = depthOver (depthAfter d c) s := rfl

@[simp] theorem depthOver_append (d : Nat) (s t : List Char) :
    depthOver d (s ++ t) = depthOver (depthOver d s) t := List.foldl_append

/-! ## Bars -/

/-- Whether the scan meets a bar that it takes to be outside of brackets. -/
def showsBar (d : Nat) : List Char → Bool
  | [] => false
  | c :: rest => c == '|' && d == 0 || showsBar (depthAfter d c) rest

@[simp] theorem showsBar_nil (d : Nat) : showsBar d [] = false := rfl

@[simp] theorem showsBar_cons (d : Nat) (c : Char) (s : List Char) :
    showsBar d (c :: s) = (c == '|' && d == 0 || showsBar (depthAfter d c) s) := rfl

@[simp] theorem showsBar_append (d : Nat) (s t : List Char) :
    showsBar d (s ++ t) = (showsBar d s || showsBar (depthOver d s) t) := by
  induction s generalizing d with
  | nil => simp
  | cons c s ih => simp [ih, Bool.or_assoc]

/-- A text without bars shows none. -/
theorem showsBar_of_notMem {s : List Char} (h : '|' ∉ s) (d : Nat) : showsBar d s = false := by
  induction s generalizing d with
  | nil => rfl
  | cons c s ih =>
    obtain ⟨hc, hs⟩ := not_or.mp (List.mem_cons.not.mp h)
    simp [Ne.symm hc, ih hs]

/-- A text that shows a bar falls apart at the first one. -/
theorem exists_first_bar {d : Nat} {s : List Char} (h : showsBar d s = true) :
    ∃ a b, s = a ++ '|' :: b ∧ depthOver d a = 0 ∧ showsBar d a = false := by
  induction s generalizing d with
  | nil => cases h
  | cons c s ih =>
    by_cases hhere : c = '|' ∧ d = 0
    · obtain ⟨rfl, rfl⟩ := hhere
      exact ⟨[], s, rfl, rfl, rfl⟩
    · have hnot : (c == '|' && d == 0) = false := by simpa using hhere
      rw [showsBar_cons, hnot, Bool.false_or] at h
      obtain ⟨a, b, rfl, hdepth, hbar⟩ := ih h
      exact ⟨c :: a, b, rfl, hdepth, by rw [showsBar_cons, hnot, hbar, Bool.false_or]⟩

/-! ## Pieces -/

theorem pushFront_append {c : Char} {pieces : List (List Char)} (h : pieces ≠ [])
    (more : List (List Char)) : pushFront c (pieces ++ more) = pushFront c pieces ++ more := by
  cases pieces with
  | nil => exact absurd rfl h
  | cons piece rest => rfl

theorem barPieces_ne_nil (d : Nat) (s : List Char) : barPieces d s ≠ [] := by
  cases s with
  | nil => exact List.cons_ne_nil _ _
  | cons c s =>
    rw [barPieces]
    split_ifs
    · exact List.cons_ne_nil _ _
    · cases barPieces (depthAfter d c) s <;> exact List.cons_ne_nil _ _

/-- Outside of brackets a bar parts what stands before it from what follows. -/
theorem barPieces_append_bar {d : Nat} {s : List Char} (h : depthOver d s = 0) (t : List Char) :
    barPieces d (s ++ '|' :: t) = barPieces d s ++ barPieces 0 t := by
  induction s generalizing d with
  | nil =>
    obtain rfl : d = 0 := h
    rfl
  | cons c s ih =>
    rw [List.cons_append, barPieces, barPieces]
    split_ifs with hbar
    · obtain ⟨hc, hd⟩ := Bool.and_eq_true_iff.mp hbar
      obtain rfl := beq_iff_eq.mp hc
      obtain rfl := beq_iff_eq.mp hd
      have hrest : depthOver 0 s = 0 := h
      rw [ih hrest, List.cons_append]
    · rw [ih h, pushFront_append (barPieces_ne_nil _ _)]

theorem barPieces_of_not_showsBar {d : Nat} {s : List Char} (h : showsBar d s = false) :
    barPieces d s = [s] := by
  induction s generalizing d with
  | nil => rfl
  | cons c s ih =>
    rw [showsBar_cons, Bool.or_eq_false_iff] at h
    rw [barPieces, h.1, ih h.2]
    rfl

/-- The members of a union outside of brackets are those on both sides of each bar. -/
theorem unionMembers_append_bar {s : List Char} (h : depthOver 0 s = 0) (t : List Char) :
    unionMembers (s ++ '|' :: t) = unionMembers s ++ unionMembers t := by
  rw [unionMembers, barPieces_append_bar h, List.map_append, List.filter_append]
  rfl

theorem unionMembers_of_not_showsBar {s : List Char} (h : showsBar 0 s = false) :
    unionMembers s = if (Text.trim s).isEmpty then [] else [Text.trim s] := by
  rw [unionMembers, barPieces_of_not_showsBar h, List.map_singleton]
  cases hempty : (Text.trim s).isEmpty <;> simp [hempty]

/-- The members of a union that are not missing values. -/
def presentMembers (s : List Char) : List (List Char) := (unionMembers s).filter (!isMissing ·)

theorem presentMembers_append_bar {s : List Char} (h : depthOver 0 s = 0) (t : List Char) :
    presentMembers (s ++ '|' :: t) = presentMembers s ++ presentMembers t := by
  rw [presentMembers, unionMembers_append_bar h, List.filter_append]
  rfl

/-- The names of missing values have no brackets. -/
theorem isMissing_of_bracket {s : List Char} {c : Char} (h : c ∈ s)
    (hc : opens c = true ∨ closes c = true) : isMissing s = false := by
  have hnames : ∀ name ∈ ["undefined".toList, "null".toList], c ∉ name := by
    intro name hname hin
    have hplain : ∀ name ∈ ["undefined".toList, "null".toList],
        name.all (fun x => !opens x && !closes x) = true := by decide
    have hinert := List.all_eq_true.mp (hplain name hname) c hin
    simp only [Bool.and_eq_true, Bool.not_eq_true'] at hinert
    obtain ⟨ho, hcl⟩ := hinert
    rcases hc with hc | hc
    · rw [ho] at hc
      cases hc
    · rw [hcl] at hc
      cases hc
  rw [isMissing, Bool.or_eq_false_iff, beq_eq_false_iff_ne, beq_eq_false_iff_ne]
  refine ⟨?_, ?_⟩
  · rintro rfl
    exact hnames _ (by simp) h
  · rintro rfl
    exact hnames _ (by simp) h

/-- A text without a bar and with a bracket is its own single member. -/
theorem presentMembers_of_bracket {s : List Char} {c : Char} (h : c ∈ s)
    (hc : opens c = true ∨ closes c = true) (hbar : showsBar 0 s = false) :
    presentMembers s = [Text.trim s] := by
  have hblank : Text.isBlank c = false := hc.elim isBlank_of_opens isBlank_of_closes
  have hmem : c ∈ Text.trim s := Text.mem_trim_of_mem h hblank
  have hne : (Text.trim s).isEmpty = false := by
    rw [List.isEmpty_eq_false_iff]
    exact List.ne_nil_of_mem hmem
  rw [presentMembers, unionMembers_of_not_showsBar hbar, hne]
  simp [isMissing_of_bracket hmem hc]

theorem ne_bar_of_bracket {c : Char} (hc : opens c = true ∨ closes c = true) : '|' ≠ c := by
  rintro rfl
  exact absurd hc (by decide)

/-- What stands behind the last bracket that closes belongs to the last member, which is no missing
value. -/
theorem presentMembers_ne_nil {a b : List Char} {c : Char} (hc : closes c = true) (hb : '|' ∉ b) :
    presentMembers (a ++ c :: b) ≠ [] := by
  generalize hn : a.length = n
  induction n using Nat.strong_induction_on generalizing a with
  | _ n ih =>
    cases hbar : showsBar 0 (a ++ c :: b) with
    | false => simp [presentMembers_of_bracket (by simp) (Or.inr hc) hbar]
    | true =>
      obtain ⟨x, y, hxy, hdepth, -⟩ := exists_first_bar hbar
      -- No bar stands behind `c`, so the first one is in `a`.
      rcases Text.append_cons_eq_append_cons (ne_bar_of_bracket (Or.inr hc)) hxy.symm with
        ⟨r, -, rfl⟩ | ⟨a', rfl, -⟩
      · exact absurd (by simp) hb
      rw [List.append_assoc, List.cons_append, presentMembers_append_bar hdepth]
      refine List.append_ne_nil_of_right_ne_nil _ (ih a'.length ?_ rfl)
      rw [← hn]
      simp only [List.length_append, List.length_cons]
      omega

/-- A text with a bracket that opens before its first bar. -/
def Opening (s : List Char) : Prop := ∃ a o b, s = a ++ o :: b ∧ opens o = true ∧ '|' ∉ a

/-- A text with a bracket that closes behind its last bar. -/
def Closing (s : List Char) : Prop := ∃ a c b, s = a ++ c :: b ∧ closes c = true ∧ '|' ∉ b

theorem Opening.of_opens {o : Char} (ho : opens o = true) (s : List Char) : Opening (o :: s) :=
  ⟨[], o, s, rfl, ho, List.not_mem_nil⟩

theorem Opening.append {s : List Char} (h : Opening s) (t : List Char) : Opening (s ++ t) := by
  obtain ⟨a, o, b, rfl, ho, ha⟩ := h
  exact ⟨a, o, b ++ t, by simp, ho, ha⟩

theorem Opening.behind {s x : List Char} (h : Opening s) (hx : '|' ∉ x) : Opening (x ++ s) := by
  obtain ⟨a, o, b, rfl, ho, ha⟩ := h
  exact ⟨x ++ a, o, b, by simp, ho, by simp [hx, ha]⟩

theorem Closing.of_closes {c : Char} (hc : closes c = true) (s : List Char) : Closing (s ++ [c]) :=
  ⟨s, c, [], rfl, hc, List.not_mem_nil⟩

theorem Closing.behind {s : List Char} (h : Closing s) (x : List Char) : Closing (x ++ s) := by
  obtain ⟨a, c, b, rfl, hc, hb⟩ := h
  exact ⟨x ++ a, c, b, by simp, hc, hb⟩

theorem Closing.append {s x : List Char} (h : Closing s) (hx : '|' ∉ x) : Closing (s ++ x) := by
  obtain ⟨a, c, b, rfl, hc, hb⟩ := h
  exact ⟨a, c, b ++ x, by simp, hc, by simp [hx, hb]⟩

/-- A text with brackets at both ends. -/
structure BracketEnds (s : List Char) : Prop where
  opening : Opening s
  closing : Closing s

/-- If such a text shows a bar all the same, it falls apart into several members, none of which is a
missing value at both ends. -/
theorem BracketEnds.two_le {s : List Char} (h : BracketEnds s) (hbar : showsBar 0 s = true) :
    2 ≤ (presentMembers s).length := by
  obtain ⟨x, y, rfl, hdepth, hfirst⟩ := exists_first_bar hbar
  obtain ⟨a, o, b, ho, hopens, ha⟩ := h.opening
  have hx : o ∈ x := by
    rcases Text.append_cons_eq_append_cons (ne_bar_of_bracket (Or.inl hopens)) ho with
      ⟨r, rfl, -⟩ | ⟨r, rfl, -⟩
    · simp
    · exact absurd (by simp) ha
  obtain ⟨a', c, b', hc, hcloses, hb'⟩ := h.closing
  obtain ⟨y', rfl⟩ : ∃ y', y = y' ++ c :: b' := by
    rcases Text.append_cons_eq_append_cons (ne_bar_of_bracket (Or.inr hcloses)) hc with
      ⟨r, -, rfl⟩ | ⟨r, -, hy⟩
    · exact absurd (by simp) hb'
    · exact ⟨r, hy⟩
  have hlast := List.length_pos_iff.mpr (presentMembers_ne_nil (a := y') hcloses hb')
  rw [presentMembers_append_bar hdepth, presentMembers_of_bracket hx (Or.inl hopens) hfirst,
    List.singleton_append, List.length_cons]
  omega

end ComponentLint.Types
