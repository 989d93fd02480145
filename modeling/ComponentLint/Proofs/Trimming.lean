import ComponentLint.Text.Blank
import Mathlib.Data.List.Basic
import Mathlib.Data.List.TakeWhile

/-!
# Blanks at the ends of a text

Trimming takes off the blanks around a text and nothing else (`trim_blanks`). So it can be read off
the ends of a text: one that neither begins nor ends with a blank is left alone, also when it is
written of several such texts (`Trimmed.intercalate`).
-/

namespace ComponentLint.Text

/-- Of two different characters in a text one stands before the other. -/
theorem append_cons_eq_append_cons {p q : Char} {x y a b : List Char} (hne : p ≠ q)
    (h : x ++ p :: y = a ++ q :: b) :
    (∃ r, x = a ++ q :: r ∧ b = r ++ p :: y) ∨ ∃ r, a = x ++ p :: r ∧ y = r ++ q :: b := by
  rcases List.append_eq_append_iff.mp h with ⟨r, ha, hr⟩ | ⟨r, hx, hr⟩
  · cases r with
    | nil => exact absurd (List.cons.inj hr).1 hne
    | cons e r =>
      obtain ⟨rfl, hy⟩ := List.cons.inj hr
      exact Or.inr ⟨r, ha, hy⟩
  · cases r with
    | nil => exact absurd (List.cons.inj hr).1.symm hne
    | cons e r =>
      obtain ⟨rfl, hb⟩ := List.cons.inj hr
      exact Or.inl ⟨r, hx, hb⟩

/-- An end of two texts in a row is an end of the second one, or reaches into the first. -/
theorem suffix_append_cases {t p r : List Char} (h : t <:+ p ++ r) :
    t <:+ r ∨ ∃ t', t' <:+ p ∧ t = t' ++ r := by
  obtain ⟨u, hu⟩ := h
  rcases List.append_eq_append_iff.mp hu with ⟨w, rfl, rfl⟩ | ⟨w, -, rfl⟩
  · exact Or.inr ⟨w, List.suffix_append u w, rfl⟩
  · exact Or.inl (List.suffix_append w t)

/-! ## Trimming -/

/-- A text that neither begins nor ends with a blank. -/
structure Trimmed (s : List Char) : Prop where
  head : ∀ c ∈ s.head?, isBlank c = false
  last : ∀ c ∈ s.getLast?, isBlank c = false

instance (s : List Char) : Decidable (Trimmed s) :=
  decidable_of_iff (s.head?.all (!isBlank ·) = true ∧ s.getLast?.all (!isBlank ·) = true) (by
    simp only [Option.all_eq_true, Bool.not_eq_true']
    exact ⟨fun h => ⟨h.1, h.2⟩, fun h => ⟨h.head, h.last⟩⟩)

theorem dropWhile_append_blanks {a s : List Char} (ha : ∀ c ∈ a, isBlank c = true)
    (hs : ∀ c ∈ s.head?, isBlank c = false) : (a ++ s).dropWhile isBlank = s := by
  rw [List.dropWhile_append_of_pos ha]
  cases s with
  | nil => rfl
  | cons c s => rw [List.dropWhile_cons_of_neg (by simpa using hs c rfl)]

/-- Trimming takes off the blanks around a text and nothing else. -/
theorem trim_blanks {a s b : List Char} (ha : ∀ c ∈ a, isBlank c = true)
    (hb : ∀ c ∈ b, isBlank c = true) (hs : Trimmed s) : trim (a ++ s ++ b) = s := by
  have hstart : trimStart (a ++ (s ++ b)) = (s ++ b).dropWhile isBlank :=
    List.dropWhile_append_of_pos ha
  rw [trim, List.append_assoc, hstart]
  cases s with
  | nil =>
    have hnone : b.dropWhile isBlank = [] := List.dropWhile_eq_nil_iff.mpr hb
    rw [List.nil_append, hnone]
    rfl
  | cons c s =>
    rw [List.cons_append, List.dropWhile_cons_of_neg (by simpa using hs.head c rfl),
      ← List.cons_append, trimEnd, List.reverse_append, dropWhile_append_blanks, List.reverse_reverse]
    · exact fun x hx => hb x (List.mem_reverse.mp hx)
    · rw [List.head?_reverse]
      exact hs.last

theorem trim_of_trimmed {s : List Char} (hs : Trimmed s) : trim s = s := by
  simpa using trim_blanks (a := []) (b := []) (by simp) (by simp) hs

theorem mem_dropWhile_of_mem {p : Char → Bool} {c : Char} {s : List Char} (h : c ∈ s)
    (hc : p c = false) : c ∈ s.dropWhile p := by
  rw [← List.takeWhile_append_dropWhile (p := p) (l := s), List.mem_append] at h
  rcases h with h | h
  · have hp := List.mem_takeWhile_imp h
    rw [hc] at hp
    cases hp
  · exact h

/-- A character that is no blank is not trimmed. -/
theorem mem_trim_of_mem {c : Char} {s : List Char} (h : c ∈ s) (hc : isBlank c = false) :
    c ∈ trim s := by
  have hstart : c ∈ trimStart s := mem_dropWhile_of_mem h hc
  exact List.mem_reverse.mpr (mem_dropWhile_of_mem (List.mem_reverse.mpr hstart) hc)

/-! ## Blanks -/

/-- A text of blanks only. -/
def AllBlank (s : List Char) : Prop := ∀ c ∈ s, isBlank c = true

instance (s : List Char) : Decidable (AllBlank s) :=
  decidable_of_iff (s.all isBlank = true) List.all_eq_true

theorem not_allBlank {s : List Char} {c : Char} (h : c ∈ s) (hc : isBlank c = false) :
    ¬ AllBlank s := by
  intro hall
  rw [hall c h] at hc
  cases hc

theorem trimEnd_append (s z : List Char) :
    (AllBlank z ∧ trimEnd (s ++ z) = trimEnd s) ∨
      (trimEnd z ≠ [] ∧ trimEnd (s ++ z) = s ++ trimEnd z) := by
  simp only [trimEnd, List.reverse_append, List.dropWhile_append, List.isEmpty_iff]
  split_ifs with hz
  · refine Or.inl ⟨fun c hc => ?_, rfl⟩
    exact List.dropWhile_eq_nil_iff.mp hz c (List.mem_reverse.mpr hc)
  · refine Or.inr ⟨by simpa using hz, ?_⟩
    rw [List.reverse_append, List.reverse_reverse]

theorem trimStart_of_head {c : Char} {s : List Char} (hc : isBlank c = false) :
    trimStart (c :: s) = c :: s :=
  List.dropWhile_cons_of_neg (by simpa using hc)

theorem trimStart_append {b : List Char} (hb : AllBlank b) (s : List Char) :
    trimStart (b ++ s) = trimStart s :=
  List.dropWhile_append_of_pos hb

theorem trimStart_append_of_not {s : List Char} (hs : ¬ AllBlank s) (z : List Char) :
    trimStart (s ++ z) = trimStart s ++ z := by
  have hsome : (s.dropWhile isBlank).isEmpty = false := by
    rw [List.isEmpty_eq_false_iff]
    exact fun h => hs (List.dropWhile_eq_nil_iff.mp h)
  rw [trimStart, List.dropWhile_append, hsome]
  rfl

theorem trimStart_append_cons {c : Char} (hc : isBlank c = false) (s z : List Char) :
    trimStart (s ++ c :: z) = trimStart s ++ c :: z := by
  by_cases hs : AllBlank s
  · have hnone : trimStart s = [] := List.dropWhile_eq_nil_iff.mpr hs
    rw [trimStart_append hs, trimStart_of_head hc, hnone, List.nil_append]
  · exact trimStart_append_of_not hs _

theorem trimEnd_append_of_not {z : List Char} (hz : ¬ AllBlank z) (s : List Char) :
    trimEnd (s ++ z) = s ++ trimEnd z := by
  rcases trimEnd_append s z with ⟨hall, -⟩ | ⟨-, h⟩
  · exact absurd hall hz
  · exact h

theorem trimEnd_cons {c : Char} (hc : isBlank c = false) (z : List Char) :
    trimEnd (c :: z) = c :: trimEnd z := by
  by_cases hz : AllBlank z
  · have hnone : trimEnd z = [] := by
      rw [trimEnd, List.reverse_eq_nil_iff, List.dropWhile_eq_nil_iff]
      exact fun x hx => hz x (List.mem_reverse.mp hx)
    rcases trimEnd_append [c] z with ⟨-, h⟩ | ⟨h, -⟩
    · rw [← List.singleton_append, h, hnone]
      simp [trimEnd, hc]
    · exact absurd hnone h
  · exact trimEnd_append_of_not hz [c]

theorem trimEnd_prefix (s : List Char) : trimEnd s <+: s := by
  have h := List.dropWhile_suffix isBlank (l := s.reverse)
  rw [← List.reverse_prefix, List.reverse_reverse] at h
  exact h

/-- What is left by trimming neither begins nor ends with a blank. -/
theorem trimmed_trim (s : List Char) : Trimmed (trim s) where
  head := by
    intro c hc
    obtain ⟨more, hmore⟩ := trimEnd_prefix (trimStart s)
    have hnot := List.head?_dropWhile_not isBlank s
    rw [← trimStart, ← hmore, ← trim, List.head?_append, Option.mem_def.mp hc] at hnot
    simpa using hnot
  last := by
    intro c hc
    have hnot := List.head?_dropWhile_not isBlank (trimStart s).reverse
    rw [trim, trimEnd, List.getLast?_reverse] at hc
    rw [Option.mem_def.mp hc] at hnot
    simpa using hnot

/-- What stands between two texts that are not blank is not trimmed. -/
theorem mem_trim_of_between {s z : List Char} (hs : ¬ AllBlank s) (c : Char)
    (hz : ¬ AllBlank z) : c ∈ trim (s ++ c :: z) := by
  rw [trim, trimStart_append_of_not hs, ← List.singleton_append, ← List.append_assoc,
    trimEnd_append_of_not hz]
  simp

/-- The first character that is no blank begins the trimmed text. -/
theorem head?_trim {b s : List Char} {c : Char} (hb : AllBlank b) (hc : isBlank c = false) :
    (trim (b ++ c :: s)).head? = some c := by
  rw [trim, trimStart_append hb, trimStart_of_head hc]
  rcases trimEnd_append [c] s with ⟨-, hs⟩ | ⟨-, hs⟩
  · have hone : trimEnd [c] = [c] := by simp [trimEnd, hc]
    rw [← List.singleton_append, hs, hone, List.head?_cons]
  · rw [← List.singleton_append, hs, List.singleton_append, List.head?_cons]

/-- Trimming leaves a trimmed text if there are only blanks around it, and only then. -/
theorem trim_eq_iff {b s z : List Char} (hb : AllBlank b) (hs : Trimmed s) (hne : s ≠ []) :
    trim (b ++ s ++ z) = s ↔ AllBlank z := by
  refine ⟨fun h => ?_, fun hz => trim_blanks hb hz hs⟩
  obtain ⟨c, r, rfl⟩ := List.exists_cons_of_ne_nil hne
  rw [trim, List.append_assoc, trimStart_append hb, List.cons_append,
    trimStart_of_head (hs.head c rfl), ← List.cons_append] at h
  rcases trimEnd_append (c :: r) z with ⟨hz, -⟩ | ⟨hz, heq⟩
  · exact hz
  · rw [heq, List.append_right_eq_self] at h
    exact absurd h hz

theorem length_trim_le {b : List Char} (hb : AllBlank b) (s : List Char) :
    (trim (b ++ s)).length ≤ s.length := by
  rw [trim, trimStart_append hb, trimEnd, List.length_reverse]
  refine (List.length_dropWhile_le _ _).trans ?_
  rw [List.length_reverse]
  exact List.length_dropWhile_le _ _

theorem trim_append_blanks {b : List Char} (hb : AllBlank b) (s : List Char) :
    trim (s ++ b) = trim s := by
  rw [trim, trim, trimStart, List.dropWhile_append]
  split_ifs with hs
  · rw [List.isEmpty_iff] at hs
    have hnone : b.dropWhile isBlank = [] := List.dropWhile_eq_nil_iff.mpr hb
    rw [hnone, trimStart, hs]
  · rcases trimEnd_append (s.dropWhile isBlank) b with ⟨-, h⟩ | ⟨h, -⟩
    · exact h
    · refine absurd ?_ h
      rw [trimEnd, List.reverse_eq_nil_iff, List.dropWhile_eq_nil_iff]
      exact fun c hc => hb c (List.mem_reverse.mp hc)

theorem trim_cons_blank {c : Char} (hc : isBlank c = true) (s : List Char) :
    trim (c :: s) = trim s := by
  rw [trim, trim, trimStart, List.dropWhile_cons_of_pos hc, ← trimStart]

/-- Only blanks are trimmed. -/
theorem exists_trim (s : List Char) : ∃ a b, AllBlank a ∧ AllBlank b ∧ s = a ++ (trim s ++ b) := by
  refine ⟨s.takeWhile isBlank, ((trimStart s).reverse.takeWhile isBlank).reverse, ?_, ?_, ?_⟩
  · exact fun c hc => List.mem_takeWhile_imp hc
  · exact fun c hc => List.mem_takeWhile_imp (List.mem_reverse.mp hc)
  · rw [trim, trimEnd, ← List.reverse_append, List.takeWhile_append_dropWhile, List.reverse_reverse,
      trimStart, List.takeWhile_append_dropWhile]

/-! ## Texts written together -/

theorem Trimmed.around {s t : List Char} (hs : Trimmed s) (hs' : s ≠ []) (m : List Char)
    (ht : Trimmed t) (ht' : t ≠ []) : Trimmed (s ++ (m ++ t)) where
  head := by
    rw [List.head?_append_of_ne_nil s hs']
    exact hs.head
  last := by
    rw [← List.append_assoc, List.getLast?_append_of_ne_nil (s ++ m) ht']
    exact ht.last

theorem Trimmed.intercalate {texts : List (List Char)} (h : ∀ s ∈ texts, Trimmed s ∧ s ≠ [])
    (hne : texts ≠ []) (separator : List Char) :
    Trimmed (separator.intercalate texts) ∧ separator.intercalate texts ≠ [] := by
  induction texts with
  | nil => exact absurd rfl hne
  | cons s texts ih =>
    obtain ⟨⟨hs, hs'⟩, htexts⟩ := List.forall_mem_cons.mp h
    cases texts with
    | nil =>
      rw [List.intercalate_singleton]
      exact ⟨hs, hs'⟩
    | cons t texts =>
      obtain ⟨ht, ht'⟩ := ih htexts (List.cons_ne_nil t texts)
      rw [List.intercalate_cons_cons, List.append_assoc]
      exact ⟨hs.around hs' separator ht ht', List.append_ne_nil_of_left_ne_nil hs' _⟩

/-- A text is shorter than others that are written with it. -/
theorem length_lt_intercalate {texts : List (List Char)} {s separator : List Char} (hs : s ∈ texts)
    (hmany : 1 < texts.length) (hsep : separator ≠ []) :
    s.length < (separator.intercalate texts).length := by
  have hpos := List.length_pos_iff.mpr hsep
  induction texts with
  | nil => exact absurd hs List.not_mem_nil
  | cons t texts ih =>
    cases texts with
    | nil => exact absurd hmany (by simp)
    | cons t' texts =>
      rw [List.intercalate_cons_cons, List.length_append, List.length_append]
      rcases List.mem_cons.mp hs with rfl | hs
      · omega
      · cases texts with
        | nil =>
          obtain rfl := List.mem_singleton.mp hs
          rw [List.intercalate_singleton]
          omega
        | cons t'' texts =>
          have hrest := ih hs (by simp)
          omega

end ComponentLint.Text
