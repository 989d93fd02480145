import ComponentLint.Proofs.TypeGrammar

/-!
# Scanning for the end of an annotation

`cutAtInitializer` copies a text up to an equals sign that it takes for the beginning of an initial
value. Either it copies a text whole and goes on behind it at some depth of brackets, or it ends
inside the text whatever follows (`cutFrom_append`). Blanks and the texts of all types are copied
whole and leave the depth as it was (`Passes`).
-/

namespace ComponentLint.Types

/-! ## Parts of a text -/

/-- Behind anything but an equals sign it makes no difference what was read before. -/
theorem cutFrom_of_head?_ne {t : List Char} (h : t.head? ≠ some '>') (d : Nat) (f : Bool) :
    cutFrom d f t = cutFrom d false t := by
  cases t with
  | nil => rfl
  | cons c t =>
    have hc : (c == '>') = false := by simpa using h
    simp only [cutFrom, hc, Bool.false_and, if_false, Bool.false_eq_true]

/-- The sign of an initial value ends the scan outside of brackets. -/
theorem cutFrom_sign {v : List Char} (h : v.head? ≠ some '>') (d : Nat) :
    cutFrom d false ('=' :: v) = if d = 0 then [] else '=' :: cutFrom d true v := by
  have hnext : (v.head? != some '>') = true := bne_iff_ne.mpr h
  by_cases hd : d = 0
  · simp [cutFrom, hd, hnext]
  · simp [cutFrom, hd, depthAfter, opens, closes]

/-- A text is copied whole, or the scan ends inside it. What follows has no part in that, if it does
not complete an arrow. -/
theorem cutFrom_append (d : Nat) (f : Bool) (s : List Char) :
    (∃ d', ∀ t, t.head? ≠ some '>' → cutFrom d f (s ++ t) = s ++ cutFrom d' false t) ∨
      ∃ p, p.length < s.length ∧ ∀ t, t.head? ≠ some '>' → cutFrom d f (s ++ t) = p := by
  induction s generalizing d f with
  | nil => exact Or.inl ⟨d, fun t ht => cutFrom_of_head?_ne ht d f⟩
  | cons c s ih =>
    have hstep : ∀ d₁ f₁, (∀ t, t.head? ≠ some '>' →
        cutFrom d f (c :: (s ++ t)) = c :: cutFrom d₁ f₁ (s ++ t)) →
        (∃ d', ∀ t, t.head? ≠ some '>' → cutFrom d f (c :: s ++ t) = c :: s ++ cutFrom d' false t) ∨
          ∃ p, p.length < (c :: s).length ∧
            ∀ t, t.head? ≠ some '>' → cutFrom d f (c :: s ++ t) = p := by
      intro d₁ f₁ hcons
      rcases ih d₁ f₁ with ⟨d', hwhole⟩ | ⟨p, hp, hpart⟩
      · refine Or.inl ⟨d', fun t ht => ?_⟩
        rw [List.cons_append, hcons t ht, hwhole t ht, List.cons_append]
      · refine Or.inr ⟨c :: p, Nat.succ_lt_succ hp, fun t ht => ?_⟩
        rw [List.cons_append, hcons t ht, hpart t ht]
    -- What follows is asked for an arrow only if `c` is the last character.
    have hnext : ∀ t : List Char, t.head? ≠ some '>' →
        ((s ++ t).head? != some '>') = (s.head? != some '>') := by
      intro t ht
      cases s with
      | nil => exact bne_iff_ne.mpr ht
      | cons e s => rfl
    by_cases harrow : (c == '>' && f) = true
    · refine hstep d false fun t _ => ?_
      rw [cutFrom, if_pos harrow]
    by_cases hsign : (c == '=' && d == 0 && s.head? != some '>') = true
    · refine Or.inr ⟨[], Nat.succ_pos _, fun t ht => ?_⟩
      rw [List.cons_append, cutFrom, if_neg harrow, hnext t ht, if_pos hsign]
    · refine hstep (depthAfter d c) (c == '=') fun t ht => ?_
      rw [cutFrom, if_neg harrow, hnext t ht, if_neg hsign]

/-- A text that is copied whole at every depth and leaves the depth as it was. -/
def Passes (s : List Char) : Prop := ∀ d t, cutFrom d false (s ++ t) = s ++ cutFrom d false t

theorem composes_passes : Composes Passes where
  nil := fun d t => rfl
  append := by
    intro s t hs ht d u
    rw [List.append_assoc, hs, ht, List.append_assoc]
  inert := by
    intro c ho hc he d t
    have hsign : (c == '=') = false := by simpa using he
    simp [cutFrom, hsign, depthAfter_of_inert ho hc]
  enclosed := by
    intro o c s ho hc hs d t
    have ho' : (o == '=') = false := by
      rw [beq_eq_false_iff_ne]
      rintro rfl
      cases ho
    have hc' : (c == '=') = false := by
      rw [beq_eq_false_iff_ne]
      rintro rfl
      cases hc
    have hopening : ∀ u, cutFrom d false (o :: u) = o :: cutFrom (d + 1) false u := by
      intro u
      simp [cutFrom, ho', depthAfter_of_opens ho]
    have hclosing : ∀ u, cutFrom (d + 1) false (c :: u) = c :: cutFrom d false u := by
      intro u
      simp [cutFrom, hc', depthAfter_of_closes hc]
    calc cutFrom d false (o :: s ++ [c] ++ t)
        = o :: cutFrom (d + 1) false (s ++ (c :: t)) := by
          rw [List.append_assoc, List.cons_append, hopening]
          rfl
      _ = o :: (s ++ c :: cutFrom d false t) := by rw [hs, hclosing]
      _ = o :: s ++ [c] ++ cutFrom d false t := by simp

theorem passes_arrow : Passes ['=', '>'] := by
  intro d t
  simp [cutFrom, depthAfter, opens, closes]

/-- The scan passes over every type, functions with their arrows included. -/
theorem passes_text (t : TypeExpr) : Passes t.text := composes_passes.text t (Or.inl passes_arrow)

theorem passes_blanks {b : List Char} (hb : Text.AllBlank b) : Passes b := by
  refine composes_passes.inert_text (List.all_eq_true.mpr fun c hc => ?_)
  obtain ⟨ho, hcl⟩ := inert_of_isBlank (hb c hc)
  have hsign : c ≠ '=' := by
    rintro rfl
    cases hb '=' hc
  simp [isInert, ho, hcl, hsign]

end ComponentLint.Types
