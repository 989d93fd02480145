import ComponentLint.Proofs.BracketScan
import Mathlib.Data.List.Infix

/-!
# Balanced texts

The scans over a type's text count open brackets with one number for all kinds of brackets, and the
number stops at zero. What a text means by its brackets is said here without a scan: `surplus` is what
the brackets that open exceed those that close by, and in a balanced text no beginning has a negative
one. Over such a text the number never stops, and so it is the surplus of what was read
(`depthOver_eq`).
-/

namespace ComponentLint.Types

/-- By how many the brackets that open in a text exceed those that close. -/
def surplus (s : List Char) : Int := s.countP opens - s.countP closes

@[simp] theorem surplus_nil : surplus [] = 0 := rfl

theorem surplus_append (s t : List Char) : surplus (s ++ t) = surplus s + surplus t := by
  simp only [surplus, List.countP_append]
  omega

theorem surplus_cons (c : Char) (s : List Char) : surplus (c :: s) = surplus [c] + surplus s :=
  surplus_append [c] s

theorem surplus_of_inert {c : Char} (ho : opens c = false) (hc : closes c = false) :
    surplus [c] = 0 := by
  simp [surplus, ho, hc]

/-- Every bracket that closes has one open before it, and all are closed in the end. -/
structure Balanced (s : List Char) : Prop where
  before : ∀ p, p <+: s → 0 ≤ surplus p
  total : surplus s = 0

instance (s : List Char) : Decidable (Balanced s) :=
  decidable_of_iff ((∀ p ∈ s.inits, 0 ≤ surplus p) ∧ surplus s = 0) (by
    simp only [List.mem_inits]
    exact ⟨fun h => ⟨h.1, h.2⟩, fun h => ⟨h.before, h.total⟩⟩)

/-! ## Places in a text -/

/-- Whether what stands before and what stands behind is in a relation, wherever a character
occurs. -/
def AtEach (c : Char) (P : List Char → List Char → Prop) (s : List Char) : Prop :=
  ∀ p q, s = p ++ c :: q → P p q

instance (c : Char) (P : List Char → List Char → Prop) [∀ p q, Decidable (P p q)] (s : List Char) :
    Decidable (AtEach c P s) :=
  decidable_of_iff (∀ i ∈ List.range s.length, s[i]? = some c → P (s.take i) (s.drop (i + 1))) (by
    constructor
    · rintro h p q rfl
      have hplace := h p.length (by simp) (by simp)
      rw [← List.drop_drop, List.drop_left, List.take_left] at hplace
      exact hplace
    · intro h i hi hc
      obtain ⟨hlt, heq⟩ := List.getElem?_eq_some_iff.mp hc
      refine h (s.take i) (s.drop (i + 1)) ?_
      rw [← heq, List.getElem_cons_drop, List.take_append_drop])

theorem AtEach.tail {c e : Char} {P : List Char → List Char → Prop} {s : List Char}
    (h : AtEach c P (e :: s)) : AtEach c (fun p q => P (e :: p) q) s := by
  rintro p q rfl
  exact h (e :: p) q rfl

/-! ## Depth -/

section Depth

variable {d : Nat} {c : Char} {s : List Char}

theorem depthAfter_eq (h : 0 ≤ (d : Int) + surplus [c]) :
    (depthAfter d c : Int) = d + surplus [c] := by
  cases ho : opens c with
  | true =>
    rw [depthAfter_of_opens ho]
    simp [surplus, ho, closes_of_opens ho]
  | false =>
    cases hc : closes c with
    | true =>
      simp only [surplus, List.countP_singleton, ho, hc] at h ⊢
      rw [depthAfter_of_closes hc]
      simp at h ⊢
      omega
    | false =>
      rw [depthAfter_of_inert ho hc, surplus_of_inert ho hc]
      omega

/-- What holds of the beginnings of a text holds behind its first character. -/
theorem surplus_rest (h : ∀ p, p <+: c :: s → 0 ≤ (d : Int) + surplus p) :
    (depthAfter d c : Int) = d + surplus [c] ∧
      ∀ p, p <+: s → 0 ≤ (depthAfter d c : Int) + surplus p := by
  have hfirst : (depthAfter d c : Int) = d + surplus [c] :=
    depthAfter_eq (h [c] (List.prefix_append [c] s))
  refine ⟨hfirst, fun p hp => ?_⟩
  have hlonger := h (c :: p) ((List.prefix_cons_inj c).mpr hp)
  rw [surplus_cons] at hlonger
  rw [hfirst]
  omega

/-- If no bracket closes that is not open, the number that a scan counts does not stop at zero. -/
theorem depthOver_eq (h : ∀ p, p <+: s → 0 ≤ (d : Int) + surplus p) :
    (depthOver d s : Int) = d + surplus s := by
  induction s generalizing d with
  | nil => simp
  | cons c s ih =>
    obtain ⟨hfirst, hrest⟩ := surplus_rest h
    rw [depthOver_cons, ih hrest, hfirst, surplus_cons c s]
    omega

theorem Balanced.depthOver_eq_zero (h : Balanced s) : depthOver 0 s = 0 := by
  have hdepth : (depthOver 0 s : Int) = (0 : Nat) + surplus s :=
    depthOver_eq fun p hp => by simpa using h.before p hp
  rw [h.total] at hdepth
  omega

end Depth

end ComponentLint.Types
