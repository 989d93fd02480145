import ComponentLint.Run
import Mathlib.Data.List.Basic
import Mathlib.Data.List.Pairwise
import Mathlib.Data.List.Sort

/-!
# The order of findings

`inOrder` is the stable sort by beginnings: the beginnings ascend, and findings with one beginning
stay as they were. These two facts determine the list (`IsStableSort.unique`), which makes them the
way to reason about it: what is left after findings of no interest have been dropped is again a
stable sort, and another order of the input shows only among findings with one beginning.
-/

namespace ComponentLint

/-- `sorted` is `found` in the order of beginnings, with findings that begin together left as they
were. -/
structure IsStableSort (found sorted : List Diagnostic) : Prop where
  /-- The beginnings ascend. -/
  ascending : sorted.Pairwise fun a b => a.span.start ≤ b.span.start
  /-- The findings with one beginning are the same in the same order. -/
  stable : ∀ n, sorted.filter (·.span.start == n) = found.filter (·.span.start == n)

namespace IsStableSort

/-- The first of two ascending lists with the same groups begins where the second does. -/
theorem head_start_le {found : List Diagnostic} {a b : Diagnostic} {s t : List Diagnostic}
    (hs : IsStableSort found (a :: s)) (ht : IsStableSort found (b :: t)) :
    a.span.start ≤ b.span.start := by
  have hb : b ∈ (b :: t).filter (·.span.start == b.span.start) := by simp
  rw [ht.stable, ← hs.stable] at hb
  rcases List.mem_cons.mp (List.mem_of_mem_filter hb) with rfl | hb'
  · exact le_refl _
  · exact (List.pairwise_cons.mp hs.ascending).1 b hb'

/-- Dropping the first finding of a stable sort gives a stable sort of the rest. -/
theorem tail {a : Diagnostic} {found s : List Diagnostic} (hs : IsStableSort (a :: found) (a :: s)) :
    IsStableSort found s := by
  refine ⟨(List.pairwise_cons.mp hs.ascending).2, fun n => ?_⟩
  have h := hs.stable n
  by_cases ha : a.span.start = n
  · simpa [ha] using h
  · simpa [ha] using h

/-- A list has only one stable sort. -/
theorem unique {found s t : List Diagnostic} (hs : IsStableSort found s)
    (ht : IsStableSort found t) : s = t := by
  -- Only the groups of `found` matter, so it is replaced by `s` itself before the induction.
  replace ht : IsStableSort s t := ⟨ht.ascending, fun n => by rw [ht.stable, hs.stable]⟩
  replace hs : IsStableSort s s := ⟨hs.ascending, fun _ => rfl⟩
  induction s generalizing t with
  | nil =>
    cases t with
    | nil => rfl
    | cons b t => exact absurd (ht.stable b.span.start) (by simp)
  | cons a s ih =>
    cases t with
    | nil => exact absurd (ht.stable a.span.start) (by simp)
    | cons b t =>
      have hab : a.span.start = b.span.start :=
        le_antisymm (head_start_le hs ht) (head_start_le ht hs)
      have hhead := ht.stable a.span.start
      simp only [List.filter_cons, hab, beq_self_eq_true, if_true, List.cons.injEq] at hhead
      obtain ⟨rfl, -⟩ := hhead
      rw [ih ht.tail hs.tail]

/-- Findings of no interest can be dropped before or after sorting. -/
theorem filter {found sorted : List Diagnostic} (h : IsStableSort found sorted)
    (p : Diagnostic → Bool) : IsStableSort (found.filter p) (sorted.filter p) := by
  refine ⟨h.ascending.filter p, fun n => ?_⟩
  rw [List.filter_filter, List.filter_filter]
  have hcomm : ∀ l : List Diagnostic, l.filter (fun d => d.span.start == n && p d) =
      (l.filter (·.span.start == n)).filter p := by
    intro l
    rw [List.filter_filter]
    congr 1
    funext d
    exact Bool.and_comm _ _
  rw [hcomm, hcomm, h.stable]

end IsStableSort

/-- Findings are put into stable order. -/
theorem inOrder_isStableSort (found : List Diagnostic) : IsStableSort found (inOrder found) := by
  have htrans : ∀ a b c : Diagnostic, decide (a.span.start ≤ b.span.start) →
      decide (b.span.start ≤ c.span.start) → decide (a.span.start ≤ c.span.start) := by
    intro a b c hab hbc
    simp only [decide_eq_true_eq] at *
    exact le_trans hab hbc
  have htotal : ∀ a b : Diagnostic, (decide (a.span.start ≤ b.span.start) ||
      decide (b.span.start ≤ a.span.start)) = true := by
    intro a b
    simp only [Bool.or_eq_true, decide_eq_true_eq]
    exact le_total _ _
  refine ⟨(List.pairwise_mergeSort htrans htotal found).imp (by simp), fun n => ?_⟩
  -- A group is sorted as it stands, so it survives as a sublist; it has no room to grow.
  have hgroup : (found.filter (·.span.start == n)).Pairwise
      (fun a b => decide (a.span.start ≤ b.span.start) = true) := by
    rw [List.pairwise_filter]
    refine List.pairwise_of_forall ?_
    intro a b ha hb
    simp only [beq_iff_eq] at ha hb
    simp [ha, hb]
  have hsub := (List.sublist_mergeSort htrans htotal hgroup List.filter_sublist).filter
    (·.span.start == n)
  rw [List.filter_filter, List.filter_congr (fun d _ => Bool.and_self _)] at hsub
  refine (hsub.eq_of_length ?_).symm
  exact ((List.mergeSort_perm found _).filter _).length_eq.symm

/-- Being in order is being the stable sort. -/
theorem isStableSort_iff {found sorted : List Diagnostic} :
    IsStableSort found sorted ↔ sorted = inOrder found := by
  constructor
  · intro h
    exact h.unique (inOrder_isStableSort found)
  · rintro rfl
    exact inOrder_isStableSort found

/-- No finding is lost or added by sorting. -/
theorem inOrder_perm (found : List Diagnostic) : (inOrder found).Perm found :=
  List.mergeSort_perm found _

/-- Sorting and dropping findings of no interest commute. -/
theorem filter_inOrder (found : List Diagnostic) (p : Diagnostic → Bool) :
    (inOrder found).filter p = inOrder (found.filter p) :=
  isStableSort_iff.mp ((inOrder_isStableSort found).filter p)

/-- What holds of any two findings in the order in which they were found holds of any two sorted
ones, if these may have changed places unless they begin together. -/
theorem pairwise_inOrder {found : List Diagnostic} {R S : Diagnostic → Diagnostic → Prop}
    (h : found.Pairwise R)
    (htogether : ∀ a b, R a b → a.span.start = b.span.start → S a b)
    (happart : ∀ a b, R a b ∨ R b a → a.span.start < b.span.start → S a b) :
    (inOrder found).Pairwise S := by
  obtain ⟨hascending, hstable⟩ := inOrder_isStableSort found
  rw [List.pairwise_iff_forall_sublist] at h hascending ⊢
  intro a b hab
  rcases Nat.lt_or_eq_of_le (hascending hab) with hlt | heq
  · have hmem : ∀ d ∈ [a, b], d ∈ found := fun d hd => (inOrder_perm found).subset (hab.subset hd)
    have hne : a ≠ b := by
      rintro rfl
      exact Nat.lt_irrefl _ hlt
    have hor : found.Pairwise fun x y => R x y ∨ R y x :=
      List.pairwise_iff_forall_sublist.mpr fun hxy => Or.inl (h hxy)
    have : Std.Symm fun x y => R x y ∨ R y x := ⟨fun _ _ => Or.symm⟩
    exact happart a b (hor.forall (hmem a (by simp)) (hmem b (by simp)) hne) hlt
  · -- Findings that begin together are the same in both lists.
    have hgroup := hab.filter (·.span.start == b.span.start)
    rw [hstable] at hgroup
    simp only [heq, beq_self_eq_true, List.filter_cons_of_pos, List.filter_nil] at hgroup
    exact htogether a b (h (hgroup.trans List.filter_sublist)) heq

/-- The beginnings in sorted findings do not depend on the order in which these were found. -/
theorem map_start_inOrder_of_perm {l m : List Diagnostic} (h : l.Perm m) :
    (inOrder l).map (·.span.start) = (inOrder m).map (·.span.start) := by
  have hperm : ((inOrder l).map (·.span.start)).Perm ((inOrder m).map (·.span.start)) :=
    (((inOrder_perm l).trans h).trans (inOrder_perm m).symm).map _
  have hsorted : ∀ k : List Diagnostic, ((inOrder k).map (·.span.start)).Pairwise (· ≤ ·) :=
    fun k => List.pairwise_map.mpr (inOrder_isStableSort k).ascending
  exact hperm.eq_of_pairwise (fun a b _ _ => le_antisymm) (hsorted l) (hsorted m)

/-- The findings with one beginning are, up to their order, those that were found. -/
theorem filter_start_inOrder_of_perm {l m : List Diagnostic} (h : l.Perm m) (n : Nat) :
    ((inOrder l).filter (·.span.start == n)).Perm ((inOrder m).filter (·.span.start == n)) := by
  rw [(inOrder_isStableSort l).stable, (inOrder_isStableSort m).stable]
  exact h.filter _

end ComponentLint
