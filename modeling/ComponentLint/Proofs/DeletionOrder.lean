import ComponentLint.Proofs.CallDeletion
import Mathlib.Logic.Function.Iterate

/-!
# The order of deletions

The calls of a selector can be deleted one at a time, at any place and in any order (`DeletesIn`).
Each deletion takes one parenthesis that opens (`Deletes.count_open`), so deletions come to an end, and
since what is left in the end is always the same, all ways to get there have the same length
(`DeletesIn.rest`). `deleteCalls` is one of them: a pass over a text deletes some of its calls until a
pass finds none, and the passes are no more than the parentheses that open.
-/

namespace ComponentLint.Selector

/-- The given number of calls is deleted, one after another. -/
inductive DeletesIn : Nat → List Char → List Char → Prop
  | none (s : List Char) : DeletesIn 0 s s
  | next {n : Nat} {s t u : List Char} (hstep : Deletes s t) (rest : DeletesIn n t u) :
      DeletesIn (n + 1) s u

theorem DeletesIn.reduces {n : Nat} {s t : List Char} (h : DeletesIn n s t) : Reduces s t := by
  induction h with
  | none s => exact .refl
  | next hstep _ ih => exact Relation.ReflTransGen.head hstep ih

theorem exists_deletesIn {s t : List Char} (h : Reduces s t) : ∃ n, DeletesIn n s t := by
  induction h using Relation.ReflTransGen.head_induction_on with
  | refl => exact ⟨0, .none t⟩
  | head hstep _ ih =>
    obtain ⟨n, hn⟩ := ih
    exact ⟨n + 1, .next hstep hn⟩

/-! ## Counting deletions -/

theorem IsCall.count_open {m : List Char} (hm : IsCall m) : m.count '(' = 1 := by
  obtain ⟨n, a, hn, ha⟩ := hm
  have hname : n.count '(' = 0 := List.count_eq_zero_of_not_mem (hn.notMem (by decide))
  have harguments : a.count '(' = 0 :=
    List.count_eq_zero_of_not_mem fun hmem => (ne_of_isArgumentChar (ha '(' hmem)).1 rfl
  simp [hname, harguments]

/-- A deletion takes one parenthesis that opens. -/
theorem Deletes.count_open {s t : List Char} (h : Deletes s t) :
    s.count '(' = t.count '(' + 1 := by
  obtain ⟨u, m, v, hm⟩ := h
  have hone := hm.count_open
  simp only [List.count_append]
  omega

theorem DeletesIn.count_open {n : Nat} {s t : List Char} (h : DeletesIn n s t) :
    s.count '(' = t.count '(' + n := by
  induction h with
  | none s => rfl
  | next hstep _ ih =>
    have hone := hstep.count_open
    omega

/-- However deletions have begun, they can go on to what `deleteCalls` leaves, and the number of
those that are still to be made does not depend on how they go on. -/
theorem DeletesIn.rest {i n : Nat} {s t : List Char} (h : DeletesIn i s t)
    (hall : DeletesIn n s (deleteCalls s)) :
    ∃ j, DeletesIn j t (deleteCalls s) ∧ i + j = n := by
  have hsame : deleteCalls s = deleteCalls t :=
    deleteCalls_eq (h.reduces.trans (reduces_deleteCalls t)) (callFree_deleteCalls t)
  obtain ⟨j, hj⟩ := exists_deletesIn (reduces_deleteCalls t)
  rw [← hsame] at hj
  refine ⟨j, hj, ?_⟩
  -- A way from `s` to the end is as long as the parentheses that it takes are many.
  have hs := hall.count_open
  have hi := h.count_open
  have ht := hj.count_open
  omega

/-! ## Passes -/

theorem deleteAll_pseudoCall_eq_self_iff {s : List Char} :
    deleteAll pseudoCall s = s ↔ CallFree s := by
  constructor
  · intro h
    exact callFree_iff.mpr (piece_eq_zero_of_length_le pseudoCall_le (by rw [h]))
  · intro h
    exact h.eq_of_reduces (reduces_deleteAll s)

/-- A pass over a text with calls takes at least one parenthesis that opens. -/
theorem count_open_deleteAll_lt {s : List Char} (h : ¬ CallFree s) :
    (deleteAll pseudoCall s).count '(' < s.count '(' := by
  obtain ⟨n, hn⟩ := exists_deletesIn (reduces_deleteAll s)
  have hcount := hn.count_open
  have hpos : n ≠ 0 := by
    rintro rfl
    generalize ht : deleteAll pseudoCall s = t at hn
    cases hn with
    | none => exact h (deleteAll_pseudoCall_eq_self_iff.mp ht)
  omega

/-- The passes find calls for some time, and then no more. -/
theorem exists_last_pass (s : List Char) :
    ∃ k, k ≤ s.count '(' ∧ (deleteAll pseudoCall)^[k] s = deleteCalls s ∧
      ∀ j, (deleteAll pseudoCall)^[j + 1] s = (deleteAll pseudoCall)^[j] s ↔ k ≤ j := by
  fun_induction deleteCalls s with
  | case1 s hshorter ih =>
    obtain ⟨k, hk, hleft, hfixed⟩ := ih
    have hchanged : deleteAll pseudoCall s ≠ s := by
      intro h
      rw [h] at hshorter
      exact Nat.lt_irrefl _ hshorter
    have hcount := count_open_deleteAll_lt (deleteAll_pseudoCall_eq_self_iff.not.mp hchanged)
    refine ⟨k + 1, by omega, hleft, fun j => ?_⟩
    -- After the first pass, the passes are those over what it leaves.
    cases j with
    | zero => exact iff_of_false hchanged (by omega)
    | succ j =>
      have hrest := hfixed j
      rw [← Function.iterate_succ_apply, ← Function.iterate_succ_apply] at hrest
      rw [hrest, Nat.succ_le_succ_iff]
  | case2 s hlength =>
    have hfree := piece_eq_zero_of_length_le pseudoCall_le (Nat.not_lt.mp hlength)
    have hfixed := deleteAll_pseudoCall_eq_self_iff.mpr (callFree_iff.mpr hfree)
    refine ⟨0, Nat.zero_le _, rfl, fun j => iff_of_true ?_ (Nat.zero_le j)⟩
    rw [Function.iterate_succ_apply, hfixed]

/-- On every text the passes come to an end, after no more of them than parentheses open in it. They
leave what `deleteCalls` gives, and no part of that is a call. Calls can be deleted one at a time as
well: after a number of deletions that is the same for every order no call is left, and not before,
and then the text is what `deleteCalls` gives. -/
theorem deleteCalls_any_order (s : List Char) :
    (∃ k, k ≤ s.count '(' ∧ (deleteAll pseudoCall)^[k] s = deleteCalls s ∧
      ∀ j, (deleteAll pseudoCall)^[j + 1] s = (deleteAll pseudoCall)^[j] s ↔ k ≤ j) ∧
    (¬ ∃ u m v, IsCall m ∧ deleteCalls s = u ++ m ++ v) ∧
    ∃ n, n ≤ s.count '(' ∧ DeletesIn n s (deleteCalls s) ∧
      ∀ i t, DeletesIn i s t →
        i ≤ n ∧ (CallFree t ↔ i = n) ∧ (CallFree t → t = deleteCalls s) := by
  refine ⟨exists_last_pass s, ?_, ?_⟩
  · rintro ⟨u, m, v, hm, heq⟩
    refine callFree_deleteCalls s (u ++ v) ?_
    rw [heq]
    exact .mk u m v hm
  · obtain ⟨n, hn⟩ := exists_deletesIn (reduces_deleteCalls s)
    have hcount := hn.count_open
    refine ⟨n, by omega, hn, fun i t hi => ?_⟩
    obtain ⟨j, hj, hsum⟩ := hi.rest hn
    have hleft : CallFree t → t = deleteCalls s := fun ht => (ht.eq_of_reduces hj.reduces).symm
    refine ⟨by omega, ⟨fun ht => ?_, fun heq => ?_⟩, hleft⟩
    · have hend := hj.count_open
      rw [← hleft ht] at hend
      omega
    · obtain rfl : j = 0 := by omega
      cases hj with
      | none => exact callFree_deleteCalls s

end ComponentLint.Selector
