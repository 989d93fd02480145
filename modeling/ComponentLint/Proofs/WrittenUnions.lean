import ComponentLint.Proofs.BalancedTexts
import ComponentLint.Proofs.UnionTexts

/-!
# Unions as they are written

A union is written from its members with a bar between any two of them, blanks around the bars as one
likes and one more bar in front if wanted (`Joined`, `LeadingBar`). If the brackets of every member
are balanced and its bars stand inside of them, the members are found again, all of them and in order
(`unionMembers_joined`).
-/

namespace ComponentLint.Types

/-- A text that can be a member of a union: something between two blanks whose brackets are balanced,
with bars inside of them only. -/
structure IsUnionMember (m : List Char) : Prop where
  ne_nil : m ≠ []
  trimmed : Text.Trimmed m
  balanced : Balanced m
  bars : AtEach '|' (fun p _ => surplus p ≠ 0) m

instance (m : List Char) : Decidable (IsUnionMember m) :=
  decidable_of_iff (m ≠ [] ∧ Text.Trimmed m ∧ Balanced m ∧ AtEach '|' (fun p _ => surplus p ≠ 0) m)
    ⟨fun h => ⟨h.1, h.2.1, h.2.2.1, h.2.2.2⟩, fun h => ⟨h.ne_nil, h.trimmed, h.balanced, h.bars⟩⟩

/-- Members with bars between them, and blanks around the bars and at both ends. -/
inductive Joined : List (List Char) → List Char → Prop
  | last {a m b : List Char} (ha : Text.AllBlank a) (hb : Text.AllBlank b) :
      Joined [m] (a ++ (m ++ b))
  | next {a m b s : List Char} {members : List (List Char)} (ha : Text.AllBlank a)
      (hb : Text.AllBlank b) (rest : Joined members s) :
      Joined (m :: members) (a ++ (m ++ (b ++ '|' :: s)))

/-- Nothing in front of a union, or a bar with blanks before it. -/
inductive LeadingBar : List Char → Prop
  | none : LeadingBar []
  | bar {a : List Char} (ha : Text.AllBlank a) : LeadingBar (a ++ ['|'])

/-! ## One member -/

theorem depthOver_of_blanks {b : List Char} (hb : Text.AllBlank b) (d : Nat) :
    depthOver d b = d := by
  induction b with
  | nil => rfl
  | cons c b ih =>
    obtain ⟨hc, hb⟩ := List.forall_mem_cons.mp hb
    rw [depthOver_cons, depthAfter_of_isBlank hc, ih hb]

namespace IsUnionMember

variable {m : List Char}

/-- A bar that the scan took to be outside of brackets would be there. -/
theorem showsBar_eq_false (h : IsUnionMember m) : showsBar 0 m = false := by
  by_contra hbar
  obtain ⟨p, q, rfl, hdepth, -⟩ := exists_first_bar (by simpa using hbar)
  have hprefixes : ∀ x, x <+: p → 0 ≤ ((0 : Nat) : Int) + surplus x := by
    intro x hx
    have hwhole := h.balanced.before x (hx.trans (List.prefix_append p _))
    simpa using hwhole
  have hsurplus := depthOver_eq hprefixes
  rw [hdepth] at hsurplus
  exact h.bars p q rfl (by omega)

theorem unionMembers_eq (h : IsUnionMember m) : unionMembers m = [m] := by
  have hsome : m.isEmpty = false := List.isEmpty_eq_false_iff.mpr h.ne_nil
  rw [unionMembers_of_not_showsBar h.showsBar_eq_false, Text.trim_of_trimmed h.trimmed, hsome]
  rfl

theorem depthOver_append_blanks (h : IsUnionMember m) {b : List Char} (hb : Text.AllBlank b) :
    depthOver 0 (m ++ b) = 0 := by
  rw [depthOver_append, h.balanced.depthOver_eq_zero]
  exact depthOver_of_blanks hb 0

end IsUnionMember

/-! ## Many members -/

theorem unionMembers_of_blanks {a : List Char} (ha : Text.AllBlank a) : unionMembers a = [] := by
  have h := unionMembers_blanks_append ha []
  rw [List.append_nil] at h
  rw [h]
  rfl

theorem Joined.unionMembers_eq {members : List (List Char)} {s : List Char} (h : Joined members s)
    (hmembers : ∀ m ∈ members, IsUnionMember m) : unionMembers s = members := by
  induction h with
  | @last a m b ha hb =>
    have hm := hmembers m List.mem_cons_self
    rw [unionMembers_blanks_append ha, unionMembers_append_blanks hb, hm.unionMembers_eq]
  | @next a m b s members ha hb _ ih =>
    obtain ⟨hm, hrest⟩ := List.forall_mem_cons.mp hmembers
    rw [unionMembers_blanks_append ha, ← List.append_assoc,
      unionMembers_append_bar (hm.depthOver_append_blanks hb), unionMembers_append_blanks hb,
      hm.unionMembers_eq, ih hrest, List.singleton_append]

theorem Joined.blank {members : List (List Char)} {s : List Char} (h : Joined members s) {c : Char}
    (hc : Text.isBlank c = true) : Joined members (c :: s) := by
  cases h with
  | last ha hb => exact Joined.last (List.forall_mem_cons.mpr ⟨hc, ha⟩) hb
  | next ha hb rest => exact Joined.next (List.forall_mem_cons.mpr ⟨hc, ha⟩) hb rest

/-- One way to write a union is with one blank on both sides of each bar. -/
theorem joined_intercalate {members : List (List Char)} (h : members ≠ []) :
    Joined members (bar.intercalate members) := by
  have hnone : Text.AllBlank [] := by simp [Text.AllBlank]
  have hone : Text.AllBlank [' '] := by decide
  induction members with
  | nil => exact absurd rfl h
  | cons m members ih =>
    cases members with
    | nil => simpa using Joined.last (m := m) hnone hnone
    | cons m' members =>
      have hrest := (ih (List.cons_ne_nil m' members)).blank (c := ' ') (by decide)
      have hnext := Joined.next (m := m) hnone hone hrest
      rw [List.intercalate_cons_cons, List.append_assoc]
      exact hnext

/-- The members of a union are found again in every text that it can be written as. -/
theorem unionMembers_joined {members : List (List Char)}
    (hmembers : ∀ m ∈ members, IsUnionMember m) :
    unionMembers (bar.intercalate members) = members ∧
    ∀ front s, LeadingBar front → Joined members s → unionMembers (front ++ s) = members := by
  constructor
  · by_cases hnone : members = []
    · rw [hnone]
      rfl
    · exact (joined_intercalate hnone).unionMembers_eq hmembers
  · intro front s hfront hs
    have hfound := hs.unionMembers_eq hmembers
    cases hfront with
    | none => exact hfound
    | @bar a ha =>
      have hdepth : depthOver 0 a = 0 := depthOver_of_blanks ha 0
      rw [List.append_assoc, List.singleton_append, unionMembers_append_bar hdepth,
        unionMembers_of_blanks ha, hfound, List.nil_append]

/-- Bars in brackets part nothing, and a bar in front of the first member adds none. -/
theorem unionMembers_joined_lines :
    unionMembers "\n  | Map<string, A | B>\n  | [C, (D | E)[]]|null ".toList =
      ["Map<string, A | B>".toList, "[C, (D | E)[]]".toList, "null".toList] := by
  have hmembers : ∀ m ∈ ["Map<string, A | B>".toList, "[C, (D | E)[]]".toList, "null".toList],
      IsUnionMember m := by decide +kernel
  have hfront : LeadingBar "\n  |".toList := .bar (a := "\n  ".toList) (by decide)
  have hjoined : Joined ["Map<string, A | B>".toList, "[C, (D | E)[]]".toList, "null".toList]
      " Map<string, A | B>\n  | [C, (D | E)[]]|null ".toList :=
    .next (a := [' ']) (b := "\n  ".toList) (by decide) (by decide)
      (.next (a := [' ']) (b := []) (by decide) (by decide)
        (.last (a := []) (b := [' ']) (by decide) (by decide)))
  exact (unionMembers_joined hmembers).2 _ _ hfront hjoined

end ComponentLint.Types
