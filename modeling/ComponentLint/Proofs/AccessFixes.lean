import ComponentLint.Proofs.AccessReports
import ComponentLint.Proofs.TreeEdits

/-!
# Rounds of fixes

The fix of an access puts a call in its place and keeps receiver and key. A program is fixed in
rounds, each of which makes some of the fixes that are then proposed. A fix can bring about a new
report: `rows[x[0]]` is none, but `rows[x.at(0)]` is one. The number of accesses with brackets,
reported or not, is what becomes smaller in every round.
-/

namespace ComponentLint.ArrayAccess

open Script (Edit Expr Node Program)

/-- Whether an expression is an access with brackets. -/
def isAccess : Expr → Bool
  | .index _ _ _ _ => true
  | _ => false

/-- The number of accesses with brackets in a program. -/
def accesses (p : Program) : Nat := p.expressions.countP isAccess

/-- The call that the fix of an access stands for. The question mark of an optional access belongs
to the member that is called. -/
def atCall : Expr → Expr
  | .index span object key optional => .call span (.member span object "at" optional) [] [key] false
  | e => e

/-- The fixes of the accesses at chosen places. -/
def fixing (chosen : List Nat → Bool) : Edit :=
  fun place e => if chosen place then atCall e else e

/-- An access is reported at a place. -/
def ReportedAt (file : SourceFile) (place : List Nat) : Prop :=
  ∃ e d, file.program.at? place = some (.expr e) ∧
    checkAccess file.source file.types e = some d

/-- One round: some of the reported accesses are fixed, and the file is read again. -/
structure Round (chosen : List Nat → Bool) (before after : SourceFile) : Prop where
  /-- A fix is made. -/
  any : ∃ place, chosen place = true
  /-- Only reported accesses are fixed. -/
  reported : ∀ place, chosen place = true → ReportedAt before place
  /-- What the fixes stand for is done. -/
  fixed : after.program = before.program.edit (fixing chosen)
  /-- The files are judged with types, or both are judged without. -/
  mode : after.types.isSome = before.types.isSome

/-- A number of rounds, one after the other. -/
inductive Rounds : Nat → SourceFile → SourceFile → Prop where
  | none (file) : Rounds 0 file file
  | more {n chosen before next after} (h : Round chosen before next) (hs : Rounds n next after) :
    Rounds (n + 1) before after

/-! ## The measure -/

theorem stable_isAccess : Node.Stable isAccess := by
  intro f e
  cases e <;> rfl

/-- The call has the accesses of receiver and key, and is none itself. -/
theorem count_atCall {e : Expr} (h : isAccess e = true) :
    (Node.expr (atCall e)).count isAccess + 1 = (Node.expr e).count isAccess := by
  unfold isAccess at h
  split at h
  · next span object key optional =>
    have haccess : (Node.expr (.index span object key optional)).children =
        Node.exprs [object, key] := rfl
    have hcall : (Node.expr (.call span (.member span object "at" optional) [] [key]
        false)).children = Node.exprs [.member span object "at" optional, key] := rfl
    have hmember : (Node.expr (.member span object "at" optional)).children =
        Node.exprs [object] := rfl
    simp only [Node.count, Node.walk_expr, atCall, Node.walk_of_exprs haccess,
      Node.walk_of_exprs hcall, Node.walk_of_exprs hmember, List.flatMap_cons, List.flatMap_nil,
      List.append_nil, List.countP_cons, List.countP_append, isAccess]
    simp only [Bool.false_eq_true, if_false, if_true, Nat.add_zero]
  · cases h

theorem atCall_of_not_isAccess {e : Expr} (h : ¬ isAccess e = true) : atCall e = e := by
  unfold atCall
  split
  · exact absurd rfl h
  · rfl

theorem spares_fixing (chosen : List Nat → Bool) : Node.Spares isAccess (fixing chosen) := by
  intro place e
  unfold fixing
  split_ifs with hchosen
  · by_cases he : isAccess e = true
    · have hcount := count_atCall he
      omega
    · rw [atCall_of_not_isAccess he]
  · exact le_rfl

theorem isAccess_of_checkAccess {source : List Char} {types : Option TypeQuery} {e : Expr}
    {d : Diagnostic} (h : checkAccess source types e = some d) : isAccess e = true := by
  obtain ⟨span, receiver, key, optional, rfl⟩ := eq_index_of_checkAccess h
  rfl

/-- Fixing accesses, at least one of which is reported, leaves fewer of them. -/
theorem accesses_fixing_lt {file : SourceFile} {chosen : List Nat → Bool} {place : List Nat}
    (hchosen : chosen place = true) (hplace : ReportedAt file place) :
    accesses (file.program.edit (fixing chosen)) < accesses file.program := by
  obtain ⟨e, d, he, hd⟩ := hplace
  refine Node.count_edit_lt stable_isAccess (spares_fixing chosen) he
    (isAccess_of_checkAccess hd) fun e' he' => ?_
  unfold fixing
  rw [if_pos hchosen]
  have hcount := count_atCall he'
  omega

theorem Round.accesses_lt {chosen : List Nat → Bool} {before after : SourceFile}
    (h : Round chosen before after) : accesses after.program < accesses before.program := by
  obtain ⟨place, hplace⟩ := h.any
  rw [h.fixed]
  exact accesses_fixing_lt hplace (h.reported place hplace)

/-- Every round of a sequence takes an access away. -/
theorem Rounds.add_accesses_le {n : Nat} {before after : SourceFile}
    (h : Rounds n before after) : n + accesses after.program ≤ accesses before.program := by
  induction h with
  | none file => rw [Nat.zero_add]
  | more hround _ ih =>
    have hless := hround.accesses_lt
    omega

/-! ## A single fix -/

/-- Nothing happens below the only place that is fixed. -/
theorem idle_under_place (place : List Nat) (i : Nat) :
    (((fixing (· == place)).under place).below i).Idle := by
  intro way e
  have hne : ¬ (place ++ i :: way == place) = true := by
    rw [beq_iff_eq]
    intro heq
    have hlength := congrArg List.length heq
    rw [List.length_append, List.length_cons] at hlength
    omega
  exact if_neg hne

/-- A single fix puts the call in the place of the access. -/
theorem at?_fixing {p : Program} {place : List Nat} {span : Span} {object key : Expr}
    {optional : Bool} (h : p.at? place = some (.expr (.index span object key optional))) :
    (p.edit (fixing (· == place))).at? place =
      some (.expr (.call span (.member span object "at" optional) [] [key] false)) := by
  have hway : ∀ q, q <+: place → q ≠ place → ∀ e, fixing (· == place) q e = e :=
    fun q _ hne e => if_neg (by rwa [beq_iff_eq])
  have hedit := Node.at?_edit hway (Node.program p)
  unfold Program.at? at h
  rw [h, Option.map_some] at hedit
  refine hedit.trans (congrArg some (congrArg Node.expr ?_))
  have hobject := object.rebuild_of_idle (idle_under_place place 0)
  have hkey := key.rebuild_of_idle (idle_under_place place 1)
  have hself : (fixing (· == place)).under place [] = atCall := by
    funext e
    unfold Edit.under fixing
    rw [List.append_nil]
    exact if_pos (beq_self_eq_true place)
  have hzero : ∀ e, (fixing (· == place)).under place [0] e = e := idle_under_place place 0 []
  have hone : ∀ e, (fixing (· == place)).under place [1] e = e := idle_under_place place 1 []
  unfold Expr.edit
  rw [hself, Expr.rebuild, hobject, hkey, hzero, hone, atCall]

/-- A single fix leaves what stands beside the access as it is. -/
theorem at?_fixing_of_not_prefix (p : Program) {place q : List Nat} (hq : ¬ q <+: place)
    (hplace : ¬ place <+: q) : (p.edit (fixing (· == place))).at? q = p.at? q := by
  have hway : ∀ r, r <+: q → r ≠ q → ∀ e, fixing (· == place) r e = e := by
    intro r hr _ e
    refine if_neg fun heq => hplace ?_
    rwa [← beq_iff_eq.mp heq]
  have hidle : ((fixing (· == place)).under q).Idle := by
    intro way e
    refine if_neg fun heq => hq ?_
    exact ⟨way, beq_iff_eq.mp heq⟩
  refine (Node.at?_edit hway (Node.program p)).trans ?_
  simp only [Node.edit_of_idle hidle]
  exact Option.map_id'

/-! ## The end of the rounds -/

/-- Nothing is found exactly if nothing is reported at any place. -/
theorem check_eq_nil_iff (file : SourceFile) :
    check file = [] ↔ ∀ place, ¬ ReportedAt file place := by
  obtain ⟨places, hplaces⟩ := (Node.program file.program).enumerates
  obtain ⟨kept, hkept⟩ := hplaces.filterMap (checkAccess file.source file.types)
  have hlength : kept.length = (check file).length := by
    rw [check_eq]
    exact hkept.located.length_eq
  constructor
  · rintro hnil place ⟨e, d, he, hd⟩
    have hmem : place ∈ kept := hkept.complete place e d (Node.expr?_eq_some_iff.mpr he) hd
    rw [hnil, List.length_nil] at hlength
    rw [List.length_eq_zero_iff.mp hlength] at hmem
    cases hmem
  · intro hnone
    rw [← List.length_eq_zero_iff, ← hlength, List.length_eq_zero_iff,
      List.eq_nil_iff_forall_not_mem]
    intro place hplace
    obtain ⟨e, d, he, hd⟩ := hkept.mem_iff.mp hplace
    exact hnone place ⟨e, d, Node.expr?_eq_some_iff.mp he, hd⟩

/-- A fix that can be made can be made alone. -/
theorem round_of_reportedAt {file : SourceFile} {place : List Nat} (h : ReportedAt file place) :
    Round (· == place) file { file with program := file.program.edit (fixing (· == place)) } where
  any := ⟨place, beq_self_eq_true place⟩
  reported := by
    intro q hq
    rwa [beq_iff_eq.mp hq]
  fixed := rfl
  mode := rfl

/-- Fixing an access in a key can make the outer access one that is reported. -/
theorem exists_new_report : ∃ chosen before after place, before.types = none ∧
    Round chosen before after ∧ ¬ ReportedAt before place ∧ ReportedAt after place := by
  let inner : Expr := .index ⟨5, 9⟩ (.name ⟨5, 6⟩ "x") (.number ⟨7, 8⟩ (.ofNat 0)) false
  let outer : Expr := .index ⟨0, 10⟩ (.name ⟨0, 4⟩ "rows") inner false
  let before : SourceFile :=
    ⟨"a.ts", "rows[x[0]]".toList, ⟨⟨0, 10⟩, [.expression ⟨0, 10⟩ outer], []⟩, none⟩
  have hinner : ReportedAt before [0, 0, 1] := ⟨inner, _, rfl, rfl⟩
  refine ⟨_, before, _, [0, 0], rfl, round_of_reportedAt hinner, ?_, _, _, rfl, rfl⟩
  rintro ⟨e, d, he, hd⟩
  obtain rfl : outer = e := Node.expr.inj (Option.some.inj he)
  cases hd

/-- A single fix replaces an access by the call it stands for and touches nothing beside it. Every
fix of a reported access leaves fewer accesses with brackets, and so does every round; there are no
more rounds than accesses at the beginning. A further round is possible exactly as long as something
is found, which may be something that was not found before. -/
theorem rounds_of_fixes_end :
    (∀ (p : Program) (place : List Nat) (span : Span) (object key : Expr) (optional : Bool),
      p.at? place = some (.expr (.index span object key optional)) →
      (p.edit (fixing (· == place))).at? place =
        some (.expr (.call span (.member span object "at" optional) [] [key] false)) ∧
      ∀ q, ¬ q <+: place → ¬ place <+: q → (p.edit (fixing (· == place))).at? q = p.at? q) ∧
    (∀ (file : SourceFile) (place : List Nat), ReportedAt file place →
      accesses (file.program.edit (fixing (· == place))) < accesses file.program) ∧
    (∀ n before after, Rounds n before after →
      n + accesses after.program ≤ accesses before.program) ∧
    (∀ file, check file = [] ↔ ∀ chosen after, ¬ Round chosen file after) ∧
    ∃ chosen before after place, before.types = none ∧
      Round chosen before after ∧ ¬ ReportedAt before place ∧ ReportedAt after place := by
  refine ⟨fun p place span object key optional hplace => ?_, fun file place hplace => ?_,
    fun n before after hrounds => hrounds.add_accesses_le, fun file => ?_, exists_new_report⟩
  · exact ⟨at?_fixing hplace, fun q hq hq' => at?_fixing_of_not_prefix p hq hq'⟩
  · exact accesses_fixing_lt (beq_self_eq_true place) hplace
  · rw [check_eq_nil_iff]
    constructor
    · intro hnone chosen after hround
      obtain ⟨place, hplace⟩ := hround.any
      exact hnone place (hround.reported place hplace)
    · intro hstop place hplace
      exact hstop _ _ (round_of_reportedAt hplace)

end ComponentLint.ArrayAccess
