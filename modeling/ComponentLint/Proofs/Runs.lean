import ComponentLint.Proofs.RuleNames
import ComponentLint.Proofs.StableOrder
import Mathlib

/-!
# Runs of a rule set

All rules share one context that the run empties after each of them. If it is empty at the
beginning, a run is the same as looking at the file with every rule alone: its findings are the
stable sort of what the rules find, each with the severity that is forced onto it, and it fails with
the first rule that fails.
-/

namespace ComponentLint

/-! ## One rule -/

namespace ConfiguredRule

theorem forced_eq (c : ConfiguredRule) (found : List Diagnostic) :
    c.forced found = found.map fun d => { d with severity := c.severity.getD d.severity } := by
  unfold forced
  cases c.severity with
  | none => simp
  | some severity => rfl

/-- A configured rule takes away what its rule finds alone, and leaves an empty sink. -/
theorem run_of_ok {c : ConfiguredRule} {ctx : LintContext} (hsink : ctx.reported = [])
    {found : List Diagnostic} (h : c.rule.check ctx.siblings ctx.file = .ok found) :
    c.run ctx = .ok (c.forced found) (ctx.adding [] (c.rule.probes ctx.file)) := by
  have hrun := c.rule.run_eq ctx
  rw [h] at hrun
  unfold run
  rw [Linting.bind_of_ok hrun, Linting.bind_of_ok (Linting.take_eq _)]
  simp [LintContext.adding, hsink, pure, EStateM.pure]

theorem run_of_error {c : ConfiguredRule} {ctx : LintContext} {e : ProbeFailure}
    (h : c.rule.check ctx.siblings ctx.file = .error e) :
    c.run ctx = .error e (ctx.adding [] (c.rule.probes ctx.file)) := by
  have hrun := c.rule.run_eq ctx
  rw [h] at hrun
  exact Linting.bind_of_error hrun

end ConfiguredRule

/-- Asking questions does not fill the sink. -/
theorem LintContext.reported_adding_nil {ctx : LintContext} (hsink : ctx.reported = [])
    (names : List String) : (ctx.adding [] names).reported = [] := by
  simp [LintContext.adding, hsink]

/-! ## All rules one after the other -/

/-- If every rule succeeds alone, the rules succeed one after the other and their findings are
joined. -/
theorem runAll_of_ok {rules : List ConfiguredRule} {ctx : LintContext} (hsink : ctx.reported = [])
    {found : Rule → List Diagnostic}
    (h : ∀ c ∈ rules, c.rule.check ctx.siblings ctx.file = .ok (found c.rule))
    (earlier : List Diagnostic) :
    runAll rules earlier ctx =
      .ok (earlier ++ rules.flatMap fun c => c.forced (found c.rule))
        (ctx.adding [] (rules.flatMap fun c => c.rule.probes ctx.file)) := by
  induction rules generalizing ctx earlier with
  | nil => simp [runAll, pure, EStateM.pure]
  | cons c rest ih =>
    have hfirst := ConfiguredRule.run_of_ok hsink (h c List.mem_cons_self)
    have hrest := ih (LintContext.reported_adding_nil hsink (c.rule.probes ctx.file))
      (fun c' hc' => h c' (List.mem_cons_of_mem c hc')) (earlier ++ c.forced (found c.rule))
    rw [runAll, Linting.bind_of_ok hfirst, hrest]
    simp

/-- The first rule that fails alone ends the run. -/
theorem runAll_of_error {before later : List ConfiguredRule} {c : ConfiguredRule}
    {ctx : LintContext} (hsink : ctx.reported = []) {e : ProbeFailure}
    (hbefore : ∀ b ∈ before, ∃ found, b.rule.check ctx.siblings ctx.file = .ok found)
    (h : c.rule.check ctx.siblings ctx.file = .error e) (earlier : List Diagnostic) :
    ∃ ctx', runAll (before ++ c :: later) earlier ctx = .error e ctx' := by
  induction before generalizing ctx earlier with
  | nil =>
    exact ⟨_, Linting.bind_of_error (ConfiguredRule.run_of_error h)⟩
  | cons b rest ih =>
    obtain ⟨found, hfound⟩ := hbefore b List.mem_cons_self
    obtain ⟨ctx', hctx'⟩ := ih (LintContext.reported_adding_nil hsink (b.rule.probes ctx.file))
      (fun b' hb' => hbefore b' (List.mem_cons_of_mem b hb')) h (earlier ++ b.forced found)
    refine ⟨ctx', ?_⟩
    rw [List.cons_append, runAll, Linting.bind_of_ok (ConfiguredRule.run_of_ok hsink hfound)]
    exact hctx'

namespace RuleSet

theorem judge_of_ok {set : RuleSet} {ctx : LintContext} (hsink : ctx.reported = [])
    {found : Rule → List Diagnostic}
    (h : ∀ c ∈ set.rules, c.rule.check ctx.siblings ctx.file = .ok (found c.rule)) :
    set.judge.outcome ctx =
      .ok ⟨inOrder (set.rules.flatMap fun c => c.forced (found c.rule))⟩ := by
  unfold Linting.outcome judge
  rw [Linting.bind_of_ok (runAll_of_ok hsink h [])]
  simp [pure, EStateM.pure]

theorem judge_of_error {set : RuleSet} {ctx : LintContext} (hsink : ctx.reported = [])
    {before later : List ConfiguredRule} {c : ConfiguredRule} {e : ProbeFailure}
    (hrules : set.rules = before ++ c :: later)
    (hbefore : ∀ b ∈ before, ∃ found, b.rule.check ctx.siblings ctx.file = .ok found)
    (h : c.rule.check ctx.siblings ctx.file = .error e) : set.judge.outcome ctx = .error e := by
  obtain ⟨ctx', hrun⟩ : ∃ ctx', runAll (before ++ c :: later) [] ctx = .error e ctx' :=
    runAll_of_error hsink hbefore h []
  unfold Linting.outcome judge
  rw [hrules, Linting.bind_of_error hrun]

/-- A run with a result is one in which every rule succeeds alone, and its findings are theirs. -/
theorem exists_found_of_run {set : RuleSet} {siblings : Siblings} {file : SourceFile}
    {result : LintResult} (h : set.run siblings file = .ok result) :
    ∃ found : Rule → List Diagnostic,
      (∀ c ∈ set.rules, c.rule.check siblings file = .ok (found c.rule)) ∧
      result.diagnostics = inOrder (set.rules.flatMap fun c => c.forced (found c.rule)) := by
  have hall : ∀ c ∈ set.rules, ∃ found, c.rule.check siblings file = .ok found := by
    cases hfails : set.rules.find? fun c => (c.rule.check siblings file).toOption.isNone with
    | none =>
      intro c hc
      have hok := List.find?_eq_none.mp hfails c hc
      cases hcheck : c.rule.check siblings file with
      | ok found => exact ⟨found, rfl⟩
      | error e => simp [hcheck, Except.toOption] at hok
    | some c =>
      obtain ⟨hc, before, later, hrules, hbefore⟩ := List.find?_eq_some_iff_append.mp hfails
      obtain ⟨e, he⟩ : ∃ e, c.rule.check siblings file = .error e := by
        cases hcheck : c.rule.check siblings file with
        | ok found => simp [hcheck, Except.toOption] at hc
        | error e => exact ⟨e, rfl⟩
      have hok : ∀ b ∈ before, ∃ found, b.rule.check siblings file = .ok found := by
        intro b hb
        have hsome := hbefore b hb
        cases hcheck : b.rule.check siblings file with
        | ok found => exact ⟨found, rfl⟩
        | error e' => simp [hcheck, Except.toOption] at hsome
      have hrun : set.judge.outcome (.fresh siblings file) = .error e :=
        judge_of_error rfl hrules hok he
      rw [run, hrun] at h
      cases h
  let found : Rule → List Diagnostic := fun r => (r.check siblings file).toOption.getD []
  have hfound : ∀ c ∈ set.rules, c.rule.check siblings file = .ok (found c.rule) := by
    intro c hc
    obtain ⟨found', hcheck⟩ := hall c hc
    simp only [found, hcheck]
    rfl
  have hrun : set.judge.outcome (.fresh siblings file) =
      .ok ⟨inOrder (set.rules.flatMap fun c => c.forced (found c.rule))⟩ :=
    judge_of_ok rfl hfound
  rw [run, hrun] at h
  exact ⟨found, hfound, by rw [← Except.ok.inj h]⟩

end RuleSet

/-! ## Counts -/

namespace LintResult

/-- Findings whose rules are all among distinct names are counted once by these names. -/
theorem sum_countP_rule {names : List String} (hnames : names.Nodup) {found : List Diagnostic}
    (hfound : ∀ d ∈ found, d.rule ∈ names) :
    (names.map fun name => found.countP (·.rule == name)).sum = found.length := by
  induction found with
  | nil => simp
  | cons d rest ih =>
    have hone : (names.map fun name => if d.rule == name then 1 else 0).sum = 1 := by
      have hcount := List.count_eq_one_of_mem hnames (hfound d List.mem_cons_self)
      have hfilter : names.filter (fun name => decide (d.rule = name)) =
          names.filter (· == d.rule) := by
        refine List.filter_congr fun name _ => ?_
        rw [BEq.comm (a := name), beq_eq_decide]
      rw [List.sum_map_ite]
      simpa [hfilter, List.count_eq_length_filter] using hcount
    have hrest := ih fun d' hd' => hfound d' (List.mem_cons_of_mem d hd')
    simp only [List.countP_cons, List.sum_map_add, hrest, hone, List.length_cons]

/-- Every finding is an error or a warning. -/
theorem count_error_add_count_warning (r : LintResult) :
    r.count .error + r.count .warning = r.diagnostics.length := by
  unfold count
  rw [List.length_eq_countP_add_countP (·.severity == .error)]
  congr 1
  refine List.countP_congr fun d _ => ?_
  cases d.severity <;> decide

end LintResult

/-! ## The whole run -/

/-- Every finding of a configured rule carries the name of the rule, whatever its severity. -/
theorem ConfiguredRule.rule_of_mem_forced {c : ConfiguredRule} {siblings : Siblings}
    {file : SourceFile} {found : List Diagnostic} (h : c.rule.check siblings file = .ok found)
    {d : Diagnostic} (hd : d ∈ c.forced found) : d.rule = c.rule.name := by
  rw [forced_eq] at hd
  obtain ⟨d', hd', rfl⟩ := List.mem_map.mp hd
  show d'.rule = c.rule.name
  exact Rule.rule_of_mem_check h hd'

/-- From an empty sink, a run whose rules succeed alone gives exactly the stable sort of their
findings with the severities that are forced onto them; the order of the rules shows only among
findings that begin together, every finding carries the name of its rule, and the counts add up.
Otherwise the run fails as its first failing rule does alone. -/
theorem judge_eq_stable_merge (set : RuleSet) (ctx : LintContext) (hsink : ctx.reported = []) :
    (∀ found : Rule → List Diagnostic,
      (∀ c ∈ set.rules, c.rule.check ctx.siblings ctx.file = .ok (found c.rule)) →
      ∃ result, set.judge.outcome ctx = .ok result ∧
        (∀ sorted, IsStableSort (set.rules.flatMap fun c => (found c.rule).map fun d =>
            { d with severity := c.severity.getD d.severity }) sorted ↔
          sorted = result.diagnostics) ∧
        (∀ other : RuleSet, other.rules.Perm set.rules → ∃ result',
          other.judge.outcome ctx = .ok result' ∧
          result'.diagnostics.map (·.span.start) = result.diagnostics.map (·.span.start) ∧
          ∀ n, (result'.diagnostics.filter (·.span.start == n)).Perm
            (result.diagnostics.filter (·.span.start == n))) ∧
        (∀ c ∈ set.rules, ∀ d ∈ found c.rule, d.rule = c.rule.name) ∧
        (∀ d ∈ result.diagnostics, ∃ c ∈ set.rules, d.rule = c.rule.name) ∧
        (RuleKind.all.map fun kind => result.countOf kind.name).sum = result.diagnostics.length ∧
        result.count .error + result.count .warning = result.diagnostics.length) ∧
    (∀ before c later e, set.rules = before ++ c :: later →
      (∀ b ∈ before, ∃ found, b.rule.check ctx.siblings ctx.file = .ok found) →
      c.rule.check ctx.siblings ctx.file = .error e →
      set.judge.outcome ctx = .error e) := by
  refine ⟨fun found hfound => ?_, fun before c later e hrules hbefore hc =>
    RuleSet.judge_of_error hsink hrules hbefore hc⟩
  set merged := set.rules.flatMap fun c => c.forced (found c.rule) with hmerged
  have hnames : ∀ d ∈ inOrder merged, ∃ c ∈ set.rules, d.rule = c.rule.name := by
    intro d hd
    obtain ⟨c, hc, hdc⟩ := List.mem_flatMap.mp ((inOrder_perm merged).mem_iff.mp hd)
    exact ⟨c, hc, ConfiguredRule.rule_of_mem_forced (hfound c hc) hdc⟩
  refine ⟨⟨inOrder merged⟩, RuleSet.judge_of_ok hsink hfound, ?_, ?_, ?_, hnames, ?_, ?_⟩
  · intro sorted
    simp only [← ConfiguredRule.forced_eq]
    exact isStableSort_iff
  · intro other hperm
    have hother : ∀ c ∈ other.rules, c.rule.check ctx.siblings ctx.file = .ok (found c.rule) :=
      fun c hc => hfound c (hperm.mem_iff.mp hc)
    have hmerge : (other.rules.flatMap fun c => c.forced (found c.rule)).Perm merged :=
      hperm.flatMap_right _
    exact ⟨_, RuleSet.judge_of_ok hsink hother, map_start_inOrder_of_perm hmerge,
      filter_start_inOrder_of_perm hmerge⟩
  · intro c hc d hd
    exact Rule.rule_of_mem_check (hfound c hc) hd
  · have hregistered : ∀ d ∈ inOrder merged, d.rule ∈ RuleKind.all.map RuleKind.name := by
      intro d hd
      obtain ⟨c, -, hrule⟩ := hnames d hd
      rw [hrule]
      exact List.mem_map_of_mem (RuleKind.mem_all c.rule.kind)
    have hsum := LintResult.sum_countP_rule RuleKind.nodup_names hregistered
    rw [List.map_map] at hsum
    exact hsum
  · exact LintResult.count_error_add_count_warning _

/-- A page without a component and with an access by an index: two findings of two rules, and a
failure as soon as a third rule asks for a sibling that must not be seen. -/
theorem judge_eq_stable_merge_page :
    let file : SourceFile :=
      ⟨"page.tsx", "items[i]".toList,
        ⟨⟨0, 8⟩, [.expression ⟨0, 8⟩ (.index ⟨0, 8⟩ (.name ⟨0, 5⟩ "items") (.name ⟨6, 7⟩ "i") false)],
          []⟩, none⟩
    let ctx : LintContext := .fresh (fun _ _ => .error .permissionDenied) file
    let rules : List ConfiguredRule := [⟨.arrayAccess, some .error⟩, ⟨.pageName ["page.tsx"], none⟩]
    let styles : Rule := .styleImports ⟨[⟨"Page", "./styles.css", "styles.css.ts", true⟩], true⟩
    (∃ result, (RuleSet.mk rules false).judge.outcome ctx = .ok result ∧
      result.count .error + result.count .warning = result.diagnostics.length) ∧
    (RuleSet.mk (rules ++ [⟨styles, none⟩]) false).judge.outcome ctx =
      .error ⟨"page.tsx", "styles.css.ts", .permissionDenied⟩ := by
  intro file ctx rules styles
  have hverdict : ∀ c ∈ rules, c.rule.check ctx.siblings ctx.file =
      .ok ((c.rule.verdict ctx.siblings ctx.file).toOption.getD []) := by
    intro c hc
    rw [Rule.check_eq_verdict]
    rcases List.mem_cons.mp hc with rfl | hc
    · rfl
    · rw [List.mem_singleton.mp hc]
      rfl
  constructor
  · obtain ⟨result, hrun, -, -, -, -, -, hcount⟩ :=
      (judge_eq_stable_merge ⟨rules, false⟩ ctx rfl).1
        (fun r => (r.verdict ctx.siblings ctx.file).toOption.getD []) hverdict
    exact ⟨result, hrun, hcount⟩
  · refine (judge_eq_stable_merge ⟨rules ++ [⟨styles, none⟩], false⟩ ctx rfl).2 rules
      ⟨styles, none⟩ [] _ rfl (fun b hb => ⟨_, hverdict b hb⟩) ?_
    rw [Rule.check_eq_verdict]
    rfl

end ComponentLint
