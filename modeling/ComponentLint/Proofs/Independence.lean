import ComponentLint.Proofs.Runs

/-!
# What a run does not depend on

Types are looked at by one rule only, and other files only through one question of another. Hence
type information changes the findings of no other rule, two file systems that answer the questions
alike cannot be told apart, and where no rule has a question the file system is never asked.

Both are statements about two runs. They rest on one lemma (`runAll_agree`): two runs whose rules
agree one by one, as far as certain findings go, agree as a whole.
-/

namespace ComponentLint

open Script (Dialect)

/-- The findings of the rules whose names are of interest. -/
def findingsOf (interest : String → Bool) (found : List Diagnostic) : List Diagnostic :=
  found.filter fun d => interest d.rule

/-- The findings of all rules but the one on accesses. -/
def LintResult.others (r : LintResult) : List Diagnostic :=
  findingsOf (· != ArrayAccess.rule) r.diagnostics

/-! ## Two runs -/

theorem findingsOf_append (interest : String → Bool) (l m : List Diagnostic) :
    findingsOf interest (l ++ m) = findingsOf interest l ++ findingsOf interest m :=
  List.filter_append ..

theorem findingsOf_inOrder (interest : String → Bool) (found : List Diagnostic) :
    findingsOf interest (inOrder found) = inOrder (findingsOf interest found) :=
  filter_inOrder ..

/-- Forcing a severity does not change which findings are of interest. -/
theorem findingsOf_forced (interest : String → Bool) (c : ConfiguredRule)
    (found : List Diagnostic) :
    findingsOf interest (c.forced found) = c.forced (findingsOf interest found) := by
  rw [ConfiguredRule.forced_eq, ConfiguredRule.forced_eq, findingsOf, findingsOf, List.filter_map]
  rfl

/-- Two outcomes agree if both fail alike, or both succeed with the same findings of interest. -/
def Agree (interest : String → Bool) (a b : Except ProbeFailure (List Diagnostic)) : Prop :=
  a.map (findingsOf interest) = b.map (findingsOf interest)

/-- Runs whose rules agree one by one agree. -/
theorem runAll_agree {interest : String → Bool} {rules : List ConfiguredRule}
    {ctx₁ ctx₂ : LintContext} (hsink₁ : ctx₁.reported = []) (hsink₂ : ctx₂.reported = [])
    (h : ∀ c ∈ rules, Agree interest (c.rule.check ctx₁.siblings ctx₁.file)
      (c.rule.check ctx₂.siblings ctx₂.file))
    {earlier₁ earlier₂ : List Diagnostic}
    (hearlier : findingsOf interest earlier₁ = findingsOf interest earlier₂) :
    Agree interest ((runAll rules earlier₁).outcome ctx₁)
      ((runAll rules earlier₂).outcome ctx₂) := by
  induction rules generalizing ctx₁ ctx₂ earlier₁ earlier₂ with
  | nil => exact congrArg Except.ok hearlier
  | cons c rest ih =>
    have hc := h c List.mem_cons_self
    unfold Agree at hc
    cases h₁ : c.rule.check ctx₁.siblings ctx₁.file with
    | error e₁ =>
      cases h₂ : c.rule.check ctx₂.siblings ctx₂.file with
      | ok found₂ =>
        rw [h₁, h₂] at hc
        cases hc
      | error e₂ =>
        rw [h₁, h₂] at hc
        unfold Linting.outcome runAll
        rw [Linting.bind_of_error (ConfiguredRule.run_of_error h₁),
          Linting.bind_of_error (ConfiguredRule.run_of_error h₂)]
        exact hc
    | ok found₁ =>
      cases h₂ : c.rule.check ctx₂.siblings ctx₂.file with
      | error e₂ =>
        rw [h₁, h₂] at hc
        cases hc
      | ok found₂ =>
        rw [h₁, h₂] at hc
        have hfound : findingsOf interest found₁ = findingsOf interest found₂ :=
          Except.ok.inj hc
        unfold Linting.outcome runAll
        rw [Linting.bind_of_ok (ConfiguredRule.run_of_ok hsink₁ h₁),
          Linting.bind_of_ok (ConfiguredRule.run_of_ok hsink₂ h₂)]
        refine ih (LintContext.reported_adding_nil hsink₁ _)
          (LintContext.reported_adding_nil hsink₂ _)
          (fun c' hc' => h c' (List.mem_cons_of_mem c hc')) ?_
        rw [findingsOf_append, findingsOf_append, findingsOf_forced, findingsOf_forced, hearlier,
          hfound]

/-- A run in a fresh context, as the sorted findings of its rules. -/
theorem RuleSet.run_eq_runAll (set : RuleSet) (siblings : Siblings) (file : SourceFile) :
    set.run siblings file =
      ((runAll set.rules []).outcome (.fresh siblings file)).map fun found => ⟨inOrder found⟩ := by
  unfold run judge Linting.outcome
  cases hrun : runAll set.rules [] (.fresh siblings file) with
  | ok found ctx =>
    rw [Linting.bind_of_ok hrun]
    rfl
  | error e ctx =>
    rw [Linting.bind_of_error hrun]
    rfl

/-- Sets of rules that agree one by one on two files give the same results, as far as findings of
interest go. -/
theorem RuleSet.run_agree {interest : String → Bool} {set₁ set₂ : RuleSet}
    (hrules : set₁.rules = set₂.rules) {siblings₁ siblings₂ : Siblings} {file₁ file₂ : SourceFile}
    (h : ∀ c ∈ set₁.rules, Agree interest (c.rule.check siblings₁ file₁)
      (c.rule.check siblings₂ file₂)) :
    (set₁.run siblings₁ file₁).map (fun r => findingsOf interest r.diagnostics) =
      (set₂.run siblings₂ file₂).map (fun r => findingsOf interest r.diagnostics) := by
  have hagree : Agree interest ((runAll set₁.rules []).outcome (.fresh siblings₁ file₁))
      ((runAll set₁.rules []).outcome (.fresh siblings₂ file₂)) :=
    @runAll_agree interest set₁.rules (.fresh siblings₁ file₁) (.fresh siblings₂ file₂) rfl rfl h
      [] [] rfl
  rw [run_eq_runAll, run_eq_runAll, ← hrules]
  revert hagree
  unfold Agree
  cases (runAll set₁.rules []).outcome (.fresh siblings₁ file₁) with
  | error e₁ =>
    cases (runAll set₁.rules []).outcome (.fresh siblings₂ file₂) with
    | error e₂ => exact fun hagree => congrArg Except.error (Except.error.inj hagree)
    | ok found₂ => exact fun hagree => nomatch hagree
  | ok found₁ =>
    cases (runAll set₁.rules []).outcome (.fresh siblings₂ file₂) with
    | error e₂ => exact fun hagree => nomatch hagree
    | ok found₂ =>
      intro hagree
      have hfound := Except.ok.inj hagree
      refine congrArg Except.ok ?_
      simp only [findingsOf_inOrder, hfound]

/-! ## Types -/

/-- Only the rule on accesses looks at types. -/
theorem Rule.verdict_withTypes {r : Rule} (hr : r ≠ .arrayAccess) (siblings : Siblings)
    (file : SourceFile) (types : Option TypeQuery) :
    r.verdict siblings { file with types } = r.verdict siblings file := by
  cases r with
  | arrayAccess => exact absurd rfl hr
  | _ => rfl

/-- The rule on accesses has no findings under other names. -/
theorem findingsOf_others_check_arrayAccess (file : SourceFile) :
    findingsOf (· != ArrayAccess.rule) (ArrayAccess.check file) = [] := by
  refine List.filter_eq_nil_iff.mpr fun d hd => ?_
  simp [ArrayAccess.rule_of_mem_check hd]

/-- Type information changes the findings of no rule but the one on accesses. -/
theorem Rule.agree_withTypes (r : Rule) (siblings : Siblings) (file : SourceFile)
    (types : Option TypeQuery) :
    Agree (· != ArrayAccess.rule) (r.check siblings { file with types })
      (r.check siblings file) := by
  unfold Agree
  rw [check_eq_verdict, check_eq_verdict]
  by_cases hr : r = .arrayAccess
  · rw [hr]
    simp only [verdict, Except.map, findingsOf_others_check_arrayAccess]
  · rw [verdict_withTypes hr]

/-! ## Questions about other files -/

/-- The questions that a set of rules may ask about a file: for the first pattern of each rule on
imports of styles, whether the file that it names exists. -/
def RuleSet.Asks (set : RuleSet) (name : String) : Prop :=
  ∃ c ∈ set.rules, ∃ options p, c.rule = .styleImports options ∧
    options.patterns.head? = some p ∧ name = p.styleFileExtension

/-- A rule asks only for the file that the first pattern names. -/
theorem Rule.of_mem_probes {r : Rule} {file : SourceFile} {name : String}
    (h : name ∈ r.probes file) :
    ∃ options p, r = .styleImports options ∧ options.patterns.head? = some p ∧
      name = p.styleFileExtension := by
  rw [probes_eq_question, Option.mem_toList] at h
  cases r with
  | styleImports options =>
    obtain ⟨p, hp, hname⟩ := Option.bind_eq_some_iff.mp h
    refine ⟨options, p, rfl, hp, ?_⟩
    split_ifs at hname
    exact (Option.some.inj hname).symm
  | _ => cases h

/-- The verdict on imports of styles depends on other files only through one answer. -/
theorem StyleImports.verdict_congr {options : Options} {siblings₁ siblings₂ : Siblings}
    {file : SourceFile}
    (h : ∀ p, options.patterns.head? = some p →
      siblings₁ file.path p.styleFileExtension = siblings₂ file.path p.styleFileExtension) :
    verdict options siblings₁ file = verdict options siblings₂ file := by
  unfold verdict
  cases hp : options.patterns with
  | nil => rfl
  | cons p more =>
    have hanswer := h p (by rw [hp]; rfl)
    simp only
    cases hprobe : probe? options file with
    | none => rfl
    | some name =>
      have hname : name = p.styleFileExtension := by
        unfold probe? at hprobe
        rw [hp] at hprobe
        simp only [List.head?_cons, Option.bind_some] at hprobe
        split_ifs at hprobe
        exact (Option.some.inj hprobe).symm
      simp only [hname, hanswer]

theorem Rule.check_congr {r : Rule} {siblings₁ siblings₂ : Siblings} {file : SourceFile}
    (h : ∀ options p, r = .styleImports options → options.patterns.head? = some p →
      siblings₁ file.path p.styleFileExtension = siblings₂ file.path p.styleFileExtension) :
    r.check siblings₁ file = r.check siblings₂ file := by
  rw [check_eq_verdict, check_eq_verdict]
  cases r with
  | styleImports options => exact StyleImports.verdict_congr fun p hp => h options p rfl hp
  | _ => rfl

theorem LintContext.mem_asked_adding {ctx : LintContext} {found : List Diagnostic}
    {names : List String} {q : String × String} (h : q ∈ (ctx.adding found names).asked) :
    q ∈ ctx.asked ∨ ∃ name ∈ names, q = (ctx.file.path, name) := by
  rcases List.mem_append.mp h with h | h
  · exact Or.inl h
  · obtain ⟨name, hname, rfl⟩ := List.mem_map.mp h
    exact Or.inr ⟨name, hname, rfl⟩

/-- What is asked during a run is asked by one of its rules. -/
theorem mem_asked_after_runAll {rules : List ConfiguredRule} {ctx : LintContext}
    (hsink : ctx.reported = []) {earlier : List Diagnostic} {q : String × String}
    (h : q ∈ ((runAll rules earlier).after ctx).asked) :
    q ∈ ctx.asked ∨ ∃ c ∈ rules, ∃ name ∈ c.rule.probes ctx.file, q = (ctx.file.path, name) := by
  induction rules generalizing ctx earlier with
  | nil => exact Or.inl h
  | cons c rest ih =>
    have hfirst : q ∈ (ctx.adding [] (c.rule.probes ctx.file)).asked → q ∈ ctx.asked ∨
        ∃ c' ∈ c :: rest, ∃ name ∈ c'.rule.probes ctx.file, q = (ctx.file.path, name) := by
      intro hq
      rcases LintContext.mem_asked_adding hq with hq | ⟨name, hname, rfl⟩
      · exact Or.inl hq
      · exact Or.inr ⟨c, List.mem_cons_self, name, hname, rfl⟩
    unfold Linting.after runAll at h
    cases hc : c.rule.check ctx.siblings ctx.file with
    | error e =>
      rw [Linting.bind_of_error (ConfiguredRule.run_of_error hc)] at h
      exact hfirst h
    | ok found =>
      rw [Linting.bind_of_ok (ConfiguredRule.run_of_ok hsink hc)] at h
      rcases ih (LintContext.reported_adding_nil hsink _) h with hq | ⟨c', hc', hasks⟩
      · exact hfirst hq
      · exact Or.inr ⟨c', List.mem_cons_of_mem c hc', hasks⟩

theorem RuleSet.after_judge (set : RuleSet) (ctx : LintContext) :
    set.judge.after ctx = (runAll set.rules []).after ctx := by
  unfold judge Linting.after
  cases hrun : runAll set.rules [] ctx with
  | ok found ctx' =>
    rw [Linting.bind_of_ok hrun]
    rfl
  | error e ctx' => rw [Linting.bind_of_error hrun]

/-! ## Linting -/

/-- Reading a file with and without type information differs in the types alone. -/
theorem SourceFile.read_withTypes (path source : String) :
    ∃ types, read path source true =
      (read path source false).map fun file => { file with types } := by
  unfold read
  simp only
  cases Script.parse (Dialect.ofPath path) source.toList with
  | error e => exact ⟨none, rfl⟩
  | ok program => exact ⟨_, rfl⟩

theorem SourceFile.path_of_read {path source : String} {typed : Bool} {file : SourceFile}
    (h : read path source typed = .ok file) : file.path = path := by
  unfold read at h
  simp only at h
  split at h
  · cases h
  · rw [← Except.ok.inj h]

theorem RuleSet.lint_of_read {set : RuleSet} {path source : String} {file : SourceFile}
    (h : SourceFile.read path source set.typeAware = .ok file) (siblings : Siblings) :
    set.lint siblings path source = (set.run siblings file).mapError .probe := by
  unfold lint
  rw [h]
  rfl

theorem RuleSet.run_of_lint {set : RuleSet} {siblings : Siblings} {path source : String}
    {file : SourceFile} {result : LintResult}
    (hread : SourceFile.read path source set.typeAware = .ok file)
    (hlint : set.lint siblings path source = .ok result) : set.run siblings file = .ok result := by
  rw [lint_of_read hread] at hlint
  cases hrun : set.run siblings file with
  | error e =>
    rw [hrun] at hlint
    cases hlint
  | ok result' =>
    rw [hrun] at hlint
    rw [Except.ok.inj hlint]

theorem RuleSet.lint_of_not_read {set : RuleSet} {path source : String} {fault : LintFault}
    (h : SourceFile.read path source set.typeAware = .error fault) (siblings : Siblings) :
    set.lint siblings path source = .error fault := by
  unfold lint
  rw [h]
  rfl

/-- Findings do not depend on how failures are presented. -/
theorem map_mapError_probe {α : Type} (f : LintResult → α) (r : Except ProbeFailure LintResult) :
    (r.mapError LintFault.probe).map f = (r.map f).mapError LintFault.probe := by
  cases r with
  | error e => rfl
  | ok result => rfl

theorem RuleSet.others_lint_typeAware (set : RuleSet) (siblings : Siblings)
    (path source : String) :
    ({ set with typeAware := true }.lint siblings path source).map LintResult.others =
      ({ set with typeAware := false }.lint siblings path source).map LintResult.others := by
  obtain ⟨types, htyped⟩ := SourceFile.read_withTypes path source
  cases huntyped : SourceFile.read path source false with
  | error fault =>
    rw [huntyped] at htyped
    rw [lint_of_not_read htyped, lint_of_not_read huntyped]
  | ok file =>
    rw [huntyped] at htyped
    rw [lint_of_read htyped, lint_of_read huntyped, map_mapError_probe, map_mapError_probe]
    refine congrArg (Except.mapError LintFault.probe) (run_agree rfl fun c _ => ?_)
    exact c.rule.agree_withTypes siblings file types

/-- A result is determined by all of its findings. -/
theorem eq_of_map_all_findings {r₁ r₂ : Except ProbeFailure LintResult}
    (h : r₁.map (fun r => findingsOf (fun _ => true) r.diagnostics) =
      r₂.map (fun r => findingsOf (fun _ => true) r.diagnostics)) : r₁ = r₂ := by
  have hall : ∀ found : List Diagnostic, findingsOf (fun _ => true) found = found :=
    fun found => List.filter_true found
  simp only [hall] at h
  cases r₁ with
  | error e₁ =>
    cases r₂ with
    | error e₂ => exact congrArg Except.error (Except.error.inj h)
    | ok result₂ => cases h
  | ok result₁ =>
    cases r₂ with
    | error e₂ => cases h
    | ok result₂ =>
      have hfound : result₁.diagnostics = result₂.diagnostics := Except.ok.inj h
      exact congrArg (fun found => Except.ok (LintResult.mk found)) hfound

theorem RuleSet.lint_congr {set : RuleSet} {path source : String} {siblings₁ siblings₂ : Siblings}
    (h : ∀ name, set.Asks name → siblings₁ path name = siblings₂ path name) :
    set.lint siblings₁ path source = set.lint siblings₂ path source := by
  cases hread : SourceFile.read path source set.typeAware with
  | error fault => rw [lint_of_not_read hread, lint_of_not_read hread]
  | ok file =>
    have hpath := SourceFile.path_of_read hread
    have hcheck : ∀ c ∈ set.rules, c.rule.check siblings₁ file = c.rule.check siblings₂ file := by
      intro c hc
      refine Rule.check_congr fun options p hr hp => ?_
      rw [hpath]
      exact h _ ⟨c, hc, options, p, hr, hp, rfl⟩
    have hrun : set.run siblings₁ file = set.run siblings₂ file := by
      refine eq_of_map_all_findings (run_agree rfl fun c hc => ?_)
      rw [hcheck c hc]
      rfl
    rw [lint_of_read hread, lint_of_read hread, hrun]

/-- Linting with and without types differs in the findings on accesses alone; file systems that
answer alike what the rules on imports of styles ask are not told apart; and the file system is not
asked at all if these rules have no patterns. -/
theorem lint_depends_on_types_and_files (set : RuleSet) (path source : String) :
    (∀ siblings, ({ set with typeAware := true }.lint siblings path source).map LintResult.others =
      ({ set with typeAware := false }.lint siblings path source).map LintResult.others) ∧
    (∀ siblings₁ siblings₂ : Siblings,
      (∀ name, set.Asks name → siblings₁ path name = siblings₂ path name) →
      set.lint siblings₁ path source = set.lint siblings₂ path source) ∧
    ((∀ c ∈ set.rules, ∀ options, c.rule = .styleImports options → options.patterns = []) →
      ∀ siblings file, SourceFile.read path source set.typeAware = .ok file →
        (set.judge.after (.fresh siblings file)).asked = []) := by
  refine ⟨fun siblings => set.others_lint_typeAware siblings path source,
    fun siblings₁ siblings₂ hanswers => RuleSet.lint_congr hanswers, ?_⟩
  intro hpatterns siblings file hread
  refine List.eq_nil_iff_forall_not_mem.mpr fun q hq => ?_
  rw [set.after_judge] at hq
  rcases mem_asked_after_runAll rfl hq with hq | ⟨c, hc, name, hname, -⟩
  · exact absurd hq List.not_mem_nil
  · obtain ⟨options, p, hr, hp, -⟩ := Rule.of_mem_probes hname
    rw [hpatterns c hc options hr] at hp
    cases hp

/-- A file system that hides everything but the one file that is asked for passes for an empty
one. -/
theorem lint_depends_on_types_and_files_hidden :
    let styles : Rule := .styleImports ⟨[⟨"Page", "./styles.css", "styles.css.ts", true⟩], true⟩
    let set : RuleSet := ⟨[⟨styles, none⟩, ⟨.arrayAccess, none⟩], true⟩
    set.lint (fun _ _ => .ok false) "page.tsx" "items[0]" =
      set.lint (fun _ name =>
        if name = "styles.css.ts" then .ok false else .error .permissionDenied)
        "page.tsx" "items[0]" := by
  intro styles set
  refine (lint_depends_on_types_and_files set "page.tsx" "items[0]").2.1 _ _ ?_
  rintro name ⟨c, hc, options, p, hr, hp, rfl⟩
  rcases List.mem_cons.mp hc with rfl | hc
  · cases hr
    cases hp
    rfl
  · rw [List.mem_singleton.mp hc] at hr
    cases hr

end ComponentLint
