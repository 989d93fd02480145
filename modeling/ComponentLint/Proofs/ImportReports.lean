import ComponentLint.Proofs.Failures

/-!
# What is reported about imports of styles

The rule on imports of styles walks over the statements of a file with two flags, stops at the first
correct import, and asks for a sibling only if both flags are unset. What it does is said here
without flags: `wrongImports` are the imports that come into question before the first correct one,
`Mistaken` says what is wrong with one of them, and `Judges` is what the rule adds to a context.
-/

namespace ComponentLint.StyleImports

open Script (ImportItem Stmt)

/-- The items of an import begin with the whole namespace under the name `styles`. -/
def NamesStyles (items : Option (List ImportItem)) : Prop :=
  ∃ binder typeOnly more, items = some (.everything binder typeOnly :: more) ∧
    binder.name = "styles"

/-- A statement is a correct import: it comes into question, is from the expected module, and names
the styles as it should. -/
def ImportsCorrectly (p : StylePattern) (s : Stmt) : Prop :=
  ImportsStyles p s ∧ ∃ span items, s = .importFrom span p.expectedImport items ∧ NamesStyles items

/-- `Mistaken p s span id`: the import `s` stands at `span`, and the first thing that is wrong with
it is what the message `id` says. -/
inductive Mistaken (p : StylePattern) : Stmt → Span → String → Prop where
  | source {span source items} (h : source ≠ p.expectedImport) :
      Mistaken p (.importFrom span source items) span "incorrectSource"
  | form {span items}
      (h : ∀ binder typeOnly more, items ≠ some (.everything binder typeOnly :: more)) :
      Mistaken p (.importFrom span p.expectedImport items) span "incorrectImportType"
  | name {span binder typeOnly more} (h : binder.name ≠ "styles") :
      Mistaken p (.importFrom span p.expectedImport (some (.everything binder typeOnly :: more)))
        span "incorrectAlias"

/-- Something is wrong only with an import that is not correct. -/
theorem Mistaken.not_importsCorrectly {p : StylePattern} {s : Stmt} {place : Span} {id : String}
    (h : Mistaken p s place id) : ¬ ImportsCorrectly p s := by
  rintro ⟨-, span, items, hs, binder, typeOnly, more, rfl, hname⟩
  cases h with
  | source h =>
    cases hs
    exact h rfl
  | form h =>
    cases hs
    exact h binder typeOnly more rfl
  | name h =>
    cases hs
    exact h hname

/-! ## One import -/

/-- The name of the namespace, if the items begin with one. -/
theorem namespace?_cases (span : Span) (source : String) (items : Option (List ImportItem)) :
    (∃ binder typeOnly more, items = some (.everything binder typeOnly :: more) ∧
        (Import.mk span source (items.getD [])).namespace? = some binder.name) ∨
      (∀ binder typeOnly more, items ≠ some (.everything binder typeOnly :: more)) ∧
        (Import.mk span source (items.getD [])).namespace? = none := by
  match items with
  | none => exact Or.inr ⟨by simp, rfl⟩
  | some [] => exact Or.inr ⟨by simp, rfl⟩
  | some (.named _ _ _ :: _) => exact Or.inr ⟨by simp, rfl⟩
  | some (.default _ _ :: _) => exact Or.inr ⟨by simp, rfl⟩
  | some (.everything binder typeOnly :: more) => exact Or.inl ⟨binder, typeOnly, more, rfl, rfl⟩

/-- There is no complaint about an import from the expected module that names the styles as it
should, and otherwise the complaint is about the first thing that is wrong. -/
theorem complaint?_cases (p : StylePattern) (span : Span) (source : String)
    (items : Option (List ImportItem)) :
    (source = p.expectedImport ∧ NamesStyles items ∧
        complaint? p ⟨span, source, items.getD []⟩ = none) ∨
      ∃ d, complaint? p ⟨span, source, items.getD []⟩ = some d ∧
        Mistaken p (.importFrom span source items) d.span d.messageId := by
  unfold complaint?
  by_cases hsource : source = p.expectedImport
  · subst hsource
    rw [if_neg (not_not.mpr rfl)]
    rcases namespace?_cases span p.expectedImport items with
      ⟨binder, typeOnly, more, rfl, hname⟩ | ⟨hform, hname⟩
    · rw [hname]
      by_cases halias : binder.name = "styles"
      · exact Or.inl ⟨rfl, ⟨binder, typeOnly, more, rfl, halias⟩, if_pos halias⟩
      · exact Or.inr ⟨_, if_neg halias, .name halias⟩
    · rw [hname]
      exact Or.inr ⟨_, rfl, .form hform⟩
  · exact Or.inr ⟨_, if_pos hsource, .source hsource⟩

/-- A correct import comes into question, and there is no complaint about it. -/
theorem importsCorrectly_iff {p : StylePattern} {s : Stmt} :
    ImportsCorrectly p s ↔
      ∃ i, import? s = some i ∧ qualifies p i = true ∧ complaint? p i = none := by
  constructor
  · rintro ⟨himports, span, items, rfl, hitems⟩
    obtain ⟨i, hi, hq⟩ := importsStyles_iff.mp himports
    refine ⟨i, hi, hq, ?_⟩
    obtain rfl := Option.some.inj hi
    rcases complaint?_cases p span p.expectedImport items with ⟨-, -, hnone⟩ | ⟨d, -, hmistaken⟩
    · exact hnone
    · exact absurd ⟨himports, span, items, rfl, hitems⟩ hmistaken.not_importsCorrectly
  · rintro ⟨i, hi, hq, hnone⟩
    have himports : ImportsStyles p s := importsStyles_iff.mpr ⟨i, hi, hq⟩
    obtain ⟨span, source, items, rfl, -⟩ := importsStyles_iff.mpr ⟨i, hi, hq⟩
    obtain rfl := Option.some.inj hi
    rcases complaint?_cases p span source items with ⟨rfl, hitems, -⟩ | ⟨d, hsome, -⟩
    · exact ⟨himports, span, items, rfl, hitems⟩
    · rw [hnone] at hsome
      cases hsome

/-- The complaint about an import that comes into question and is not correct. -/
theorem mistaken_of_complaint {p : StylePattern} {s : Stmt} {i : Import} {d : Diagnostic}
    (hi : import? s = some i) (hq : qualifies p i = true) (hd : complaint? p i = some d) :
    Mistaken p s d.span d.messageId := by
  obtain ⟨span, source, items, rfl, -⟩ := importsStyles_iff.mpr ⟨i, hi, hq⟩
  obtain rfl := Option.some.inj hi
  rcases complaint?_cases p span source items with ⟨-, -, hnone⟩ | ⟨d', hd', hmistaken⟩
  · rw [hd] at hnone
    cases hnone
  · rw [hd] at hd'
    obtain rfl := Option.some.inj hd'
    exact hmistaken

instance (p : StylePattern) (s : Stmt) : Decidable (ImportsStyles p s) :=
  decidable_of_iff ((import? s).any (qualifies p) = true) (by
    rw [importsStyles_iff, Option.any_eq_true])

instance (p : StylePattern) (s : Stmt) : Decidable (ImportsCorrectly p s) :=
  decidable_of_iff ((import? s).any (fun i => qualifies p i && (complaint? p i).isNone) = true) (by
    rw [importsCorrectly_iff, Option.any_eq_true]
    simp only [Bool.and_eq_true, Option.isNone_iff_eq_none])

/-! ## All imports -/

/-- The imports that come into question before the first correct one. -/
def wrongImports (p : StylePattern) (body : List Stmt) : List Stmt :=
  (body.filter fun s => ImportsStyles p s).takeWhile fun s => ¬ ImportsCorrectly p s

/-- There is one complaint about each wrong import, in the order of the imports. -/
theorem forall₂_complaints (p : StylePattern) (body : List Stmt) :
    List.Forall₂ (fun s d => Mistaken p s d.span d.messageId) (wrongImports p body)
      (complaints p (candidates p body)) := by
  induction body with
  | nil => exact .nil
  | cons s rest ih =>
    by_cases himports : ImportsStyles p s
    · obtain ⟨i, hi, hq⟩ := importsStyles_iff.mp himports
      have hcandidates : candidates p (s :: rest) = i :: candidates p rest := by
        simp [candidates, hi, hq]
      rw [wrongImports, List.filter_cons_of_pos (by simpa using himports), hcandidates, complaints]
      cases hd : complaint? p i with
      | none =>
        have hcorrect : ImportsCorrectly p s := importsCorrectly_iff.mpr ⟨i, hi, hq, hd⟩
        rw [List.takeWhile_cons_of_neg (by simpa using hcorrect)]
        exact .nil
      | some d =>
        have hwrong : ¬ ImportsCorrectly p s := by
          intro hcorrect
          obtain ⟨i', hi', -, hnone⟩ := importsCorrectly_iff.mp hcorrect
          rw [hi] at hi'
          obtain rfl := Option.some.inj hi'
          rw [hd] at hnone
          cases hnone
        rw [List.takeWhile_cons_of_pos (by simpa using hwrong)]
        exact .cons (mistaken_of_complaint hi hq hd) ih
    · have hcandidates : candidates p (s :: rest) = candidates p rest := by
        cases hi : import? s with
        | none => simp [candidates, hi]
        | some i =>
          have hq : ¬ qualifies p i = true := fun hq => himports (importsStyles_iff.mpr ⟨i, hi, hq⟩)
          simp [candidates, hi, hq]
      rw [wrongImports, List.filter_cons_of_neg (by simpa using himports), hcandidates]
      exact ih

/-! ## What the rule adds to a context -/

/-- No statement of a file is an import that comes into question. -/
def LacksImport (p : StylePattern) (file : SourceFile) : Prop :=
  ∀ s ∈ file.program.body, ¬ ImportsStyles p s

/-- An import is missed in a file: there is none, and one is wanted in any case or the file with the
styles exists. -/
def MissesImport (p : StylePattern) (require : Bool) (siblings : Siblings) (file : SourceFile) :
    Prop :=
  LacksImport p file ∧
    (require = false ∨ siblings file.path p.styleFileExtension = .ok true)

/-- What the rule with the first pattern `p` adds to a context: its findings and the names of the
siblings that it asks for. -/
structure Judges (p : StylePattern) (require : Bool) (c : LintContext) (found : List Diagnostic)
    (names : List String) : Prop where
  /-- Every wrong import is reported once, where it stands, and nothing else is. -/
  wrong : ¬ MissesImport p require c.siblings c.file →
    List.Forall₂ (fun s d => Mistaken p s d.span d.messageId) (wrongImports p c.file.program.body)
      found
  /-- That an import is missed is reported at the beginning of the file, and nothing else is. -/
  missed : MissesImport p require c.siblings c.file →
    ∃ d, found = [d] ∧ d.messageId = "missingImport" ∧ d.span = ⟨0, 0⟩
  /-- The file with the styles is asked for once if it decides, -/
  asks : LacksImport p c.file ∧ require = true → names = [p.styleFileExtension]
  /-- and otherwise no file is. -/
  silent : ¬ (LacksImport p c.file ∧ require = true) → names = []

theorem lacksImport_iff {p : StylePattern} {file : SourceFile} :
    LacksImport p file ↔ candidates p file.program.body = [] :=
  candidates_eq_nil_iff.symm

theorem wrongImports_of_lacks {p : StylePattern} {file : SourceFile} (h : LacksImport p file) :
    wrongImports p file.program.body = [] := by
  have hnone : (file.program.body.filter fun s => ImportsStyles p s) = [] := by
    rw [List.filter_eq_nil_iff]
    intro s hs
    simpa using h s hs
  rw [wrongImports, hnone, List.takeWhile_nil]

/-- The file with the styles is asked for if no import comes into question and it decides. -/
theorem probe?_of_lacks {p : StylePattern} {more : List StylePattern} {file : SourceFile}
    (h : LacksImport p file) : probe? ⟨p :: more, true⟩ file = some p.styleFileExtension :=
  probe?_eq_some_iff.mpr ⟨p, rfl, h, rfl, rfl⟩

theorem probe?_of_not {p : StylePattern} {more : List StylePattern} {require : Bool}
    {file : SourceFile} (h : ¬ (LacksImport p file ∧ require = true)) :
    probe? ⟨p :: more, require⟩ file = none := by
  rw [Option.eq_none_iff_forall_ne_some]
  intro name hname
  obtain ⟨p', hp', hlacks, hrequire, -⟩ := probe?_eq_some_iff.mp hname
  obtain rfl := Option.some.inj hp'
  exact h ⟨hlacks, hrequire⟩

/-- If some import comes into question, the findings are the complaints about the wrong ones. -/
theorem forall₂_findings {p : StylePattern} {wanted : Bool} {file : SourceFile}
    (h : ¬ LacksImport p file) :
    List.Forall₂ (fun s d => Mistaken p s d.span d.messageId) (wrongImports p file.program.body)
      (findings p wanted file) := by
  have hcomplaints := forall₂_complaints p file.program.body
  rw [lacksImport_iff] at h
  unfold findings
  split
  · next hnone => exact absurd hnone h
  · next i rest hcandidates =>
    rw [hcandidates] at hcomplaints
    exact hcomplaints

theorem findings_of_lacks {p : StylePattern} {wanted : Bool} {file : SourceFile}
    (h : LacksImport p file) : findings p wanted file = if wanted then [missing p] else [] := by
  rw [findings, lacksImport_iff.mp h]

/-- A question that is not asked does not hold up the verdict. -/
theorem verdict_of_not_asked {p : StylePattern} {more : List StylePattern} {require : Bool}
    {siblings : Siblings} {file : SourceFile} (h : ¬ (LacksImport p file ∧ require = true)) :
    verdict ⟨p :: more, require⟩ siblings file = .ok (findings p true file) := by
  rw [verdict, probe?_of_not h]

theorem verdict_of_asked {p : StylePattern} {more : List StylePattern} {siblings : Siblings}
    {file : SourceFile} (h : LacksImport p file) :
    verdict ⟨p :: more, true⟩ siblings file =
      match siblings file.path p.styleFileExtension with
      | .ok found => .ok (findings p found file)
      | .error fault => .error ⟨file.path, p.styleFileExtension, fault⟩ := by
  cases hanswer : siblings file.path p.styleFileExtension with
  | error fault =>
    rw [verdict, probe?_of_lacks h]
    simp only [hanswer]
  | ok found =>
    rw [verdict, probe?_of_lacks h]
    simp only [hanswer]

/-- What the verdict and the question tell to add is what the rule is to add. -/
theorem judges (p : StylePattern) (more : List StylePattern) (require : Bool) (c : LintContext) :
    Judges p require c ((verdict ⟨p :: more, require⟩ c.siblings c.file).toOption.getD [])
      (probe? ⟨p :: more, require⟩ c.file).toList := by
  have hmissing : ∃ d, [missing p] = [d] ∧ d.messageId = "missingImport" ∧ d.span = ⟨0, 0⟩ :=
    ⟨missing p, rfl, rfl, rfl⟩
  by_cases hasks : LacksImport p c.file ∧ require = true
  · obtain ⟨hlacks, rfl⟩ := hasks
    rw [verdict_of_asked hlacks, probe?_of_lacks hlacks]
    by_cases hanswer : c.siblings c.file.path p.styleFileExtension = .ok true
    · have hmisses : MissesImport p true c.siblings c.file := ⟨hlacks, Or.inr hanswer⟩
      rw [hanswer]
      refine ⟨fun hnot => absurd hmisses hnot, fun _ => ?_, fun _ => rfl,
        fun hnot => absurd ⟨hlacks, rfl⟩ hnot⟩
      simp only [findings_of_lacks hlacks]
      exact hmissing
    · have hmisses : ¬ MissesImport p true c.siblings c.file := by
        rintro ⟨-, hfalse | hfound⟩
        · cases hfalse
        · exact hanswer hfound
      refine ⟨fun _ => ?_, fun h => absurd h hmisses, fun _ => rfl,
        fun hnot => absurd ⟨hlacks, rfl⟩ hnot⟩
      -- neither an answer in the negative nor a failure leaves a finding
      rw [wrongImports_of_lacks hlacks]
      cases hsiblings : c.siblings c.file.path p.styleFileExtension with
      | error fault => exact .nil
      | ok found =>
        obtain rfl : found = false := by
          rw [hsiblings] at hanswer
          simpa using hanswer
        simp only [findings_of_lacks hlacks]
        exact .nil
  · rw [verdict_of_not_asked hasks, probe?_of_not hasks]
    by_cases hlacks : LacksImport p c.file
    · have hrequire : require = false := by simpa [hlacks] using hasks
      have hmisses : MissesImport p require c.siblings c.file := ⟨hlacks, Or.inl hrequire⟩
      refine ⟨fun hnot => absurd hmisses hnot, fun _ => ?_, fun h => absurd h hasks, fun _ => rfl⟩
      rw [findings_of_lacks hlacks]
      exact hmissing
    · exact ⟨fun _ => forall₂_findings hlacks, fun h => absurd h.1 hlacks,
        fun h => absurd h hasks, fun _ => rfl⟩

/-- What a run leaves behind is told by the verdict and the question. -/
theorem after_run (options : Options) (c : LintContext) :
    Linting.after (Rule.styleImports options).run c =
      c.adding ((verdict options c.siblings c.file).toOption.getD [])
        (probe? options c.file).toList := by
  have hrun := (Rule.styleImports options).run_eq_verdict c
  simp only [Rule.verdict, Rule.question?] at hrun
  unfold Linting.after
  rw [hrun]
  cases verdict options c.siblings c.file with
  | ok found => rfl
  | error e => rfl

/-- A run fails only on the question that the first pattern asks. -/
theorem outcome_run (p : StylePattern) (more : List StylePattern) (require : Bool)
    (c : LintContext) :
    Linting.outcome (Rule.styleImports ⟨p :: more, require⟩).run c = .ok () ∨
      (LacksImport p c.file ∧ require = true) ∧
        ∃ fault, c.siblings c.file.path p.styleFileExtension = .error fault := by
  have hrun := (Rule.styleImports ⟨p :: more, require⟩).run_eq_verdict c
  simp only [Rule.verdict, Rule.question?] at hrun
  cases hverdict : verdict ⟨p :: more, require⟩ c.siblings c.file with
  | ok found =>
    rw [hverdict] at hrun
    rw [Linting.outcome, hrun]
    exact Or.inl rfl
  | error e =>
    obtain ⟨p', fault, hp', hlacks, hrequire, hanswer, -⟩ :=
      verdict_eq_error_iff_unanswered.mp hverdict
    obtain rfl : p = p' := Option.some.inj hp'
    exact Or.inr ⟨⟨hlacks, hrequire⟩, fault, hanswer⟩

/-- Patterns after the first one do not matter. -/
theorem run_congr_patterns (p : StylePattern) (more other : List StylePattern) (require : Bool)
    (c : LintContext) : (Rule.styleImports ⟨p :: more, require⟩).run c =
      (Rule.styleImports ⟨p :: other, require⟩).run c := by
  have hprobe : probe? ⟨p :: more, require⟩ c.file = probe? ⟨p :: other, require⟩ c.file := rfl
  have hverdict : verdict ⟨p :: more, require⟩ c.siblings c.file =
      verdict ⟨p :: other, require⟩ c.siblings c.file := by
    simp only [verdict, hprobe]
  rw [Rule.run_eq_verdict, Rule.run_eq_verdict]
  simp only [Rule.verdict, Rule.question?, hprobe, hverdict]

/-- The rule with a first pattern reports every wrong import before the first correct one, in order
and nothing else, or that an import is missed; it asks for the file with the styles at most once,
and only if no import comes into question and the file decides. It fails only if that question is
not answered. Patterns after the first never matter, and without a pattern nothing happens. -/
theorem rule_reports_up_to_correct_import (p : StylePattern) (require : Bool) (c : LintContext) :
    (∃ found names, Judges p require c found names ∧ ∀ more : List StylePattern,
      Linting.after (Rule.styleImports ⟨p :: more, require⟩).run c = c.adding found names ∧
      (Linting.outcome (Rule.styleImports ⟨p :: more, require⟩).run c = .ok () ∨
        (LacksImport p c.file ∧ require = true) ∧
          ∃ fault, c.siblings c.file.path p.styleFileExtension = .error fault)) ∧
    (∀ more other : List StylePattern, (Rule.styleImports ⟨p :: more, require⟩).run c =
      (Rule.styleImports ⟨p :: other, require⟩).run c) ∧
    (Rule.styleImports ⟨[], require⟩).run c = .ok () c := by
  refine ⟨⟨_, _, judges p [] require c, fun more => ⟨?_, outcome_run p more require c⟩⟩,
    fun more other => run_congr_patterns p more other require c, ?_⟩
  · rw [Linting.after, run_congr_patterns p more [] require c]
    exact after_run ⟨[p], require⟩ c
  · rw [Rule.run_eq_verdict]
    simp [Rule.verdict, Rule.question?, verdict, probe?]

end ComponentLint.StyleImports
