import ComponentLint.Rule.Basic
import Mathlib

/-!
# What a rule does to the shared context

A rule adds its findings behind what has been reported and leaves the rest alone, and what it finds
is what it finds when it looks at the file alone (`Rule.run_eq`). For seven rules this is how they
report. The rule on imports of styles reports while it scans and asks for a sibling only afterwards;
that the question is asked only if nothing has been reported is the invariant of its scan
(`StyleImports.scanStatements_eq`).
-/

namespace ComponentLint

open Script (Stmt)

/-- The context with more findings and more questions. -/
def LintContext.adding (c : LintContext) (found : List Diagnostic) (names : List String) :
    LintContext :=
  { c with reported := c.reported ++ found, asked := c.asked ++ names.map (c.file.path, ·) }

@[simp] theorem LintContext.fresh_file (siblings : Siblings) (file : SourceFile) :
    (LintContext.fresh siblings file).file = file := rfl

@[simp] theorem LintContext.fresh_siblings (siblings : Siblings) (file : SourceFile) :
    (LintContext.fresh siblings file).siblings = siblings := rfl

section Adding

variable (c : LintContext) (found : List Diagnostic) (names : List String)

@[simp] theorem LintContext.adding_file : (c.adding found names).file = c.file := rfl

@[simp] theorem LintContext.adding_siblings : (c.adding found names).siblings = c.siblings := rfl

@[simp] theorem LintContext.adding_nil : c.adding [] [] = c := by
  cases c
  simp [LintContext.adding]

@[simp] theorem LintContext.adding_adding (more : List Diagnostic) (others : List String) :
    (c.adding found names).adding more others = c.adding (found ++ more) (names ++ others) := by
  simp [LintContext.adding]

end Adding

/-- The names that were asked for since the beginning. -/
theorem LintContext.names_asked_fresh_adding (siblings : Siblings) (file : SourceFile)
    (found : List Diagnostic) (names : List String) :
    ((LintContext.fresh siblings file).adding found names).asked.map (·.2) = names := by
  simp [LintContext.fresh, LintContext.adding, Function.comp_def]

/-! ## Single steps -/

namespace Linting

/-- A step that succeeds is followed by the next one. -/
theorem bind_of_ok {α β : Type} {x : Linting α} {f : α → Linting β} {c c' : LintContext} {a : α}
    (h : x c = .ok a c') : (x >>= f) c = f a c' := by
  simp only [bind, EStateM.bind, h]

/-- A step that fails ends the steps after it. -/
theorem bind_of_error {α β : Type} {x : Linting α} {f : α → Linting β} {c c' : LintContext}
    {e : ProbeFailure} (h : x c = .error e c') : (x >>= f) c = .error e c' := by
  simp only [bind, EStateM.bind, h]

theorem report_eq (d : Diagnostic) (c : LintContext) : report d c = .ok () (c.adding [d] []) := by
  simp [report, LintContext.adding, modify, modifyGet, MonadStateOf.modifyGet, EStateM.modifyGet]

theorem reportAll_eq (found : List Diagnostic) (c : LintContext) :
    reportAll found c = .ok () (c.adding found []) := by
  induction found generalizing c with
  | nil => simp [reportAll, pure, EStateM.pure]
  | cons d rest ih =>
    rw [reportAll, bind_of_ok (report_eq d c), ih]
    simp

theorem take_eq (c : LintContext) : take c = .ok c.reported { c with reported := [] } := rfl

theorem siblingExists_eq (name : String) (c : LintContext) :
    siblingExists name c =
      match c.siblings c.file.path name with
      | .ok found => .ok found (c.adding [] [name])
      | .error fault => .error ⟨c.file.path, name, fault⟩ (c.adding [] [name]) := by
  simp only [siblingExists, LintContext.adding, bind, EStateM.bind, get, getThe,
    MonadStateOf.get, EStateM.get, set, MonadStateOf.set, EStateM.set]
  cases c.siblings c.file.path name <;>
    simp [pure, EStateM.pure, throw, throwThe, MonadExceptOf.throw, EStateM.throw]

end Linting

/-! ## Imports of styles -/

namespace StyleImports

/-- The imports among statements that come into question. -/
def candidates (p : StylePattern) (body : List Stmt) : List Import :=
  (body.filterMap import?).filter (qualifies p)

/-- The complaints about imports up to the first correct one. -/
def complaints (p : StylePattern) : List Import → List Diagnostic
  | [] => []
  | i :: rest =>
    match complaint? p i with
    | none => []
    | some d => d :: complaints p rest

/-- The sibling that the rule asks for, if it asks at all: no import comes into question, and it is
not asked for one regardless. -/
def probe? (options : Options) (file : SourceFile) : Option String :=
  options.patterns.head?.bind fun p =>
    if (candidates p file.program.body).isEmpty && options.requireWhenStylesExist then
      some p.styleFileExtension
    else none

/-- The findings by a pattern, given whether an import is asked for where none comes into
question. -/
def findings (p : StylePattern) (wanted : Bool) (file : SourceFile) : List Diagnostic :=
  match candidates p file.program.body with
  | [] => if wanted then [missing p] else []
  | i :: rest => complaints p (i :: rest)

/-- The findings on a file, or the question that was not answered. -/
def verdict (options : Options) (siblings : Siblings) (file : SourceFile) :
    Except ProbeFailure (List Diagnostic) :=
  match options.patterns with
  | [] => .ok []
  | p :: _ =>
    match probe? options file with
    | none => .ok (findings p true file)
    | some name =>
      match siblings file.path name with
      | .ok found => .ok (findings p found file)
      | .error fault => .error ⟨file.path, name, fault⟩

theorem scanImport_eq (p : StylePattern) (i : Import) (scan : Scan) (c : LintContext) :
    scanImport p i scan c =
      if qualifies p i then
        match complaint? p i with
        | some d => .ok { scan with incorrect := true } (c.adding [d] [])
        | none => .ok { scan with correct := true } c
      else .ok scan c := by
  unfold scanImport
  split_ifs with hq
  · cases complaint? p i with
    | none => rfl
    | some d => exact Linting.bind_of_ok (Linting.report_eq d c)
  · rfl

/-- The scan reports the complaints up to the first correct import, and its flags tell whether
one came into question. -/
theorem scanStatements_eq (p : StylePattern) (body : List Stmt) (scan : Scan) (c : LintContext)
    (hscan : scan.correct = false) :
    ∃ seen, scanStatements p body scan c = .ok seen (c.adding (complaints p (candidates p body)) [])
      ∧ (seen.correct || seen.incorrect) = (scan.incorrect || !(candidates p body).isEmpty) := by
  -- `correct` stays unset up to the correct import that ends the scan, so it is part of the
  -- hypothesis, while `incorrect` may have been set before and is part of the result.
  induction body generalizing scan c with
  | nil => exact ⟨scan, by simp [scanStatements, candidates, complaints, pure, EStateM.pure],
      by simp [hscan, candidates]⟩
  | cons s rest ih =>
    cases hs : import? s with
    | none =>
      have hc : candidates p (s :: rest) = candidates p rest := by simp [candidates, hs]
      rw [hc, scanStatements, hs]
      exact ih scan c hscan
    | some i =>
      by_cases hq : qualifies p i = true
      · have hc : candidates p (s :: rest) = i :: candidates p rest := by simp [candidates, hs, hq]
        cases hd : complaint? p i with
        | none =>
          have hstep := scanImport_eq p i scan c
          simp only [hq, hd, if_true] at hstep
          refine ⟨{ scan with correct := true }, ?_, by simp [hc]⟩
          rw [scanStatements, hs]
          simp [Linting.bind_of_ok hstep, hc, complaints, hd, pure, EStateM.pure]
        | some d =>
          have hstep := scanImport_eq p i scan c
          simp only [hq, hd, if_true] at hstep
          obtain ⟨seen, hrun, hflags⟩ := ih { scan with incorrect := true } (c.adding [d] []) hscan
          refine ⟨seen, ?_, by simpa [hc] using hflags⟩
          rw [scanStatements, hs]
          simp only [Linting.bind_of_ok hstep, hscan, Bool.false_eq_true, if_false, hc, complaints,
            hd]
          rw [hscan] at hrun
          simpa using hrun
      · have hc : candidates p (s :: rest) = candidates p rest := by simp [candidates, hs, hq]
        have hstep := scanImport_eq p i scan c
        simp only [hq, Bool.false_eq_true, if_false] at hstep
        obtain ⟨seen, hrun, hflags⟩ := ih scan c hscan
        refine ⟨seen, ?_, by rw [hc]; exact hflags⟩
        rw [scanStatements, hs]
        simp only [Linting.bind_of_ok hstep, hscan, Bool.false_eq_true, if_false, hc]
        exact hrun

/-- The rule leaves what was reported before, adds its verdict to it, and asks at most one
question, whose answer alone can make it fail. -/
theorem run_eq (options : Options) (c : LintContext) :
    run options c =
      match verdict options c.siblings c.file with
      | .ok found => .ok () (c.adding found (probe? options c.file).toList)
      | .error e => .error e (c.adding [] (probe? options c.file).toList) := by
  unfold run
  cases hp : options.patterns with
  | nil => simp [verdict, probe?, hp, pure, EStateM.pure]
  | cons p more =>
    obtain ⟨seen, hscan, hflags⟩ := scanStatements_eq p c.file.program.body {} c rfl
    have hget : (get : Linting LintContext) c = .ok c c := rfl
    simp only [Linting.bind_of_ok hget, Linting.bind_of_ok hscan, hflags]
    cases hcand : candidates p c.file.program.body with
    | cons i rest =>
      have hprobe : probe? options c.file = none := by simp [probe?, hp, hcand]
      simp [verdict, hp, hprobe, findings, hcand, pure, EStateM.pure]
    | nil =>
      cases hreq : options.requireWhenStylesExist with
      | false =>
        have hprobe : probe? options c.file = none := by simp [probe?, hp, hreq]
        simp [verdict, hp, hprobe, findings, hcand, complaints, Linting.report_eq]
      | true =>
        have hprobe : probe? options c.file = some p.styleFileExtension := by
          simp [probe?, hp, hreq, hcand]
        have hask := Linting.siblingExists_eq p.styleFileExtension c
        cases hsib : c.siblings c.file.path p.styleFileExtension with
        | error fault =>
          rw [hsib] at hask
          simp [verdict, hp, hprobe, hsib, complaints, Linting.bind_of_error hask]
        | ok found =>
          rw [hsib] at hask
          cases found with
          | false =>
            simp [verdict, hp, hprobe, hsib, findings, hcand, complaints, Linting.bind_of_ok hask,
              pure, EStateM.pure]
          | true =>
            simp [verdict, hp, hprobe, hsib, findings, hcand, complaints, Linting.bind_of_ok hask,
              Linting.report_eq]

end StyleImports

/-! ## All rules -/

namespace Rule

/-- The findings of a rule on a file, or the question that it got no answer to. -/
def verdict (r : Rule) (siblings : Siblings) (file : SourceFile) :
    Except ProbeFailure (List Diagnostic) :=
  match r with
  | .containerNames => .ok (ContainerNames.check file)
  | .childSelectors => .ok (ChildSelectors.check file)
  | .styleNames max => .ok (StyleNames.check max file)
  | .styleImports options => StyleImports.verdict options siblings file
  | .layoutName files => .ok (ComponentNames.check ComponentNames.layout files file)
  | .pageName files => .ok (ComponentNames.check ComponentNames.page files file)
  | .arrayAccess => .ok (ArrayAccess.check file)
  | .effectComments => .ok (EffectComments.check file)

/-- The sibling that a rule asks for, if it asks at all. -/
def question? (r : Rule) (file : SourceFile) : Option String :=
  match r with
  | .styleImports options => StyleImports.probe? options file
  | _ => none

theorem run_eq_verdict (r : Rule) (c : LintContext) :
    r.run c =
      match r.verdict c.siblings c.file with
      | .ok found => .ok () (c.adding found (r.question? c.file).toList)
      | .error e => .error e (c.adding [] (r.question? c.file).toList) := by
  have hget : (get : Linting LintContext) c = .ok c c := rfl
  unfold run
  rw [Linting.bind_of_ok hget]
  cases r with
  | styleImports options => exact StyleImports.run_eq options c
  | _ => exact Linting.reportAll_eq _ c

/-- What a rule finds when it looks at a file alone. -/
theorem check_eq_verdict (r : Rule) (siblings : Siblings) (file : SourceFile) :
    r.check siblings file = r.verdict siblings file := by
  have hrun := r.run_eq_verdict (.fresh siblings file)
  simp only [LintContext.fresh_file, LintContext.fresh_siblings] at hrun
  unfold check Linting.outcome
  cases hv : r.verdict siblings file with
  | error e =>
    rw [hv] at hrun
    rw [Linting.bind_of_error hrun]
  | ok found =>
    rw [hv] at hrun
    rw [Linting.bind_of_ok hrun, Linting.take_eq]
    simp [LintContext.fresh, LintContext.adding]

/-- What a rule asks for when it looks at a file alone. -/
theorem probes_eq_question (r : Rule) (file : SourceFile) :
    r.probes file = (r.question? file).toList := by
  have hrun := r.run_eq_verdict (.fresh (fun _ _ => .ok false) file)
  simp only [LintContext.fresh_file, LintContext.fresh_siblings] at hrun
  unfold probes Linting.after
  cases hv : r.verdict (fun _ _ => .ok false) file with
  | error e =>
    rw [hv] at hrun
    rw [hrun]
    exact LintContext.names_asked_fresh_adding ..
  | ok found =>
    rw [hv] at hrun
    rw [hrun]
    exact LintContext.names_asked_fresh_adding ..

/-- In any context a rule adds what it finds when it looks at the file alone, or fails as it fails
alone and adds nothing. -/
theorem run_eq (r : Rule) (c : LintContext) :
    r.run c =
      match r.check c.siblings c.file with
      | .ok found => .ok () (c.adding found (r.probes c.file))
      | .error e => .error e (c.adding [] (r.probes c.file)) := by
  rw [check_eq_verdict, probes_eq_question]
  exact r.run_eq_verdict c

end Rule

end ComponentLint
