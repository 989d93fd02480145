import ComponentLint.Diagnostic.Basic
import ComponentLint.Files.Probe
import ComponentLint.Rule.SourceFile

/-!
# What rules share

Rules look at a file one after the other. They share the file, the way to ask for its siblings, and
what has been reported and not taken away yet. A rule that fails leaves behind what it has reported
until then. The questions about siblings are kept, so that it can be told which were asked.
-/

namespace ComponentLint

/-- What rules share while they look at a file. -/
structure LintContext where
  /-- The file. -/
  file : SourceFile
  /-- The way to ask for siblings of the file. -/
  siblings : Siblings
  /-- What has been reported and not taken away yet, in the order of the reports. -/
  reported : List Diagnostic := []
  /-- The questions that were asked about siblings, each with the path of the file. -/
  asked : List (String × String) := []

/-- The context before any rule has looked at the file. -/
def LintContext.fresh (siblings : Siblings) (file : SourceFile) : LintContext := { file, siblings }

/-- A step of a rule: it changes what is shared, and an unanswered question ends it. -/
abbrev Linting := EStateM ProbeFailure LintContext

namespace Linting

/-- Reports a diagnostic. -/
def report (d : Diagnostic) : Linting Unit :=
  modify fun c => { c with reported := c.reported ++ [d] }

/-- Reports diagnostics one after the other. -/
def reportAll : List Diagnostic → Linting Unit
  | [] => pure ()
  | d :: rest => do
    report d
    reportAll rest

/-- Takes away what has been reported. -/
def take : Linting (List Diagnostic) :=
  modifyGet fun c => (c.reported, { c with reported := [] })

/-- Asks whether a file with a name exists next to the linted one. -/
def siblingExists (name : String) : Linting Bool := do
  let c ← get
  set { c with asked := c.asked ++ [(c.file.path, name)] }
  match c.siblings c.file.path name with
  | .ok found => return found
  | .error fault => throw ⟨c.file.path, name, fault⟩

/-- What a step leads to from a context, without the context that it leaves. -/
def outcome {α : Type} (step : Linting α) (c : LintContext) : Except ProbeFailure α :=
  match step c with
  | .ok a _ => .ok a
  | .error e _ => .error e

/-- The context that a step leaves, whether it fails or not. -/
def after {α : Type} (step : Linting α) (c : LintContext) : LintContext :=
  match step c with
  | .ok _ c' => c'
  | .error _ c' => c'

end Linting

end ComponentLint
