import ComponentLint.Config.Reader
import ComponentLint.RuleSet
import ComponentLint.Script.Dialect
import ComponentLint.Script.Parser
import ComponentLint.Script.Scope

/-!
# Linting a file

Rules are run one after the other; the first that fails ends the run. The findings of all rules are
put in the order of their beginnings, and findings with the same beginning stay in the order of the
rules.
-/

namespace ComponentLint

/-- The reasons for which a file cannot be linted. -/
inductive LintFault where
  /-- A question about a sibling file was not answered. -/
  | probe (failure : ProbeFailure)
  /-- The source of the file at a path is not in the language. -/
  | parse (path : String)
  /-- The configuration cannot be used. -/
  | config (fault : ConfigFault)
  /-- The text of the configuration cannot be read. -/
  | configText (fault : ConfigTextFault)
deriving Repr, Inhabited

/-- The message of a fault. What is wrong with a source is not told. -/
def LintFault.message : LintFault → String
  | .probe failure => failure.message
  | .parse path => "failed to parse " ++ path ++ ": "
  | .config fault => fault.message
  | .configText (.data fault) => ConfigTextFault.dataMessage fault
  | .configText (.text _) => ""

/-! ## Results -/

/-- The findings on a file. -/
structure LintResult where
  /-- The findings in the order of their beginnings. -/
  diagnostics : List Diagnostic
deriving DecidableEq, Repr, Inhabited

namespace LintResult

/-- The number of findings with a severity. -/
def count (r : LintResult) (severity : Severity) : Nat :=
  r.diagnostics.countP (·.severity == severity)

/-- Whether there are findings with a severity. -/
def has (r : LintResult) (severity : Severity) : Bool :=
  r.diagnostics.any (·.severity == severity)

/-- The number of findings of a rule. -/
def countOf (r : LintResult) (rule : String) : Nat := r.diagnostics.countP (·.rule == rule)

/-- The registered rules that have findings, with their number. -/
def byRule (r : LintResult) : List (String × Nat) :=
  (RuleKind.all.map fun kind => (kind.name, r.countOf kind.name)).filter (0 < ·.2)

end LintResult

/-! ## Files -/

namespace SourceFile

/-- The type query of a source with the given names. -/
def queryOf (source : List Char) (names : Script.NameTable) : TypeQuery :=
  Types.typeOf source names.resolve?

/-- Reads a file; with type information if `typed`. -/
def read (path source : String) (typed : Bool) : Except LintFault SourceFile :=
  let cs := source.toList
  match Script.parse (Script.Dialect.ofPath path) cs with
  | .error _ => .error (.parse path)
  | .ok program => .ok ⟨path, cs, program, if typed then some (queryOf cs program.names) else none⟩

end SourceFile

/-- The types of the expressions that stand as statements at the top level of a program. -/
def Script.Program.statementTypes (source : List Char) (program : Script.Program) :
    List (Except Types.Fault Types.TypeInfo) :=
  let query := SourceFile.queryOf source program.names
  program.body.filterMap fun s =>
    match s with
    | .expression _ e => some (query e)
    | _ => none

/-! ## Runs -/

/-- Findings with the severity that is forced onto them. -/
def ConfiguredRule.forced (c : ConfiguredRule) (found : List Diagnostic) : List Diagnostic :=
  match c.severity with
  | none => found
  | some severity => found.map (·.withSeverity severity)

/-- Runs a rule and takes away what has been reported, with the severity that is forced onto it. -/
def ConfiguredRule.run (c : ConfiguredRule) : Linting (List Diagnostic) := do
  c.rule.run
  return c.forced (← Linting.take)

/-- Runs rules one after the other and collects their findings behind those of earlier rules. -/
def runAll : List ConfiguredRule → List Diagnostic → Linting (List Diagnostic)
  | [], found => return found
  | c :: rest, found => do
    let more ← c.run
    runAll rest (found ++ more)

/-- Puts findings in the order of their beginnings. -/
def inOrder (found : List Diagnostic) : List Diagnostic :=
  found.mergeSort fun a b => a.span.start ≤ b.span.start

/-- Runs all rules of a set over the file of a context. -/
def RuleSet.judge (set : RuleSet) : Linting LintResult := do
  let found ← runAll set.rules []
  return ⟨inOrder found⟩

/-- Runs all rules of a set over a file. -/
def RuleSet.run (set : RuleSet) (siblings : Siblings) (file : SourceFile) :
    Except ProbeFailure LintResult :=
  Linting.outcome set.judge (.fresh siblings file)

/-- Lints a source with a set of rules. -/
def RuleSet.lint (set : RuleSet) (siblings : Siblings) (path source : String) :
    Except LintFault LintResult := do
  let file ← SourceFile.read path source set.typeAware
  (set.run siblings file).mapError .probe

/-- Lints a source with the rules of a configuration text, or with the standard rules. Faults of the
configuration come before those of the source. -/
def lintWithConfig (siblings : Siblings) (path source : String) (configText : Option String) :
    Except LintFault LintResult := do
  let set ← match configText with
    | none => pure RuleSet.standard
    | some text => do
      let config ← (Config.parse text).mapError .configText
      (RuleSet.ofConfig config).mapError .config
  set.lint siblings path source

end ComponentLint
