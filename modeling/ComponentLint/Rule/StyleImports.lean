import ComponentLint.Rule.Context

/-!
# Imports of styles

A component imports its styles from the expected module, as a namespace, and under the name
`styles`. Imports are looked at up to the first correct one. If no import comes into question, one
is asked for, by default only if the file with the styles exists.
-/

namespace ComponentLint.StyleImports

open Script (ImportItem Stmt)

/-- The name of the rule. -/
def rule : String := "enforce-styling"

/-- Which styles a kind of component has to import. -/
structure StylePattern where
  /-- What the component is called in messages. -/
  componentDescription : String
  /-- The module that the styles have to come from. -/
  expectedImport : String
  /-- The name of the file next to the component that holds the styles. -/
  styleFileExtension : String
  /-- Whether only imports from the same directory come into question. -/
  requireRelativeImports : Bool
deriving DecidableEq, Repr, Inhabited

/-- The options of the rule. Only the first pattern is used. -/
structure Options where
  /-- The patterns. -/
  patterns : List StylePattern := []
  /-- Whether an import is asked for only if the file with the styles exists. -/
  requireWhenStylesExist : Bool := true
deriving DecidableEq, Repr, Inhabited

/-- The name under which styles are imported. -/
def stylesAlias : String := "styles"

/-- The message for a component without an import of styles. -/
def missingImport : Template := .ofParts
  ["", "componentDescription", " must import styles from '", "expectedImport",
    "' using 'import * as styles from \"", "expectedImport", "\"'"]

/-- The message for an import that is not of the whole namespace. -/
def incorrectImportType : Template := .ofParts
  ["", "componentDescription", " must use namespace import: 'import * as styles from \"",
    "expectedImport", "\"'"]

/-- The message for an import under another name. -/
def incorrectAlias : Template := .ofParts
  ["", "componentDescription", " must import styles with alias 'styles', not '", "alias", "'"]

/-- The message for an import from another module. -/
def incorrectSource : Template := .ofParts
  ["", "componentDescription", " must import from '", "expectedImport", "', not '", "source", "'"]

/-- A diagnostic of this rule. -/
def report (span : Span) (messageId : String) (template : Template)
    (pairs : List (String × String)) : Diagnostic :=
  (Diagnostic.ofTemplate rule span messageId template pairs).withSeverity .error

/-- An import of a style sheet or anything else. -/
structure Import where
  /-- The span of the declaration. -/
  span : Span
  /-- The module that it imports from. -/
  source : String
  /-- What it imports. -/
  items : List ImportItem

/-- The import that a statement is. -/
def import? : Stmt → Option Import
  | .importFrom span source items => some ⟨span, source, items.getD []⟩
  | _ => none

/-- Whether an import comes into question for a pattern: it is of a style sheet and, if the pattern
wants that, from the same directory. -/
def qualifies (p : StylePattern) (i : Import) : Bool :=
  Text.endsWith i.source.toList ".css".toList &&
    (!p.requireRelativeImports || Text.beginsWith i.source.toList "./".toList)

/-- The name that the first item of an import gives to the whole namespace. -/
def Import.namespace? (i : Import) : Option String :=
  match i.items with
  | .everything binder _ :: _ => some binder.name
  | _ => none

/-- What is wrong with an import that comes into question; `none` if it is correct. -/
def complaint? (p : StylePattern) (i : Import) : Option Diagnostic :=
  let description := ("componentDescription", p.componentDescription)
  let expected := ("expectedImport", p.expectedImport)
  if i.source ≠ p.expectedImport then
    some (report i.span "incorrectSource" incorrectSource
      [description, expected, ("source", i.source)])
  else
    match i.namespace? with
    | none => some (report i.span "incorrectImportType" incorrectImportType [description, expected])
    | some name =>
      if name = stylesAlias then none
      else some (report i.span "incorrectAlias" incorrectAlias [description, ("alias", name)])

/-- The complaint about a component without an import of styles. -/
def missing (p : StylePattern) : Diagnostic :=
  report Span.fileStart "missingImport" missingImport
    [("componentDescription", p.componentDescription), ("expectedImport", p.expectedImport)]

/-- What has been seen of the imports of a file. -/
structure Scan where
  /-- There was a correct import. -/
  correct : Bool := false
  /-- There was an import that something is wrong with. -/
  incorrect : Bool := false
deriving DecidableEq, Repr, Inhabited

/-- Looks at an import and reports what is wrong with it. -/
def scanImport (p : StylePattern) (i : Import) (scan : Scan) : Linting Scan :=
  if qualifies p i then
    match complaint? p i with
    | some d => do
      Linting.report d
      return { scan with incorrect := true }
    | none => return { scan with correct := true }
  else return scan

/-- Looks at the imports among statements, up to the first correct one. -/
def scanStatements (p : StylePattern) : List Stmt → Scan → Linting Scan
  | [], scan => return scan
  | s :: rest, scan =>
    match import? s with
    | none => scanStatements p rest scan
    | some i => do
      let scan ← scanImport p i scan
      if scan.correct then return scan
      scanStatements p rest scan

/-- Judges the imports of a file. The sibling with the styles is asked for only after all imports
have been looked at. -/
def run (options : Options) : Linting Unit := do
  match options.patterns with
  | [] => return ()
  | p :: _ =>
    let scan ← scanStatements p (← get).file.program.body {}
    if scan.correct || scan.incorrect then return ()
    if options.requireWhenStylesExist then
      unless ← Linting.siblingExists p.styleFileExtension do return ()
    Linting.report (missing p)

end ComponentLint.StyleImports
