import ComponentLint.Diagnostic.Basic
import ComponentLint.Naming.Words
import ComponentLint.Rule.ChildSelectors
import ComponentLint.Rule.SourceFile

/-!
# Lengths of style names

The name of an exported style has only so many words; a longer one tells that its component has
grown too large.
-/

namespace ComponentLint.StyleNames

open Script (Binder Binding Program Stmt)
open ChildSelectors (styleFactory)

/-- The name of the rule. -/
def rule : String := "max-style-name-words"

/-- The number of words that is allowed unless the options say otherwise. -/
def defaultMax : Nat := 3

/-- The message for a name with too many words. -/
def tooManyWords : Template := .ofParts
  ["Style name '", "name", "' has ", "count",
    " words. Component is too large and needs refactoring."]

/-- Judges a name. -/
def checkName (max : Nat) (b : Binder) : Option Diagnostic :=
  let count := Naming.countWords b.name.toList
  if count ≤ max then none
  else
    some <| (Diagnostic.ofTemplate rule b.span "tooManyWords" tooManyWords
      [("name", b.name), ("count", toString count)]).withSeverity .error

/-- The name of a declarator that defines a style. -/
def styleName? (b : Binding) : Option Binder :=
  if b.initializedBy styleFactory then b.single? else none

/-- The names of the styles that a program defines without exporting them in place. -/
def localStyles (program : Program) : List String :=
  ((program.body.flatMap Stmt.localVariables).filterMap styleName?).map (·.name)

/-- The names of local styles that a statement exports by a list. -/
def listedStyles (styles : List String) : Stmt → List Binder
  | .exportList _ items false =>
    (items.filterMap (·.inside.plain?)).filter fun b => styles.contains b.name
  | _ => []

/-- The names of styles that a statement exports. -/
def exportedStyles (styles : List String) (s : Stmt) : List Binder :=
  s.exportedVariables.filterMap styleName? ++ listedStyles styles s

/-- Judges the names of the styles that a style module exports. -/
def check (max : Nat) (file : SourceFile) : List Diagnostic :=
  if file.isStyleModule then
    (file.program.body.flatMap (exportedStyles (localStyles file.program))).filterMap
      (checkName max)
  else []

end ComponentLint.StyleNames
