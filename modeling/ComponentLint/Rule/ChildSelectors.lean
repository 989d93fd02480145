import ComponentLint.Diagnostic.Basic
import ComponentLint.Rule.SourceFile
import ComponentLint.Script.Walk
import ComponentLint.Selector

/-!
# Selectors of other elements

The selectors in a style definition may refine the styled element and may not reach others, which
get a style of their own.
-/

namespace ComponentLint.ChildSelectors

open Script (Expr Property)

/-- The name of the rule. -/
def rule : String := "no-child-selectors"

/-- The factory of styles. -/
def styleFactory : String := "style"

/-- The message for a selector that reaches another element. -/
def noChildSelector : Template := .ofParts
  ["Child selector '", "selector",
    "' is not allowed in Vanilla Extract. Create a separate style export instead."]

/-- The properties of an object literal. -/
def properties : Expr → List Property
  | .object _ ps => ps
  | _ => []

/-- The object literals that an argument of the style factory holds: itself, or the elements of an
array literal. -/
def styleObjects : Expr → List Expr
  | .array _ elements => elements
  | e => [e]

/-- The properties inside a property named `selectors`. -/
def selectorProperties : Property → List Property
  | .named _ name value => if name = "selectors" then properties value else []
  | _ => []

/-- Judges a property whose key is a selector. -/
def checkSelector : Property → Option Diagnostic
  | .quoted span text _ =>
    if Selector.reachesOthers text.toList then
      some <| (Diagnostic.ofTemplate rule span "noChildSelector" noChildSelector
        [("selector", text)]).withSeverity .error
    else none
  | _ => none

/-- Judges the selectors in the arguments of a call of the style factory. -/
def checkCall : Expr → List Diagnostic
  | .call span callee typeParts arguments optional =>
    if (Expr.call span callee typeParts arguments optional).calls styleFactory then
      (((arguments.flatMap styleObjects).flatMap properties).flatMap selectorProperties).filterMap
        checkSelector
    else []
  | _ => []

/-- Judges the selectors of a style module. -/
def check (file : SourceFile) : List Diagnostic :=
  if file.isStyleModule then file.program.expressions.flatMap checkCall else []

end ComponentLint.ChildSelectors
