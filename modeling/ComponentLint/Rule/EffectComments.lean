import ComponentLint.Diagnostic.Basic
import ComponentLint.Rule.SourceFile
import ComponentLint.Script.Walk

/-!
# Comments on effects

The body of an effect holds a comment that says why the effect is needed.
-/

namespace ComponentLint.EffectComments

open Script (Comment Expr)

/-- The name of the rule. -/
def rule : String := "require-useeffect-comment"

/-- The function that runs an effect. -/
def effectFunction : String := "useEffect"

/-- A comment says something if it is longer than this, counted in UTF-16 code units. -/
def minLength : Nat := 10

/-- The message for an effect without a comment. -/
def missingComment : Template := .ofParts
  ["useEffect must have a comment explaining why this side effect is necessary"]

/-- Whether an expression is the effect function, as a name or as a member. -/
def isEffectFunction : Expr → Bool
  | .name _ text => text == effectFunction
  | .member _ _ property _ => property == effectFunction
  | _ => false

/-- The braces of the function that a list of arguments begins with. -/
def effectBody? : List Expr → Option Span
  | .function _ fn :: _ => fn.braces
  | _ => none

/-- The text of a comment without its delimiters. -/
def contents (raw : List Char) : List Char :=
  match Text.dropFront? raw "//".toList with
  | some line => line
  | none =>
    match Text.dropFront? raw "/*".toList with
    | some block => (Text.dropBack? block "*/".toList).getD block
    | none => raw

/-- Whether the text of a comment is long enough to explain something. -/
def isExplanation (raw : List Char) : Bool :=
  minLength < Text.units16 (Text.trim (contents raw))

/-- Whether some comment inside a body explains it. -/
def isExplained (source : List Char) (comments : List Comment) (body : Span) : Bool :=
  comments.any fun c => body.encloses c.span && isExplanation (c.span.text source)

/-- Judges an expression. -/
def checkCall (source : List Char) (comments : List Comment) : Expr → Option Diagnostic
  | .call span callee _ arguments _ =>
    if isEffectFunction callee.bare then
      (effectBody? arguments).bind fun body =>
        if isExplained source comments body then none
        else some <|
          (Diagnostic.ofTemplate rule span "missingComment" missingComment []).withSeverity .error
    else none
  | _ => none

/-- Judges the effects of a file. -/
def check (file : SourceFile) : List Diagnostic :=
  file.program.expressions.filterMap (checkCall file.source file.program.comments)

end ComponentLint.EffectComments
