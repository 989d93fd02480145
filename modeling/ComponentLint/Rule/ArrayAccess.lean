import ComponentLint.Diagnostic.Basic
import ComponentLint.Naming.Arrays
import ComponentLint.Number.Notation
import ComponentLint.Rule.SourceFile
import ComponentLint.Script.Walk

/-!
# Access to array elements

An element of an array is read with the method `at` and not with brackets. With type information the
receiver's type decides whether it is an array; without it, a numeric index is taken as evidence,
and so are the names around the receiver.
-/

namespace ComponentLint.ArrayAccess

open Script (Expr Visitor)

/-- The name of the rule. -/
def rule : String := "prefer-array-at"

/-- The message for an access with brackets. -/
def preferArrayAt : Template := .ofParts
  ["Use .at(", "index", ") instead of [", "index", "] for array access"]

/-- The forms of an index that the method can take over, with the text to write. -/
inductive Index where
  /-- A number. -/
  | numeric (text : List Char)
  /-- An expression. -/
  | expression (text : List Char)
deriving DecidableEq, Repr, Inhabited

/-- The text of an index. -/
def Index.text : Index → List Char
  | .numeric t => t
  | .expression t => t

/-- Whether an index is a number. -/
def Index.isNumeric : Index → Bool
  | .numeric _ => true
  | .expression _ => false

/-- The index that a key is: a number, perhaps with a minus sign, or a name, an operation or a call.
Other keys are left alone. -/
def index? (source : List Char) : Expr → Option Index
  | .number _ value => some (.numeric value.positional)
  | .negation _ (.number _ value) => some (.numeric value.negate.positional)
  | .name span _ => some (.expression (span.text source))
  | .binary span _ _ => some (.expression (span.text source))
  | .call span _ _ _ _ => some (.expression (span.text source))
  | _ => none

/-- Whether calling an expression gives an array, by the name of a method or by the receiver
`Array`. -/
def returnsArray : Expr → Bool
  | .member _ object property _ =>
    Naming.isArrayReturningMethod property || object.name? == some "Array"
  | _ => false

/-- Whether an expression is an array, as far as names tell: its own, that of a method on the way to
it, or that of the method that returns it. -/
def looksLikeArray : Expr → Bool
  | .paren _ inner => looksLikeArray inner
  | .name _ text => Naming.looksLikeArray text
  | .member _ object property _ => Naming.isArrayMethod property || looksLikeArray object
  | .index _ object key _ => key.name?.any Naming.isArrayMethod || looksLikeArray object
  | .call _ callee _ _ _ => returnsArray callee.bare
  | _ => false

/-- Whether an expression is a call of a method that surely returns an array. -/
def isTypedArrayCall (e : Expr) : Bool :=
  match e.bare with
  | .call _ callee _ _ _ =>
    callee.bare.propertyName?.any Naming.typedArrayReturningMethods.contains
  | _ => false

/-- Whether a receiver is taken for an array. -/
def isArray (types : Option TypeQuery) (receiver : Expr) (index : Index) : Bool :=
  match types with
  | some typeOf =>
    match typeOf receiver with
    | .ok t => t.isArrayLike || isTypedArrayCall receiver
    | .error _ => false
  | none => index.isNumeric || looksLikeArray receiver

/-- The call that takes the place of an access. -/
def replacement (source : List Char) (receiver : Expr) (optional : Bool) (index : Index) :
    List Char :=
  receiver.span.text source ++ (if optional then "?.at(".toList else ".at(".toList) ++
    index.text ++ [')']

/-- The complaint about an access. -/
def complaint (source : List Char) (span : Span) (receiver : Expr) (optional : Bool)
    (index : Index) : Diagnostic :=
  (Diagnostic.ofTemplate rule span "preferArrayAt" preferArrayAt
    [("index", String.ofList index.text)]).withFix
      ⟨span, String.ofList (replacement source receiver optional index), some "Use `.at()`"⟩

/-- Judges an expression. -/
def checkAccess (source : List Char) (types : Option TypeQuery) : Expr → Option Diagnostic
  | .index span receiver key optional =>
    (index? source key).bind fun index =>
      if isArray types receiver index then some (complaint source span receiver optional index)
      else none
  | _ => none

/-- Judges an access where it stands as an expression and where it is the last element of an optional
chain. -/
def visitor (source : List Char) (types : Option TypeQuery) : Visitor Diagnostic where
  expression e := (checkAccess source types e).toList
  element e := (checkAccess source types e).toList

/-- Judges the accesses of a file. -/
def check (file : SourceFile) : List Diagnostic :=
  file.program.visit (visitor file.source file.types)

end ComponentLint.ArrayAccess
