import ComponentLint.Naming.Arrays
import ComponentLint.Script.Scope
import ComponentLint.Script.Shape
import ComponentLint.Types.Annotation

/-!
# Types of expressions

`typeOf` answers from what stands in the file: a literal shows its type, a name has the annotation
of its declaration or the type of its initial value. Initial values are followed through at most
eight steps, so names that are defined by each other do no harm.
-/

namespace ComponentLint.Types

open Script (Expr Declaration)

/-- The things whose type is not asked for. -/
inductive Untyped where
  | constructorCall
  | functionResult
  | methodResult
  | destructured
  | notVariable
  | expression
deriving DecidableEq, Repr, Inhabited

/-- The reasons for which a type stays unknown. -/
inductive Fault where
  /-- The name has no declaration, or one that tells nothing. -/
  | unresolved (name : String)
  /-- There is no type information for such a thing. -/
  | unsupported (what : Untyped)
  /-- The chain of initial values is too long. -/
  | depthExceeded
deriving DecidableEq, Repr, Inhabited

/-- How many steps from a name to its initial value are followed. -/
def maxDepth : Nat := 8

/-- What an untyped thing is called in messages. -/
def Untyped.text : Untyped → String
  | .constructorCall => "constructor call"
  | .functionResult => "function call result"
  | .methodResult => "method call result"
  | .destructured => "destructured binding"
  | .notVariable => "non-variable declaration"
  | .expression => "expression"

/-- The message of a fault. -/
def Fault.message : Fault → String
  | .unresolved name => "`" ++ name ++ "` does not resolve to a declaration"
  | .unsupported what => "no type information for " ++ what.text
  | .depthExceeded => "type resolution exceeded depth " ++ toString maxDepth

/-- Says what the use of a name at an offset stands for. -/
abbrev Resolver := String → Nat → Option Declaration

/-- The type with a known kind and text. -/
def known (kind : Kind) (display : String) : TypeInfo := ⟨kind, display.toList⟩

/-- The type of a call of a well-known function or method, by its receiver if that is a name, and
its own name. -/
def wellKnown? (receiver : Option String) (method : String) : Option TypeInfo :=
  match receiver, method with
  | some "Array", "from" => some (known .array "any[]")
  | some "Array", "of" => some (known .array "any[]")
  | some "Object", "keys" => some (known .array "string[]")
  | some "Object", "values" => some (known .array "any[]")
  | some "Object", "entries" => some (known .array "any[]")
  | _, "querySelectorAll" => some (known .object "NodeListOf<Element>")
  | _, "split" => some (known .array "string[]")
  | _, _ => none

/-- The type of a call of a well-known function or method. -/
def wellKnownCall? : Expr → Option TypeInfo
  | .member _ object property _ => wellKnown? object.name? property
  | _ => none

/-- The type of a call with the given callee, without parentheses around it. -/
def callType (callee : Expr) : Except Fault TypeInfo :=
  match wellKnownCall? callee with
  | some t => .ok t
  | none =>
    if callee.propertyName?.any Naming.typedArrayReturningMethods.contains then
      .ok (known .array "any[]")
    else if callee.name?.isSome then .error (.unsupported .functionResult)
    else .error (.unsupported .methodResult)

/-- What a declaration tells about a name. -/
inductive Evidence where
  /-- The type is known, or it is known that it is not. -/
  | settled (result : Except Fault TypeInfo)
  /-- The type is that of an initial value. -/
  | initial (value : Expr)

/-- What the declaration of a name tells about its type. -/
def evidence (source : List Char) (name : String) : Option Declaration → Evidence
  | none => .settled (.error (.unresolved name))
  | some (.variable binding binder) =>
    match binding.pattern with
    | .single _ =>
      let stop := (binding.value.map (·.span.start)).getD binding.span.stop
      match annotationBetween? source binder.span stop, binding.value with
      | some annotation, _ => .settled (.ok (classify annotation))
      | none, some value => .initial value
      | none, none => .settled (.error (.unresolved name))
    | _ => .settled (.error (.unsupported .destructured))
  | some (.parameter binding binder) =>
    match binding.pattern with
    | .single _ =>
      match annotationBetween? source binder.span binding.span.stop with
      | some annotation => .settled (.ok (classify annotation))
      | none => .settled (.error (.unresolved name))
    | _ => .settled (.error (.unsupported .destructured))
  | some .other => .settled (.error (.unsupported .notVariable))

/-- The type of an expression in parentheses or not, if no more than the given number of steps less
one is needed. -/
def typeWithin (source : List Char) (resolver : Resolver) : Nat → Expr → Except Fault TypeInfo
  | 0, _ => .error .depthExceeded
  | steps + 1, e =>
    match e.bare with
    | .array _ _ => .ok (known .array "any[]")
    | .string _ _ | .template _ _ => .ok (known .primitive "string")
    | .number _ _ => .ok (known .primitive "number")
    | .boolean _ => .ok (known .primitive "boolean")
    | .object _ _ => .ok (known .object "\x7b\x7d")
    | .construct _ callee _ _ =>
      match callee.name? with
      | some name => .ok (classify name.toList)
      | none => .error (.unsupported .constructorCall)
    | .cast _ _ type _ => .ok (classify (type.text source))
    | .satisfies _ operand _ => typeWithin source resolver steps operand
    | .call _ callee _ _ _ => callType callee.bare
    | .name span text =>
      match evidence source text (resolver text span.start) with
      | .settled result => result
      | .initial value => typeWithin source resolver steps value
    | _ => .error (.unsupported .expression)

/-- The type of an expression. -/
def typeOf (source : List Char) (resolver : Resolver) (e : Expr) : Except Fault TypeInfo :=
  typeWithin source resolver (maxDepth + 1) e

end ComponentLint.Types
