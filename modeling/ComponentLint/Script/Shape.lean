import ComponentLint.Script.Tree

/-!
# Shapes of expressions

Small questions about the form of an expression that several conventions and the type queries ask.
Parentheses matter: a question that looks through them says so.
-/

namespace ComponentLint.Script.Expr

/-- The expression inside any number of parentheses. -/
def bare : Expr → Expr
  | .paren _ inner => inner.bare
  | e => e

/-- The text of an expression that is a name and nothing else. -/
def name? : Expr → Option String
  | .name _ text => some text
  | _ => none

/-- The name that a call calls, looking through parentheses around it. -/
def calleeName? : Expr → Option String
  | .call _ callee _ _ _ => callee.bare.name?
  | _ => none

/-- The property that an access names: `a.b` or `a[b]` with a name in the brackets. -/
def propertyName? : Expr → Option String
  | .member _ _ property _ => some property
  | .index _ _ key _ => key.name?
  | _ => none

/-- Whether an expression is a call of the named function. -/
def calls (function : String) (e : Expr) : Bool := e.calleeName? == some function

end ComponentLint.Script.Expr
