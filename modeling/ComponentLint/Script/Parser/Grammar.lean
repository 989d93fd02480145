import ComponentLint.Script.Parser.Modifier

/-!
# The recursive places of the grammar

Productions call each other directly where that is well founded, and through a `Grammar` where the
language nests: an expression in an expression, a statement in a statement, and so on. A `Goal`
names such a place.
-/

namespace ComponentLint.Script

/-- The forms of types that the grammar tells apart. -/
inductive TypeForm where
  /-- An array type with its brackets. -/
  | array
  /-- A tuple type. -/
  | tuple
  /-- A type with a question mark after it. -/
  | optional
  /-- Any other type. -/
  | other
deriving DecidableEq, Repr, Inhabited

/-- What reading a type leaves: where it stands, its form, and the expressions inside it. -/
structure TypeTree where
  /-- The span of the type. -/
  span : Span
  /-- The form of the type. -/
  form : TypeForm := .other
  /-- The expressions inside the type, in source order. -/
  parts : List Expr

/-- What reading a binding pattern leaves: the names, and the expressions inside it. -/
structure PatternTree where
  /-- What is bound. -/
  pattern : Pattern
  /-- Computed keys and default values, in source order. -/
  parts : List Expr

/-- The places where the grammar recurs. -/
inductive Goal where
  /-- An assignment expression. Between the question mark and the colon of a conditional expression
  an arrow function may have a return type only if a colon follows it. -/
  | assignment (returnType : Bool)
  /-- An expression of operators that bind more tightly than a level. -/
  | operators (level : Nat)
  /-- An expression that begins with a unary operator, or none. -/
  | unary
  /-- An expression with everything that is done to it without operators. -/
  | leftHandSide
  /-- An expression that begins with `new`. -/
  | construct
  /-- An element of markup. -/
  | element
  /-- A statement; `single` where a declaration may not stand. -/
  | statement (single : Bool)
  /-- A binding pattern. -/
  | pattern
  /-- A type. -/
  | type
  /-- A type that begins with a type operator, or with none. -/
  | operandType

/-- What a goal produces. -/
def Goal.Tree : Goal → Type
  | .assignment _ => Expr
  | .operators _ => Expr
  | .unary => Expr
  | .leftHandSide => Expr
  | .construct => Expr
  | .element => Expr
  | .statement _ => Stmt
  | .pattern => PatternTree
  | .type => TypeTree
  | .operandType => TypeTree

/-- A parser for every goal. -/
abbrev Grammar := (goal : Goal) → Parser goal.Tree

namespace Grammar

/-- Runs a parser inside brackets of some kind, where the operator `in` and the continuation of
decorators are free again. -/
def bracketed {α : Type} (p : Parser α) : Parser α :=
  Parser.within (fun c => { c with inAllowed := true, inDecorator := false }) p

/-- An assignment expression inside brackets. -/
def assignment (g : Grammar) : Parser Expr := bracketed (g (.assignment true))

/-- An assignment expression in the current context. -/
def assignmentHere (g : Grammar) (returnType : Bool) : Parser Expr := g (.assignment returnType)

/-- An expression of operators that bind more tightly than a level. -/
def operators (g : Grammar) (level : Nat) : Parser Expr := g (.operators level)

/-- A unary expression. -/
def unary (g : Grammar) : Parser Expr := g .unary

/-- An expression with everything that is done to it without operators. -/
def leftHandSide (g : Grammar) : Parser Expr := g .leftHandSide

/-- An expression that begins with `new`. -/
def construct (g : Grammar) : Parser Expr := g .construct

/-- An element of markup. -/
def element (g : Grammar) : Parser Expr := g .element

/-- A statement. -/
def statement (g : Grammar) (single : Bool) : Parser Stmt := g (.statement single)

/-- A binding pattern. -/
def pattern (g : Grammar) : Parser PatternTree := g .pattern

/-- A type in which conditional types are allowed. -/
def type (g : Grammar) : Parser TypeTree :=
  Parser.within (fun c => { c with conditionalTypes := true }) (g .type)

/-- A type in which conditional types are allowed if they are allowed here. -/
def typeHere (g : Grammar) : Parser TypeTree := g .type

/-- A type after `extends`, where a question mark belongs to the surrounding type. -/
def constraint (g : Grammar) : Parser TypeTree :=
  Parser.within (fun c => { c with conditionalTypes := false }) (g .type)

/-- A type that begins with a type operator, or with none. -/
def operandType (g : Grammar) : Parser TypeTree := g .operandType

/-- One or more assignment expressions separated by commas, as one expression. -/
def sequenceHere (g : Grammar) : Parser Expr := do
  let first ← Parser.start
  let parts ← Parser.separated "," (g.assignmentHere true)
  match parts with
  | [e] => return e
  | _ => return .compound (← Parser.spanFrom first) parts

/-- An expression inside brackets. -/
def expression (g : Grammar) : Parser Expr := bracketed g.sequenceHere

end Grammar

end ComponentLint.Script
