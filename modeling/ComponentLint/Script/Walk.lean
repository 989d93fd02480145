import ComponentLint.Script.Tree

/-!
# Walking a tree

A visitor walks a tree in the order in which a reader meets the beginning of each expression: an
expression before its parts, parts in source order. It has two hooks. One is called at every
expression but the last element of an optional chain, the other at that element; neither is called
at a target, though the expressions inside a target are passed like any others.

`Program.expressions` lists what a visitor passes. The conventions on calls are built on it, the one
on accesses on the two hooks.
-/

namespace ComponentLint.Script

/-- What is made of the expressions that a walk passes. -/
structure Visitor (α : Type) where
  /-- At an expression. -/
  expression : Expr → List α
  /-- At the last element of an optional chain. -/
  element : Expr → List α

variable {α : Type}

mutual

/-- The walk over the parts of an expression. -/
def Expr.visitParts (v : Visitor α) : Expr → List α
  | .name _ _ => []
  | .number _ _ => []
  | .string _ _ => []
  | .template _ holes => visitExprs v holes
  | .boolean _ => []
  | .atom _ => []
  | .array _ es => visitExprs v es
  | .object _ ps => visitProperties v ps
  | .function _ f => f.visit v
  | .classLike _ _ members => visitStmts v members
  | .paren _ e => v.expression e ++ e.visitParts v
  | .negation _ e => v.expression e ++ e.visitParts v
  | .binary _ l r => v.expression l ++ l.visitParts v ++ (v.expression r ++ r.visitParts v)
  | .logical _ _ l r => v.expression l ++ l.visitParts v ++ (v.expression r ++ r.visitParts v)
  | .call _ f types args _ =>
    v.expression f ++ f.visitParts v ++ visitExprs v types ++ visitExprs v args
  | .construct _ f types args =>
    v.expression f ++ f.visitParts v ++ visitExprs v types ++ visitExprs v args
  | .member _ e _ _ => v.expression e ++ e.visitParts v
  | .hidden _ e _ => v.expression e ++ e.visitParts v
  | .index _ e k _ => v.expression e ++ e.visitParts v ++ (v.expression k ++ k.visitParts v)
  | .chain _ e => v.element e ++ e.visitParts v
  | .cast _ e _ parts => v.expression e ++ e.visitParts v ++ visitExprs v parts
  | .satisfies _ e parts => v.expression e ++ e.visitParts v ++ visitExprs v parts
  | .asserted _ e parts => visitExprs v parts ++ (v.expression e ++ e.visitParts v)
  | .assign _ t value => t.visit v ++ (v.expression value ++ value.visitParts v)
  | .update _ t value => t.visit v ++ visitOption v value
  | .spread _ e => v.expression e ++ e.visitParts v
  | .compound _ parts => visitExprs v parts

/-- The walk over what is written to. -/
def Target.visit (v : Visitor α) : Target → List α
  | .name _ _ => []
  | .member _ e _ => v.expression e ++ e.visitParts v
  | .hidden _ e => v.expression e ++ e.visitParts v
  | .index _ e k => v.expression e ++ e.visitParts v ++ (v.expression k ++ k.visitParts v)
  | .asserted _ parts => visitExprs v parts
  | .pattern _ parts => visitPatternParts v parts

/-- The walk over a part of a pattern. -/
def PatternPart.visit (v : Visitor α) : PatternPart → List α
  | .target t => t.visit v
  | .value e => v.expression e ++ e.visitParts v

/-- The walk over a property. -/
def Property.visit (v : Visitor α) : Property → List α
  | .named _ _ e => v.expression e ++ e.visitParts v
  | .quoted _ _ e => v.expression e ++ e.visitParts v
  | .keyed k e => visitOption v k ++ (v.expression e ++ e.visitParts v)
  | .spread e => v.expression e ++ e.visitParts v

/-- The walk over a declarator or parameter. -/
def Binding.visit (v : Visitor α) : Binding → List α
  | .mk _ _ parts value => visitExprs v parts ++ visitOption v value

/-- The walk over a function. -/
def Function.visit (v : Visitor α) : Function → List α
  | .mk _ _ generics params result body _ =>
    visitExprs v generics ++ visitBindings v params ++ visitExprs v result ++ visitStmts v body

/-- The walk over a statement. -/
def Stmt.visit (v : Visitor α) : Stmt → List α
  | .expression _ e => v.expression e ++ e.visitParts v
  | .target t => t.visit v
  | .variables _ _ bs => visitBindings v bs
  | .function _ f => f.visit v
  | .block _ _ body => visitStmts v body
  | .declaration _ _ _ body => visitStmts v body
  | .space _ _ _ body => visitStmts v body
  | .alias _ _ => []
  | .importFrom _ _ _ => []
  | .exportDeclaration _ d => d.visit v
  | .exportList _ _ _ => []
  | .exportDefault _ d => d.visit v
  | .compound _ parts => visitStmts v parts

/-- The walk over an optional expression. -/
def visitOption (v : Visitor α) : Option Expr → List α
  | none => []
  | some e => v.expression e ++ e.visitParts v

/-- The walk over expressions, one after the other. -/
def visitExprs (v : Visitor α) : List Expr → List α
  | [] => []
  | e :: es => v.expression e ++ e.visitParts v ++ visitExprs v es

/-- The walk over the parts of a pattern, one after the other. -/
def visitPatternParts (v : Visitor α) : List PatternPart → List α
  | [] => []
  | p :: ps => p.visit v ++ visitPatternParts v ps

/-- The walk over properties, one after the other. -/
def visitProperties (v : Visitor α) : List Property → List α
  | [] => []
  | p :: ps => p.visit v ++ visitProperties v ps

/-- The walk over declarators or parameters, one after the other. -/
def visitBindings (v : Visitor α) : List Binding → List α
  | [] => []
  | b :: bs => b.visit v ++ visitBindings v bs

/-- The walk over statements, one after the other. -/
def visitStmts (v : Visitor α) : List Stmt → List α
  | [] => []
  | s :: ss => s.visit v ++ visitStmts v ss

end

/-- The walk over an expression. -/
def Expr.visit (v : Visitor α) (e : Expr) : List α := v.expression e ++ e.visitParts v

/-- The walk over a program. -/
def Program.visit (v : Visitor α) (p : Program) : List α := visitStmts v p.body

/-- The visitor that lists what it passes. -/
def Visitor.collect : Visitor Expr := ⟨fun e => [e], fun e => [e]⟩

/-- An expression and all expressions inside it, outer before inner. -/
def Expr.walk (e : Expr) : List Expr := e.visit .collect

/-- Every expression of a program, outer before inner and in source order. -/
def Program.expressions (p : Program) : List Expr := p.visit .collect

end ComponentLint.Script
