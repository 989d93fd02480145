import ComponentLint.Number.Double
import ComponentLint.Span

/-!
# Syntax trees of scripts

The tree of a script in the language family of the linted files: scripts with optional static types
and optional markup. The tree keeps what conventions and type queries look at, and no more:

* Expressions that no convention asks about are `Expr.compound` with their parts in source order.
* What is written to by an assignment, an update, a destructuring or the head of a loop is a `Target`
  and no expression: the `a[i]` of `a[i] = 1` is `Target.index`, and only `a` and `i` in it are
  expressions. Under a type assertion the operand stays an expression.
* Types are read and dropped. Only the expressions inside them (computed keys) are kept, and the
  span of the type after `as`, which type queries read.
* Statements that only nest others are `Stmt.compound`; regions with their own names are
  `Stmt.block`.
-/

namespace ComponentLint.Script

open Number (Double)

/-- A name that is being introduced, and where it stands. -/
structure Binder where
  /-- The name, with escapes decoded. -/
  name : String
  /-- The span of the name. -/
  span : Span
deriving DecidableEq, Repr, Inhabited

/-- What a declarator or a parameter binds. -/
inductive Pattern where
  /-- A single name. -/
  | single (binder : Binder)
  /-- The names inside an array or object pattern. -/
  | destructured (binders : List Binder)
  /-- The names after the dots of a rest parameter. -/
  | rest (binders : List Binder)
deriving Repr, Inhabited

/-- The names that a pattern binds. -/
def Pattern.binders : Pattern → List Binder
  | .single b => [b]
  | .destructured bs => bs
  | .rest bs => bs

/-- How far the names of a variable declaration reach. -/
inductive Reach where
  /-- To the enclosing function or file. -/
  | function
  /-- To the enclosing block. -/
  | block
deriving DecidableEq, Repr, Inhabited

/-- One item of an import declaration. -/
inductive ImportItem where
  /-- `imported as local`; `imported` is `none` if it is written as a string. -/
  | named (imported : Option String) (binder : Binder) (typeOnly : Bool)
  /-- The default export under a local name. -/
  | default (binder : Binder) (typeOnly : Bool)
  /-- `* as local`. -/
  | everything (binder : Binder) (typeOnly : Bool)
deriving Repr, Inhabited

namespace ImportItem

/-- The local name of an item. -/
def binder : ImportItem → Binder
  | .named _ b _ | .default b _ | .everything b _ => b

/-- Whether an item stands only for a type. -/
def typeOnly : ImportItem → Bool
  | .named _ _ t | .default _ t | .everything _ t => t

end ImportItem

/-- A name in an export list. -/
inductive ExportName where
  /-- An ordinary name. -/
  | plain (binder : Binder)
  /-- A name written as a string. -/
  | quoted (text : String)
deriving Repr, Inhabited

/-- The text of an ordinary name. -/
def ExportName.plain? : ExportName → Option Binder
  | .plain b => some b
  | .quoted _ => none

theorem ExportName.plain?_eq_some_iff {name : ExportName} {binder : Binder} :
    name.plain? = some binder ↔ name = .plain binder := by
  cases name with
  | plain b => simp [plain?]
  | quoted text => simp [plain?]

/-- One item `source as exported` of an export list. -/
structure ExportItem where
  /-- The name inside the file. -/
  inside : ExportName
  /-- The name that other files see. -/
  exported : ExportName
deriving Repr, Inhabited

mutual

/-- An expression. -/
inductive Expr where
  /-- A use of a name. -/
  | name (span : Span) (text : String)
  /-- A numeric literal. -/
  | number (span : Span) (value : Double)
  /-- A string literal with its value. -/
  | string (span : Span) (value : String)
  /-- A template literal without a tag, with the expressions in it. -/
  | template (span : Span) (holes : List Expr)
  /-- `true` or `false`. -/
  | boolean (span : Span)
  /-- Any other expression without parts: `this`, `null`, a regular expression, … -/
  | atom (span : Span)
  /-- An array literal. Gaps are left out. -/
  | array (span : Span) (elements : List Expr)
  /-- An object literal. -/
  | object (span : Span) (properties : List Property)
  /-- A function expression or an arrow function. -/
  | function (span : Span) (fn : Function)
  /-- A class expression. -/
  | classLike (span : Span) (binder : Option Binder) (members : List Stmt)
  /-- An expression in parentheses. -/
  | paren (span : Span) (inner : Expr)
  /-- A unary minus. -/
  | negation (span : Span) (operand : Expr)
  /-- A binary operator other than the logical ones. -/
  | binary (span : Span) (left right : Expr)
  /-- A logical operator; `coalescing` for the one that tests for a missing value. -/
  | logical (span : Span) (coalescing : Bool) (left right : Expr)
  /-- A call, with the expressions in its type arguments; `optional` if it is written with a
  question mark. -/
  | call (span : Span) (callee : Expr) (typeParts arguments : List Expr) (optional : Bool)
  /-- `new callee(arguments)`, with the expressions in its type arguments. -/
  | construct (span : Span) (callee : Expr) (typeParts arguments : List Expr)
  /-- `object.property`. -/
  | member (span : Span) (object : Expr) (property : String) (optional : Bool)
  /-- The private member `object.#name`. -/
  | hidden (span : Span) (object : Expr) (optional : Bool)
  /-- `object[key]`. -/
  | index (span : Span) (object key : Expr) (optional : Bool)
  /-- A whole optional chain around its last element. -/
  | chain (span : Span) (element : Expr)
  /-- `operand as type`. -/
  | cast (span : Span) (operand : Expr) (type : Span) (typeParts : List Expr)
  /-- `operand satisfies type`. -/
  | satisfies (span : Span) (operand : Expr) (typeParts : List Expr)
  /-- An operand with a type assertion in angle brackets before it or an exclamation mark after
  it. -/
  | asserted (span : Span) (operand : Expr) (typeParts : List Expr)
  /-- A plain assignment. -/
  | assign (span : Span) (target : Target) (value : Expr)
  /-- An assignment after an operation or, without a value, an increment or decrement. -/
  | update (span : Span) (target : Target) (value : Option Expr)
  /-- `...operand` in an array literal or among arguments. -/
  | spread (span : Span) (operand : Expr)
  /-- Any other expression, with its parts in source order. -/
  | compound (span : Span) (parts : List Expr)

/-- What is written to. -/
inductive Target where
  /-- A name. -/
  | name (span : Span) (text : String)
  /-- `object.property`. -/
  | member (span : Span) (object : Expr) (property : String)
  /-- The private member `object.#name`. -/
  | hidden (span : Span) (object : Expr)
  /-- `object[key]`. -/
  | index (span : Span) (object key : Expr)
  /-- A name or a member under a type assertion: the operand, which is an expression, and the
  expressions in the type, in source order. -/
  | asserted (span : Span) (parts : List Expr)
  /-- A pattern of elements or properties. -/
  | pattern (span : Span) (parts : List PatternPart)

/-- A part of a pattern. -/
inductive PatternPart where
  /-- What an element or a property is written to. -/
  | target (target : Target)
  /-- A default value or a computed key. -/
  | value (value : Expr)

/-- A property of an object literal. -/
inductive Property where
  /-- A property, method or accessor with a plain name as its key. -/
  | named (span : Span) (name : String) (value : Expr)
  /-- A property, method or accessor with a string literal as its key, in brackets or not. -/
  | quoted (span : Span) (text : String) (value : Expr)
  /-- A property with a computed key or, without one, a number as its key. -/
  | keyed (key : Option Expr) (value : Expr)
  /-- `...operand`. -/
  | spread (operand : Expr)

/-- A variable declarator or a parameter. -/
inductive Binding where
  /-- Its span, what it binds, the expressions inside decorators, pattern and annotation, and its
  initial value. -/
  | mk (span : Span) (pattern : Pattern) (parts : List Expr) (value : Option Expr)

/-- A function of any kind. -/
inductive Function where
  /-- Its name, its type parameters and the expressions in them, its parameters, the expressions in
  its return type, its statements and, if these stand in braces, the span of the braces. An arrow
  with an expression for a body has the one statement and no braces. -/
  | mk (binder : Option Binder) (generics : List Binder) (genericParts : List Expr)
      (parameters : List Binding) (resultParts : List Expr) (body : List Stmt)
      (braces : Option Span)

/-- A statement. -/
inductive Stmt where
  /-- An expression, as a statement or as part of another statement. -/
  | expression (span : Span) (value : Expr)
  /-- What a loop writes to. -/
  | target (target : Target)
  /-- A variable declaration. -/
  | variables (span : Span) (reach : Reach) (bindings : List Binding)
  /-- A function declaration, or only its signature. -/
  | function (span : Span) (fn : Function)
  /-- A region with its own names; `closed` if also the names of its functions' reach stay in
  it. -/
  | block (span : Span) (closed : Bool) (body : List Stmt)
  /-- The introduction of names other than variables, parameters and functions: a class, an
  interface, an enumeration, … `isValue` tells whether they can stand for values. -/
  | declaration (span : Span) (binders : List Binder) (isValue : Bool) (body : List Stmt)
  /-- A namespace; `name` is `none` if it introduces no name. Its own names belong to the region
  `inside`. -/
  | space (span : Span) (name : Option Binder) (inside : Span) (body : List Stmt)
  /-- A local name for something that is named or required elsewhere. -/
  | alias (span : Span) (binder : Binder)
  /-- An import declaration; `items` is `none` if it has no clause at all. -/
  | importFrom (span : Span) (source : String) (items : Option (List ImportItem))
  /-- An exported declaration. -/
  | exportDeclaration (span : Span) (declared : Stmt)
  /-- An export list, from this file or from another. -/
  | exportList (span : Span) (items : List ExportItem) (fromElsewhere : Bool)
  /-- A default export of a declaration or an expression. -/
  | exportDefault (span : Span) (exported : Stmt)
  /-- Any other statement, with its parts in source order. -/
  | compound (span : Span) (parts : List Stmt)

end

instance : Inhabited Expr := ⟨.atom default⟩
instance : Inhabited Target := ⟨.name default default⟩
instance : Inhabited Stmt := ⟨.compound default []⟩
instance : Inhabited Property := ⟨.spread default⟩
instance : Inhabited Binding := ⟨.mk default default [] none⟩
instance : Inhabited Function := ⟨.mk none [] [] [] [] [] none⟩

namespace Expr

/-- The span of an expression. -/
def span : Expr → Span
  | .name s _ | .number s _ | .string s _ | .template s _ | .boolean s | .atom s | .array s _
  | .object s _ | .function s _ | .classLike s _ _ | .paren s _ | .negation s _ | .binary s _ _
  | .logical s _ _ _ | .call s _ _ _ _ | .construct s _ _ _ | .member s _ _ _ | .hidden s _ _
  | .index s _ _ _ | .chain s _ | .cast s _ _ _ | .satisfies s _ _ | .asserted s _ _
  | .assign s _ _ | .update s _ _ | .spread s _ | .compound s _ => s

end Expr

namespace Binding

/-- The span of a declarator or parameter. -/
def span : Binding → Span
  | .mk s _ _ _ => s

/-- What a declarator or parameter binds. -/
def pattern : Binding → Pattern
  | .mk _ p _ _ => p

/-- The initial value of a declarator or parameter. -/
def value : Binding → Option Expr
  | .mk _ _ _ v => v

end Binding

namespace Function

/-- The name of a function. -/
def binder : Function → Option Binder
  | .mk b _ _ _ _ _ _ => b

/-- The parameters of a function. -/
def parameters : Function → List Binding
  | .mk _ _ _ ps _ _ _ => ps

/-- The span of the braces around a function's statements. -/
def braces : Function → Option Span
  | .mk _ _ _ _ _ _ s => s

end Function

/-- A comment, by its place in the source. -/
structure Comment where
  /-- The span of the comment with its delimiters. -/
  span : Span
deriving DecidableEq, Repr, Inhabited

/-- A whole file. -/
structure Program where
  /-- The span of the file. -/
  span : Span
  /-- The statements at the top level; directives are none. -/
  body : List Stmt
  /-- The comments in source order. -/
  comments : List Comment

end ComponentLint.Script
