import ComponentLint.Script.Parser.Types

/-!
# Functions and classes
-/

namespace ComponentLint.Script.Parser

/-- What a function's own signature and body allow. -/
def functionContext (isAsync isGenerator : Bool) (c : Context) : Context :=
  { c with
    inAllowed := true, inAsync := isAsync, inGenerator := isGenerator, inDecorator := false }

/-- Statements in braces, with the span of the braces. -/
def bracedStatements (g : Grammar) : Parser (List Stmt × Span) := do
  let first ← start
  expectPunct "\x7b"
  let body ← within (fun c => { c with atTopLevel := false }) do
    untilPunct "\x7d" (g.statement false)
  return (body, ← spanFrom first)

/-- Whether a statement is a string literal alone. -/
def isDirective : Stmt → Bool
  | .expression _ (.string _ _) => true
  | _ => false

/-- Whether the next token is a string. -/
def atString : Parser Bool := do
  match ← kind with
  | .string _ _ => return true
  | _ => return false

/-- Statements in braces, with the span of the braces. String literals at the beginning are
directives and no statements. -/
def bracedBody (g : Grammar) : Parser (List Stmt × Span) := do
  let first ← start
  expectPunct "\x7b"
  let (body, _) ← within (fun c => { c with atTopLevel := false }) do
    loop (([] : List Stmt), true) fun (body, prologue) => do
      if ← takePunct "\x7d" then return .done (body, prologue)
      let quoted ← atString
      let s ← g.statement false
      if prologue && quoted && isDirective s then return .again (body, true)
      return .again (s :: body, false)
  return (body.reverse, ← spanFrom first)

/-- The body of a function with its braces. -/
def functionBody (g : Grammar) : Parser (List Stmt × Span) :=
  within (fun c => { c with inFunction := true }) (bracedBody g)

/-! ## Functions -/

/-- The kinds of functions that begin with a list of parameters. -/
inductive FunctionRole where
  /-- A function declaration. -/
  | declaration
  /-- A function expression or a method of an object literal. -/
  | expression
  /-- A method of a class. -/
  | method
  /-- A constructor. -/
  | constructor
deriving DecidableEq, Repr, Inhabited

/-- Where the parameters of a function stand. -/
def FunctionRole.parameters : FunctionRole → ParameterRole
  | .declaration => .plain
  | .expression => .plain
  | .method => .method
  | .constructor => .constructor

/-- What reading a function leaves. -/
structure FunctionTree where
  /-- The function. -/
  fn : Function
  /-- Its parameters. -/
  params : Parameters
  /-- Whether it has a return type. -/
  hasResult : Bool
  /-- Whether it is neither asynchronous nor a generator. -/
  isPlain : Bool
deriving Inhabited

/-- Whether a function has a body. -/
def FunctionTree.hasBody (t : FunctionTree) : Bool := t.fn.braces.isSome

/-- Type parameters, parameters, return type and body of a function. Where types are part of the
grammar the body of a declaration or of a class member may be missing. A constructor has neither
type parameters nor a return type. -/
def functionTail (g : Grammar) (role : FunctionRole) (isAsync isGenerator : Bool)
    (name : Option Binder) : Parser FunctionTree :=
  within (functionContext isAsync isGenerator) do
    let generics ← typeParameters g
    let params ← parameters g role.parameters
    let result ← returnAnnotation? g
    expectThat (role != .constructor || (generics.binders.isEmpty && result.isNone))
    let tree (body : List Stmt) (braces : Option Span) : FunctionTree :=
      ⟨.mk name generics.binders generics.parts params.all (result.getD []) body braces,
        params, result.isSome, !isAsync && !isGenerator⟩
    if ← atPunct "\x7b" then
      let (body, braces) ← functionBody g
      return tree body (some braces)
    require (← dialect).typed
    expectThat (role != .expression)
    semicolon
    return tree [] none

/-- A function from the word `function` on. Its name is read in its own context in an expression and
in the surrounding one in a declaration. -/
def functionLike (g : Grammar) (role : FunctionRole) (isAsync : Bool) : Parser FunctionTree := do
  expectWord "function"
  let isGenerator ← takePunct "*"
  let readName : Parser (Option Binder) := do
    if ← atName then return some (← binder) else return none
  let name ←
    if role == .declaration then readName
    else within (functionContext isAsync isGenerator) readName
  functionTail g role isAsync isGenerator name

/-- Whether the word `async` at the next token begins a function on the same line. -/
def atAsyncFunction : Parser Bool := do
  unless ← atWord "async" do return false
  followedBy do
    advance
    return (← atWord "function") && !(← afterNewline)

/-- Whether a function begins at the next token. -/
def atFunction : Parser Bool := return (← atWord "function") || (← atAsyncFunction)

/-- A method after its key: the function expression, and what was read. -/
def method (g : Grammar) (role : FunctionRole) (isAsync isGenerator : Bool) :
    Parser (Expr × FunctionTree) := do
  splitOpen
  let first ← start
  let t ← functionTail g role isAsync isGenerator none
  return (.function (← spanFrom first) t.fn, t)

/-- Whether a parameter takes the rest. -/
def isRest (b : Binding) : Bool :=
  match b.pattern with
  | .rest _ => true
  | _ => false

/-- Whether a method fits for reading or writing a property. One that reads takes no parameter. One
that writes takes one, which is no rest and, where types are part of the grammar, has no default
value, and it has no return type. -/
def accessorFits (typed reads : Bool) (t : FunctionTree) : Bool :=
  if reads then t.params.filled.isEmpty
  else
    match t.params.filled with
    | [b] => !isRest b && !(typed && b.value.isSome) && !t.hasResult
    | _ => false

/-- A method that reads or writes a property, after its key. -/
def accessor (g : Grammar) (role : FunctionRole) (reads : Bool) :
    Parser (Expr × FunctionTree) := do
  let (e, t) ← method g role false false
  expectThat (accessorFits (← dialect).typed reads t)
  return (e, t)

/-! ## Class members -/

/-- An expression as a part of a class or a statement. -/
def part (e : Expr) : Stmt := .expression e.span e

/-- The key of a class member. A private member has no accessibility and is not the constructor. -/
def memberKey (g : Grammar) (found : Modifiers) : Parser Key := do
  match ← kind with
  | .privateName text =>
    expectThat (text != "constructor" && !found.hasAccessibility)
    advance
    return .hidden
  | _ => key g

/-- The name of a key that is not computed. -/
def keyName? : Key → Option String
  | .named b => some b.name
  | .quoted _ text => some text
  | _ => none

/-- The forms of a class member. -/
inductive MemberForm where
  /-- A method that is neither asynchronous nor a generator. -/
  | method
  /-- Any other function. -/
  | function
  /-- A field. -/
  | field
deriving DecidableEq, Repr, Inhabited

/-- Refuses names that a class member cannot have: only a plain method may be the constructor, and
no static member is the prototype. -/
def checkMember (found : Modifiers) (form : MemberForm) (k : Key) : Parser Unit := do
  let isStatic := found.has "static"
  if keyName? k == some "constructor" then
    expectThat (form == .method || (isStatic && form == .function))
  if keyName? k == some "prototype" then expectThat (!isStatic || (← read).ambient)

/-- A field of a class after its key and a question mark: its type, its value and the end of the
statement. -/
def field (g : Grammar) (found : Modifiers) (optional : Bool) : Parser (List Stmt) := do
  let isAccessor := found.has "accessor"
  allowOnly (if isAccessor then Modifiers.ofAccessorField else Modifiers.ofField) found
  expectThat (!(isAccessor && optional))
  let definite ← if (← dialect).typed then takePunct "!" else pure false
  expectThat (!(definite && optional))
  let types ← annotation g
  let value ← within (fun c => { c with inAsync := false, inGenerator := false }) (initial g)
  expectThat (!(found.has "abstract" && value.isSome))
  semicolon
  return (types ++ value.toList).map part

/-- A method or a field. -/
def methodOrField (g : Grammar) (found : Modifiers) : Parser (List Stmt) := do
  let isAsync := found.has "async"
  let isGenerator ← takePunct "*"
  let k ← memberKey g found
  let optional ← if (← dialect).typed then takePunct "?" else pure false
  splitOpen
  if isGenerator || (← atPunct "(") || (← atPunct "<") then
    allowOnly Modifiers.ofMethod found
    checkMember found (if isAsync || isGenerator then .function else .method) k
    let (e, t) ← method g .method isAsync isGenerator
    expectThat (!(found.has "abstract" && t.hasBody))
    return (k.parts ++ [e]).map part
  checkMember found .field k
  return k.parts.map part ++ (← field g found optional)

/-- A method that reads or writes a property, from its key on. -/
def accessorMember (g : Grammar) (found : Modifiers) (reads : Bool) : Parser (List Stmt) := do
  allowOnly Modifiers.ofAccessor found
  let k ← memberKey g found
  checkMember found .function k
  let (e, t) ← accessor g .method reads
  expectThat (!(found.has "abstract" && t.hasBody))
  return (k.parts ++ [e]).map part

/-- Whether a constructor begins at the next token: its name as a word, or as a string before a
parenthesis. -/
def atConstructor : Parser Bool := do
  match ← kind with
  | .word "constructor" _ => return true
  | .string "constructor" _ => followedBy do advance; atPunct "("
  | _ => return false

/-- A constructor. -/
def constructorMember (g : Grammar) (found : Modifiers) : Parser (List Stmt) := do
  allowOnly Modifiers.accessibility found
  advanceName
  let (e, _) ← method g .constructor false false
  return [part e]

/-- A block that runs when the class is made, from the word `static` on. -/
def staticBlock (g : Grammar) : Parser (List Stmt) := do
  expectWord "static"
  let enter (c : Context) : Context :=
    { c with inFunction := false, inAsync := true, inGenerator := false, inDecorator := false }
  let (body, braces) ← within enter (bracedStatements g)
  return [.block braces true body]

/-- A member of a class after its decorators. -/
def memberBody (g : Grammar) (decorated : Bool) : Parser (List Stmt) := do
  let found ← modifiers true true
  if ← atStaticBlock then
    expectThat (!decorated && found.words.isEmpty)
    return ← staticBlock g
  if ← takeModifier "get" then return ← accessorMember g found true
  if ← takeModifier "set" then return ← accessorMember g found false
  if !found.has "static" && (← atConstructor) then return ← constructorMember g found
  if (← dialect).typed && (← atIndexSignature) then
    expectThat (!decorated)
    allowOnly Modifiers.ofIndexSignature found
    return (← indexSignature g).map part
  methodOrField g found

/-- A member of a class. -/
def classMember (g : Grammar) : Parser (List Stmt) := do
  if ← takePunct ";" then return []
  let decorations ← decorators g
  let member ← memberBody g (!decorations.isEmpty)
  return decorations.map part ++ member

/-! ## Classes -/

/-- Type arguments, also if they begin on another line. -/
def heritageArguments (g : Grammar) : Parser (List Expr) := do
  unless (← dialect).typed do return []
  splitOpen
  if ← atPunct "<" then typeArguments g else return []

/-- An interface that a class implements: the expressions in its type arguments. -/
def implementedType (g : Grammar) : Parser (List Expr) := do
  let _ ← anyWord
  qualifiers
  heritageArguments g

/-- A class or interface that an interface extends: the expressions in its type arguments. Other
than in a type, its name begins with the name of a value. -/
def extendedType (g : Grammar) : Parser (List Expr) := do
  let _ ← binder
  qualifiers
  heritageArguments g

/-- A class that is extended, and the expressions in its type arguments. -/
def heritageClass (g : Grammar) : Parser (List Expr) := do
  let e ← g.leftHandSide
  return e :: (← heritageArguments g)

/-- What a class is built upon: one class that it extends, and then interfaces. -/
def heritage (g : Grammar) : Parser (List Expr) := do
  let (parts, _, _) ← loop (([] : List Expr), false, false) fun (parts, extends?, implements?) => do
    if ← takeWord "extends" then
      expectThat (!extends? && !implements?)
      let classes ← separated "," (heritageClass g)
      expectThat (classes.length == 1)
      return .again (parts ++ classes.flatten, true, implements?)
    if (← dialect).typed && (← takeWord "implements") then
      expectThat (!implements?)
      let types ← separated "," (implementedType g)
      return .again (parts ++ types.flatten, extends?, true)
    return .done (parts, extends?, implements?)
  return parts

/-- Everything of a class after the word `class`: its name and its parts. -/
def classTail (g : Grammar) : Parser (Option Binder × List Stmt) := do
  let name ← if (← atName) && !(← atWord "implements") then pure (some (← binder)) else pure none
  let generics ← typeParameters g
  let parents ← heritage g
  expectPunct "\x7b"
  let members ← untilPunct "\x7d" (classMember g)
  return (name, (generics.parts ++ parents).map part ++ members.flatten)

end ComponentLint.Script.Parser
