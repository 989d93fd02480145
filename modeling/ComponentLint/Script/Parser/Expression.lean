import ComponentLint.Script.Parser.Function
import ComponentLint.Script.Target

/-!
# Expressions

From the inside out: literals and other primary expressions, members and calls, unary and binary
operators, arrow functions, assignments.
-/

namespace ComponentLint.Script.Parser

/-! ## Literals -/

/-- The holes of a template, the next token being its first piece. An untagged template may not
hold a malformed escape. -/
def templateHoles (g : Grammar) (tagged : Bool) : Parser (List Expr) := do
  match ← kind with
  | .template closed fits =>
    expectThat (tagged || fits)
    advance
    if closed then return []
    loop [] fun holes => do
      let e ← g.expression
      require (← atPunct "\x7d")
      let next := (← token).next
      match scanTemplate .between true next.offset next.rest with
      | none => fail
      | some (closed, fits, after) =>
        expectThat (tagged || fits)
        resumeAt after (← get).comments
        return if closed then .done (holes ++ [e]) else .again (holes ++ [e])
  | _ => fail

/-- An element of an array literal or an argument of a call. -/
def spreadable (g : Grammar) : Parser Expr := do
  let first ← start
  if ← takePunct "..." then
    let e ← g.assignment
    return .spread (← spanFrom first) e
  g.assignment

/-- Notes that a comma stands after a spread with the given operand, which then cannot take the rest
of a target. -/
def sealSpread (operand : Expr) : Parser Unit :=
  modify fun s => { s with sealedSpreads := operand.span.start :: s.sealedSpreads }

/-- The elements of an array literal after the opening bracket. -/
def arrayElements (g : Grammar) : Parser (List Expr) := do
  let found ← loop [] fun found => do
    if ← atPunct "]" then return .done found
    if ← takePunct "," then return .again found
    let e ← spreadable g
    unless ← takePunct "," do return .done (e :: found)
    match e with
    | .spread _ operand => sealSpread operand
    | _ => pure ()
    return .again (e :: found)
  expectPunct "]"
  return found.reverse

/-- A property with its key and its value. -/
def propertyOf (k : Key) (value : Expr) : Property :=
  match k with
  | .named b => .named b.span b.name value
  | .quoted span text | .computed (.string span text) => .quoted span text value
  | .computed e => .keyed (some e) value
  | .numeric | .hidden => .keyed none value

/-- A property of an object literal that is written in short: only its name, perhaps with a default
value if it turns out to be part of a target. -/
def shorthand (g : Grammar) (b : Binder) : Parser Property := do
  let use : Expr := .name b.span b.name
  noteName b.name
  if ← takePunct "=" then
    let value ← g.assignment
    modify fun s => { s with defaults := b.span.start :: s.defaults }
    return .named b.span b.name
      (.assign (← spanFrom b.span.start) (.name b.span b.name) value)
  return .named b.span b.name use

/-- A property of an object literal. -/
def property (g : Grammar) : Parser Property := do
  if ← takePunct "..." then
    let e ← g.assignment
    if ← atPunct "," then sealSpread e
    return .spread e
  let found ← modifiers false false
  allowOnly ["async"] found
  for (word, reads) in [("get", true), ("set", false)] do
    if ← takeModifier word then
      expectThat found.words.isEmpty
      let k ← key g
      return propertyOf k (← accessor g .expression reads).1
  let isAsync := found.has "async"
  let isGenerator ← takePunct "*"
  let usable ← atName
  let k ← key g
  splitOpen
  if isAsync || isGenerator || (← atPunct "(") || (← atPunct "<") then
    return propertyOf k (← method g .expression isAsync isGenerator).1
  if ← takePunct ":" then return propertyOf k (← g.assignment)
  match k with
  | .named b =>
    require usable
    shorthand g b
  | _ => fail

/-- A function expression. -/
def functionExpression (g : Grammar) : Parser Expr := do
  let first ← start
  let isAsync ← takeWord "async"
  let t ← functionLike g .expression isAsync
  return .function (← spanFrom first) t.fn

/-- A class expression, perhaps with decorators. -/
def classExpression (g : Grammar) : Parser Expr := do
  let first ← start
  let decorations ← decorators g
  expectWord "class"
  let (name, members) ← classTail g
  let parts := decorations.map fun e => Stmt.expression e.span e
  return .classLike (← spanFrom first) name (parts ++ members)

/-- A regular expression, the next token being its opening slash. -/
def regexLiteral : Parser Expr := do
  let c := (skipTrivia (← get).here).next
  match (c.skip ['/']).regex with
  | none => fail
  | some after =>
    resumeAt after (← get).comments
    return .atom ⟨c.offset, after.offset⟩

/-- An expression that begins with `import`: a call, or what the file knows about itself. -/
def importExpression (g : Grammar) : Parser Expr := do
  let first ← start
  expectWord "import"
  if ← takePunct "." then
    if ← takeWord "meta" then
      modify fun s => { s with isModule := true }
      return .atom (← spanFrom first)
    unless (← takeWord "source") || (← takeWord "defer") do fail
  expectPunct "("
  let args ← commaList ")" g.assignment
  expectThat (args.length == 1 || args.length == 2)
  return .compound (← spanFrom first) args

/-- The word `super`, which only a member access or a call may follow. -/
def superExpression : Parser Expr := do
  let span := (← token).span
  advance
  require ((← atPunct "(") || (← atPunct ".") || (← atPunct "["))
  return .atom span

/-- A primary expression that begins with a word. -/
def wordExpression (g : Grammar) (text : String) (span : Span) : Parser Expr := do
  match text with
  | "this" | "null" => advance; return .atom span
  | "true" | "false" => advance; return .boolean span
  | "function" => functionExpression g
  | "class" => classExpression g
  | "new" => g.construct
  | "import" => importExpression g
  | "super" => superExpression
  | _ =>
    if ← atAsyncFunction then return ← functionExpression g
    let b ← binder
    return .name b.span b.name

/-- A primary expression. -/
def primary (g : Grammar) : Parser Expr := do
  let first ← start
  let span := (← token).span
  match ← kind with
  | .word text _ => wordExpression g text span
  | .number value => advance; return .number span value
  | .bigint => advance; return .atom span
  | .string value _ => advance; return .string span value
  | .template _ _ =>
    let holes ← templateHoles g false
    return .template (← spanFrom first) holes
  | .punct "(" =>
    advance
    let e ← g.expression
    expectPunct ")"
    return .paren (← spanFrom first) e
  | .punct "[" =>
    advance
    let es ← arrayElements g
    return .array (← spanFrom first) es
  | .punct "\x7b" =>
    advance
    let ps ← commaList "\x7d" (Grammar.bracketed (property g))
    return .object (← spanFrom first) ps
  | .punct "/" | .punct "/=" => regexLiteral
  | .punct "@" => classExpression g
  | _ => fail

/-! ## Members and calls -/

/-- The arguments of a call with their parentheses. -/
def callArguments (g : Grammar) : Parser (List Expr) := do
  expectPunct "("
  commaList ")" (spreadable g)

/-- Words that continue an expression as operators. -/
def operatorWords : List String := ["in", "instanceof", "as", "satisfies"]

/-- Punctuation that can begin an expression and is no binary operator. -/
def expressionOpeners : List String := ["[", "\x7b", "/=", "~", "!", "++", "--", "<<", "@"]

/-- The words that are no names and can begin an expression. -/
def expressionWords : List String :=
  ["class", "delete", "false", "function", "new", "null", "super", "this", "true", "typeof", "void"]

/-- Whether the token after a list of type arguments in an expression lets it be one. It does if it
begins another line, is a binary operator, or cannot begin an expression. -/
def canFollowTypeArguments : Parser Bool := do
  let t ← token
  match t.kind with
  | .template _ _ => return true
  | .punct "(" => return true
  | .punct p =>
    if p == "<" || p == ">" || p == "+" || p == "-" then return false
    return t.afterNewline || !expressionOpeners.contains p
  | .word text _ =>
    if t.afterNewline || operatorWords.contains text then return true
    if text == "import" then
      return !(← followedBy do
        advance
        return (← atPunct "(") || (← atPunct ".") || (← atPunct "<"))
    return reservedWords.contains text && !expressionWords.contains text
  | .eof => return true
  | _ => return t.afterNewline

/-- Type arguments in an expression, or nothing if the angle bracket is an operator. -/
def expressionTypeArguments? (g : Grammar) : Parser (Option (List Expr)) := do
  unless (← dialect).typed do return none
  unless (← atPunct "<") || (← atPunct "<<") do return none
  attempt do
    splitOpen
    expectPunct "<"
    let types ← loop [] fun types => do
      if ← atPunct ">" then return .done types
      let t ← g.type
      if ← takePunct "," then return .again (t :: types)
      return .done (t :: types)
    joinClose
    expectClose
    require (← canFollowTypeArguments)
    expectThat (!types.isEmpty)
    return typeParts types.reverse

/-- An expression under way with the things that are done to it. -/
structure Postfix where
  /-- The expression so far. -/
  value : Expr
  /-- Whether a question mark was among what was done. -/
  inChain : Bool
  /-- The expressions in type arguments that have been read last and belong to nothing yet. -/
  pending : Option (List Expr) := none

/-- The expression as it stands: type arguments that nothing follows are part of it. A chain goes up
to them. -/
def Postfix.result (p : Postfix) (span : Span) : Expr :=
  let whole := if p.inChain then Expr.chain p.value.span p.value else p.value
  match p.pending with
  | none => whole
  | some types => .compound span (whole :: types)

/-- The expression as the object of what follows. -/
def Postfix.object (p : Postfix) (span : Span) : Expr :=
  match p.pending with
  | none => p.value
  | some types => .compound span (p.value :: types)

/-- What follows the point of a member access. -/
def memberAfterPoint (first : Nat) (object : Expr) (optional : Bool) : Parser Expr := do
  match ← kind with
  | .privateName _ =>
    advance
    return .hidden (← spanFrom first) object optional
  | _ =>
    let b ← anyWord
    return .member (← spanFrom first) object b.name optional

/-- An access by key, the next token being the opening bracket. -/
def keyAccess (g : Grammar) (first : Nat) (object : Expr) (optional : Bool) : Parser Expr := do
  expectPunct "["
  let k ← g.expression
  expectPunct "]"
  return .index (← spanFrom first) object k optional

/-- What follows a question mark with a point; `instantiated` if type arguments stand before it,
after which no property is accessed by its name. -/
def afterQuestionPoint (g : Grammar) (first : Nat) (e : Expr) (instantiated : Bool) :
    Parser Expr := do
  if ← atPunct "[" then return ← keyAccess g first e true
  let generics ← expressionTypeArguments? g
  if ← atPunct "(" then
    let args ← callArguments g
    return .call (← spanFrom first) e (generics.getD []) args true
  require generics.isNone
  expectThat (!instantiated)
  memberAfterPoint first e true

/-- One thing that is done to an expression: an access, a call, a template, an assertion, type
arguments. No property of an expression with type arguments can be accessed by its name. -/
def postfixStep (g : Grammar) (first : Nat) (calls : Bool) (p : Postfix) :
    Parser (Turn Postfix) := do
  let object := p.object (← spanFrom first)
  let again (e : Expr) : Parser (Turn Postfix) := return .again ⟨e, p.inChain, none⟩
  match ← kind with
  | .punct "?." =>
    if !calls then return .done p
    expectThat (!(← read).inDecorator)
    advance
    return .again ⟨← afterQuestionPoint g first object p.pending.isSome, true, none⟩
  | .punct "." =>
    expectThat p.pending.isNone
    advance
    again (← memberAfterPoint first object false)
  | .punct "[" =>
    if (← read).inDecorator then return .done p
    again (← keyAccess g first object false)
  | .punct "(" =>
    unless calls do return .done p
    let args ← callArguments g
    again (.call (← spanFrom first) p.value (p.pending.getD []) args false)
  | .punct "!" =>
    if !(← dialect).typed || (← afterNewline) then return .done p
    advance
    again (.asserted (← spanFrom first) object [])
  | .template _ _ =>
    expectThat (!p.inChain)
    let holes ← templateHoles g true
    again (.compound (← spanFrom first) (p.value :: p.pending.getD [] ++ holes))
  | .punct "<" | .punct "<<" =>
    match ← expressionTypeArguments? g with
    | none => return .done p
    | some generics => return .again ⟨object, p.inChain, some generics⟩
  | _ => return .done p

/-- An expression that begins with `new`. Its callee takes no calls; its arguments may be left
out. -/
def construct (g : Grammar) : Parser Expr := do
  let first ← start
  expectWord "new"
  if ← takePunct "." then
    expectWord "target"
    return .atom (← spanFrom first)
  let calleeStart ← start
  let isImport ← atWord "import"
  let base ← primary g
  let p ← loop (⟨base, false, none⟩ : Postfix) (postfixStep g calleeStart false)
  let isCall := match p.value with
    | .compound _ _ => isImport
    | _ => false
  expectThat (!isCall)
  require (!(← atPunct "?."))
  let args ← if ← atPunct "(" then callArguments g else pure []
  return .construct (← spanFrom first) p.value (p.pending.getD []) args

/-- An expression with everything that is done to it without operators. -/
def leftHandSide (g : Grammar) : Parser Expr := do
  let first ← start
  let base ← primary g
  let p ← loop (⟨base, false, none⟩ : Postfix) (postfixStep g first true)
  return p.result (← spanFrom first)

/-! ## Unary operators -/

/-- Reads an expression as a place that is read and written. -/
def placeOf (e : Expr) : Parser Target :=
  match e.place? with
  | some t => pure t
  | none => fail

/-- Whether the next token lets the word `await` before it be an operator. -/
def canFollowAwait : Parser Bool := do
  let t ← token
  if t.afterNewline then return false
  match t.kind with
  | .word _ _ | .string _ _ | .number _ | .bigint => return true
  | _ => return false

/-- Whether the word `await` at the next token is an operator. -/
def atAwait : Parser Bool := do
  unless ← atWord "await" do return false
  if (← read).inAsync then return true
  followedBy do advance; canFollowAwait

/-- An operation that waits. -/
def awaitExpression (g : Grammar) : Parser Expr := do
  let first ← start
  noteAwait
  advance
  let e ← within (fun c => { c with inAsync := true }) g.unary
  return .compound (← spanFrom first) [e]

/-- A type assertion in angle brackets. -/
def angleAssertion (g : Grammar) : Parser Expr := do
  let first ← start
  expectPunct "<"
  let t ← g.type
  expectClose
  let e ← g.unary
  return .asserted (← spanFrom first) e t.parts

/-- An expression with an increment or decrement after it, or without. -/
def postfixUpdate (g : Grammar) : Parser Expr := do
  let first ← start
  let e ← leftHandSide g
  if ← afterNewline then return e
  if (← atPunct "++") || (← atPunct "--") then
    let t ← placeOf e
    advance
    return .update (← spanFrom first) t none
  return e

/-- An expression with the unary operators before it. Nothing is done to an element of markup. -/
def unary (g : Grammar) : Parser Expr := do
  let first ← start
  let operator : Parser Expr := do
    advance
    let e ← g.unary
    return .compound (← spanFrom first) [e]
  match ← kind with
  | .punct "-" =>
    advance
    let e ← g.unary
    return .negation (← spanFrom first) e
  | .punct "+" | .punct "!" | .punct "~" => operator
  | .word "typeof" _ | .word "void" _ | .word "delete" _ => operator
  | .punct "++" | .punct "--" =>
    advance
    let t ← placeOf (← g.unary)
    return .update (← spanFrom first) t none
  | .punct "<" =>
    if (← dialect).markup then g.element
    else if (← dialect).typed then angleAssertion g
    else fail
  | _ => if ← atAwait then awaitExpression g else postfixUpdate g

/-! ## Binary operators -/

/-- The level of the comparisons, to which the type operators belong. -/
def comparisonLevel : Nat := 8

/-- The level of the power operator, which groups to the right. -/
def powerLevel : Nat := 12

/-- The level of a binary operator: the higher, the more tightly it binds. -/
def operatorLevel : TokenKind → Option Nat
  | .punct "??" => some 1
  | .punct "||" => some 2
  | .punct "&&" => some 3
  | .punct "|" => some 4
  | .punct "^" => some 5
  | .punct "&" => some 6
  | .punct "==" | .punct "!=" | .punct "===" | .punct "!==" => some 7
  | .punct "<" | .punct ">" | .punct "<=" | .punct ">=" => some comparisonLevel
  | .word text _ => if operatorWords.contains text then some comparisonLevel else none
  | .punct "<<" | .punct ">>" | .punct ">>>" => some 9
  | .punct "+" | .punct "-" => some 10
  | .punct "*" | .punct "/" | .punct "%" => some 11
  | .punct "**" => some powerLevel
  | _ => none

/-- Whether an expression is a logical operation of one of the two sorts that may not be mixed. -/
def isLogical (coalescing : Bool) : Expr → Bool
  | .logical _ c _ _ => c == coalescing
  | _ => false

/-- Whether the next token is an opening parenthesis. -/
def atParen : Parser Bool := atPunct "("

/-- Whether the operator that tests for a missing value stands beside another logical one. Operands
that begin with a parenthesis are left alone, and if the right one is logical the left one is
too. -/
def isMixed (leftParen rightParen : Bool) (left right : Expr) : Bool :=
  match right with
  | .logical _ coalescing _ _ => !rightParen && !coalescing
  | _ => !leftParen && isLogical false left

/-- The result of a binary operator. -/
def binaryResult (span : Span) (level : Nat) (left right : Expr) : Expr :=
  if level ≤ 3 then .logical span (level == 1) left right else .binary span left right

/-- An operator with a type on its right. -/
def typeOperator (g : Grammar) (first : Nat) (left : Expr) (word : String) : Parser Expr := do
  advance
  let t ← g.type
  let span ← spanFrom first
  return if word == "as" then .cast span left t.span t.parts else .satisfies span left t.parts

/-- The operators after a first operand that bind more tightly than a level. `leftParen` if that
operand begins with a parenthesis, and `signed` if it is a unary operation, which no power may
follow. -/
def operatorsAfter (g : Grammar) (first level : Nat) (leftParen signed : Bool) (left : Expr) :
    Parser Expr := do
  let (value, _) ← loop (left, signed) fun (left, signed) => do
    joinClose
    let t ← token
    match operatorLevel t.kind with
    | none => return .done (left, signed)
    | some own =>
      if own < level || (own == level && own != powerLevel) then return .done (left, signed)
      if t.kind.word? == some "in" && !(← read).inAllowed then return .done (left, signed)
      if t.kind.word? == some "as" || t.kind.word? == some "satisfies" then
        if t.afterNewline || !(← dialect).typed then return .done (left, signed)
        let e ← typeOperator g first left (t.kind.word?.getD "")
        return .again (e, false)
      expectThat (!(own == powerLevel && signed))
      advance
      let rightParen ← atParen
      let right ← g.operators own
      expectThat (!(own == 1 && isMixed leftParen rightParen left right))
      return .again (binaryResult (← spanFrom first) own left right, false)
  return value

/-- Whether a unary operation that may not stand before a power begins at the next token. -/
def atSignOperator : Parser Bool := do
  match ← kind with
  | .punct p => return p == "-" || p == "+" || p == "!" || p == "~"
  | .word text _ =>
    return text == "typeof" || text == "void" || text == "delete" || (← atAwait)
  | _ => return false

/-- A private name that is looked up in an object, which is not the result of another such
operation. -/
def privateLookup (g : Grammar) : Parser Expr := do
  let first ← start
  advance
  expectWord "in"
  let nested ← match ← kind with
    | .privateName _ => pure true
    | _ => pure false
  let right ← g.operators comparisonLevel
  require (!nested)
  return .compound (← spanFrom first) [right]

/-- An expression of operators that bind more tightly than a level. -/
def operators (g : Grammar) (level : Nat) : Parser Expr := do
  let first ← start
  match ← kind with
  | .privateName _ =>
    require (← read).inAllowed
    operatorsAfter g first level false false (← privateLookup g)
  | _ =>
    let leftParen ← atParen
    let signed ← atSignOperator
    operatorsAfter g first level leftParen signed (← unary g)

/-! ## Arrow functions -/

/-- The body of an arrow function. -/
def arrowBody (g : Grammar) (isAsync returnType : Bool) : Parser (List Stmt × Option Span) := do
  let enter (c : Context) : Context := { c with inAsync := isAsync, inGenerator := false }
  if ← atPunct "\x7b" then
    let (body, braces) ← within enter (functionBody g)
    return (body, some braces)
  let e ← within enter (g.assignmentHere returnType)
  return ([.expression e.span e], none)

/-- What stands before the arrow of an arrow function. -/
structure ArrowHead where
  /-- Whether the function is asynchronous. -/
  isAsync : Bool
  /-- Its type parameters. -/
  generics : Generics := {}
  /-- Its parameters. -/
  params : List Binding
  /-- The expressions in its return type, if there is one. -/
  result : Option (List Expr) := none

/-- The head of an arrow function in parentheses up to the arrow. -/
def arrowHead (g : Grammar) : Parser ArrowHead := do
  let isAsync ← takeWord "async"
  let enter (c : Context) : Context := { c with inAsync := c.inAsync || isAsync }
  let head ← within enter do
    let generics ← typeParameters g
    let params ← parameters g .arrow
    let result ← returnAnnotation? g
    return { isAsync, generics, params := params.all, result : ArrowHead }
  require ((← atPunct "=>") && !(← afterNewline))
  return head

/-- An arrow function from its arrow on. -/
def arrowFrom (g : Grammar) (first : Nat) (returnType : Bool) (head : ArrowHead) :
    Parser Expr := do
  require (!(← afterNewline))
  expectPunct "=>"
  let (body, braces) ← arrowBody g head.isAsync returnType
  let fn : Function :=
    .mk none head.generics.binders head.generics.parts head.params (head.result.getD []) body braces
  return .function (← spanFrom first) fn

/-- An arrow function whose only parameter is a name. -/
def simpleArrow (g : Grammar) (first : Nat) (b : Binder) (isAsync returnType : Bool) :
    Parser Expr :=
  arrowFrom g first returnType { isAsync, params := [.mk b.span (.single b) [] none] }

/-- How sure it is that an arrow function begins somewhere. -/
inductive Likelihood where
  | no
  | maybe
  | yes
deriving DecidableEq, Repr, Inhabited

/-- Whether an arrow function begins with the parenthesis that has just been taken. -/
def arrowAfterParen : Parser Likelihood := do
  if ← takePunct ")" then
    if (← atPunct "=>") || (← atPunct ":") || (← atPunct "\x7b") then return .yes
    return .no
  if (← atPunct "[") || (← atPunct "\x7b") then return .maybe
  if ← atPunct "..." then return .yes
  unless (← atName) || (← atWord "this") do return .no
  advance
  if ← atPunct ":" then return .yes
  if ← takePunct "?" then
    if (← atPunct ":") || (← atPunct ",") || (← atPunct "=") || (← atPunct ")") then return .yes
    return .no
  if (← atPunct ",") || (← atPunct "=") || (← atPunct ")") then return .maybe
  return .no

/-- Whether an arrow function begins with the angle bracket that has just been taken. In markup only
a comma, an equals sign or a bound tells type parameters from an element. -/
def arrowAfterAngle : Parser Likelihood := do
  unless (← atName) || (← atWord "const") do return .no
  unless (← dialect).markup do return .maybe
  let _ ← takeWord "const"
  advance
  if ← takeWord "extends" then
    if (← atPunct "=") || (← atPunct ">") || (← atPunct "/") then return .no
    return .yes
  if (← atPunct ",") || (← atPunct "=") then return .yes
  return .no

/-- Whether an arrow function with parentheses begins at the next token. -/
def arrowLikelihood : Parser Likelihood := do
  let answer ← lookAhead do
    if ← takeWord "async" then
      if ← afterNewline then return .no
    if ← takePunct "(" then return ← arrowAfterParen
    if (← dialect).typed && (← takePunct "<") then return ← arrowAfterAngle
    return .no
  return answer.getD .no

/-- Reads the rest of an arrow function whose head is only a guess. Between the question mark and
the colon of a conditional expression, a head with a return type counts only if a colon follows the
whole function. -/
def arrowGuess (g : Grammar) (first : Nat) (returnType : Bool) : Parser (Option Expr) := do
  if (← get).noArrow.contains first then return none
  let found ← attempt do
    let head ← arrowHead g
    if !returnType && head.result.isSome then
      let e ← arrowFrom g first returnType head
      require (← atPunct ":")
      return (Sum.inl e : Expr ⊕ ArrowHead)
    return Sum.inr head
  match found with
  | some (.inl e) => return some e
  | some (.inr head) => return some (← arrowFrom g first returnType head)
  | none =>
    modify fun s => { s with noArrow := first :: s.noArrow }
    return none

/-- An arrow function with parentheses, if one begins at the next token. -/
def parenthesizedArrow (g : Grammar) (returnType : Bool) : Parser (Option Expr) := do
  let first ← start
  match ← arrowLikelihood with
  | .no => return none
  | .maybe => arrowGuess g first returnType
  | .yes => return some (← arrowFrom g first true (← arrowHead g))

/-- Whether an asynchronous arrow function with a single name begins at the next token. -/
def atAsyncArrow : Parser Bool := do
  unless ← atWord "async" do return false
  followedBy do
    advance
    if (← afterNewline) || !(← atAnyWord) then return false
    unless ← atName do return false
    advance
    atPunct "=>"

/-! ## Assignments -/

/-- The signs that assign after an operation. -/
def updateSigns : List String :=
  ["+=", "-=", "*=", "/=", "%=", "**=", "<<=", ">>=", ">>>=", "&=", "|=", "^=", "&&=", "||=",
    "??="]

/-- Reads an expression as the target of an assignment. Default values in its shorthand properties
are in order then. -/
def targetOf (e : Expr) : Parser Target := do
  match e.target? (← get).sealedSpreads with
  | some r =>
    modify fun s => { s with defaults := s.defaults.filter (!r.defaults.contains ·) }
    return r.target
  | none => fail

/-- Whether the next token cannot begin the operand of `yield`. -/
def atYieldEnd : Parser Bool := do
  match ← kind with
  | .eof | .word "in" _ => return true
  | .punct p => return [")", "]", "\x7d", ",", ";", ":"].contains p
  | _ => return false

/-- An operation that begins with `yield`. -/
def yieldExpression (g : Grammar) : Parser Expr := do
  let first ← start
  advance
  if ← afterNewline then return .atom (← spanFrom first)
  let delegates ← takePunct "*"
  if !delegates && (← atYieldEnd) then return .atom (← spanFrom first)
  let e ← g.assignmentHere true
  return .compound (← spanFrom first) [e]

/-- What follows the left side of an assignment expression. -/
def assignmentRest (g : Grammar) (first : Nat) (returnType : Bool) (left : Expr) :
    Parser Expr := do
  joinClose
  match ← kind with
  | .punct "=" =>
    let t ← targetOf left
    advance
    let value ← g.assignmentHere returnType
    return .assign (← spanFrom first) t value
  | .punct "?" =>
    advance
    let yes ← Grammar.bracketed (g.assignmentHere false)
    expectPunct ":"
    let no ← g.assignmentHere returnType
    return .compound (← spanFrom first) [left, yes, no]
  | .punct p =>
    if updateSigns.contains p then
      let t ← placeOf left
      advance
      let value ← g.assignmentHere returnType
      return .update (← spanFrom first) t (some value)
    return left
  | _ => return left

/-- An assignment expression: everything but the comma. -/
def assignment (g : Grammar) (returnType : Bool) : Parser Expr := do
  let first ← start
  if (← read).inGenerator && (← atWord "yield") then return ← yieldExpression g
  if ← atAsyncArrow then
    advance
    return ← simpleArrow g first (← binder) true returnType
  if let some e ← parenthesizedArrow g returnType then return e
  let left ← operators g 0
  match left with
  | .name span text =>
    if ← atPunct "=>" then return ← simpleArrow g first ⟨text, span⟩ false returnType
    assignmentRest g first returnType left
  | _ => assignmentRest g first returnType left

end ComponentLint.Script.Parser
