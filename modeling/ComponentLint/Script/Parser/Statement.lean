import ComponentLint.Script.Parser.Expression

/-!
# Statements

Everything that may stand in a function or at the top level, except for imports and exports.
-/

namespace ComponentLint.Script.Parser

/-- An expression in parentheses as a part of a statement. -/
def condition (g : Grammar) : Parser Stmt := do
  expectPunct "("
  let e ← g.sequenceHere
  expectPunct ")"
  return part e

/-- Statements in braces as a region of their own. -/
def block (g : Grammar) : Parser Stmt := do
  let (body, braces) ← bracedStatements g
  return .block braces false body

/-- Whether the next token is a word that can name something anywhere. -/
def atBinderWord : Parser Bool := do
  match (← kind).word? with
  | some text => return !reservedWords.contains text
  | none => return false

/-- The kind of the token after the next one. -/
def kindAfter : Parser TokenKind := do
  let found ← lookAhead do
    advance
    kind
  return found.getD .eof

/-- Whether the word after the next token is the given one. -/
def isWordAfter (text : String) : Parser Bool := return (← kindAfter).word? == some text

/-! ## Variables -/

/-- The words that begin a variable declaration. -/
inductive VariableWord where
  | var
  | let
  | const
  | using
deriving DecidableEq, Repr, Inhabited

/-- How far the names of a declaration reach. -/
def VariableWord.reach : VariableWord → Reach
  | .var => .function
  | _ => .block

/-- Takes the exclamation mark after a name that says that a variable gets its value elsewhere. -/
def takeDefinite (p : Pattern) : Parser Bool := do
  if (← dialect).typed && isSingle p && !(← afterNewline) then takePunct "!" else return false

/-- One declarator. A resource has a name, and a variable that gets its value elsewhere has a type
and no initial value. -/
def declarator (g : Grammar) (word : VariableWord) : Parser Binding := do
  let first ← start
  let p ← g.pattern
  expectThat (word != .using || isSingle p.pattern)
  let definite ← takeDefinite p.pattern
  let types ← annotation? g
  let value ← if ← takePunct "=" then pure (some (← g.assignmentHere true)) else pure none
  expectThat (!definite || (types.isSome && value.isNone))
  return .mk (← spanFrom first) p.pattern (p.parts ++ types.getD []) value

/-- Whether a declarator has the initial value that it needs: a constant and a pattern need one,
unless the declaration is without implementation. -/
def declaratorFits (ambient : Bool) (word : VariableWord) (b : Binding) : Bool :=
  ambient || b.value.isSome || (isSingle b.pattern && word != .const)

/-- The declarators after the word of a declaration. -/
def declarators (g : Grammar) (word : VariableWord) : Parser (List Binding) :=
  separated "," (declarator g word)

/-- A variable declaration as a statement, after its word. Outside of the head of a loop a resource
has an initial value. -/
def variableStatement (g : Grammar) (first : Nat) (word : VariableWord) (single : Bool) :
    Parser Stmt := do
  let bs ← declarators g word
  expectThat (bs.all (declaratorFits (← read).ambient word))
  expectThat (word != .using || bs.all (·.value.isSome))
  semicolon
  expectThat (!(single && (word == .let || word == .const)))
  return .variables (← spanFrom first) word.reach bs

/-- Whether a declaration of a resource begins at the next token. In the head of a loop the word
`of` is not the name of one. -/
def atUsing (inLoop : Bool) : Parser Bool := do
  unless ← atWord "using" do return false
  followedBy do
    advance
    return (← atBinderWord) && !(← afterNewline) && !(inLoop && (← atWord "of"))

/-- Whether a declaration of an asynchronous resource begins at the next token. -/
def atAwaitUsing : Parser Bool := do
  unless ← atWord "await" do return false
  followedBy do
    advance
    return !(← afterNewline) && (← atUsing false)

/-- Takes the words of a declaration of a resource, if one begins at the next token. -/
def takeUsing (inLoop : Bool) : Parser Bool := do
  if ← atUsing inLoop then
    advance
    return true
  if ← atAwaitUsing then
    noteAwait
    advance
    advance
    return true
  return false

/-- Whether a token can continue an expression that begins with the name `let`: an operator that is
not logical, or an assignment sign. -/
def continuesLet (kind : TokenKind) : Bool :=
  match kind with
  | .punct p => p == "=" || updateSigns.contains p || (operatorLevel kind).any (3 < ·)
  | .word text _ => text == "in" || text == "instanceof"
  | _ => false

/-- A statement that begins with the word `let`: a declaration, or an expression in which it is a
name. -/
def letStatement (g : Grammar) (single : Bool) : Parser Stmt := do
  let first ← start
  let after ← kindAfter
  if continuesLet after then
    let e ← g.assignmentHere true
    semicolon
    return .expression (← spanFrom first) e
  if after == .punct "." || after == .punct "(" then
    let e ← g.sequenceHere
    return .expression (← spanFrom first) e
  if (single && after != .punct "[") || after == .punct ";" then
    let b ← binder
    semicolon
    return .expression (← spanFrom first) (.name b.span b.name)
  advance
  variableStatement g first .let single

/-! ## Loops -/

/-- The rest of a loop over the values or keys of something, from its operator on. -/
def iterationTail (g : Grammar) (head : List Stmt) : Parser (List Stmt) := do
  let range ← if ← takeWord "of" then g.assignmentHere true else do expectWord "in"; g.sequenceHere
  expectPunct ")"
  let body ← g.statement true
  return head ++ [part range, body]

/-- The rest of a loop with three clauses, from its first semicolon on. -/
def clausesTail (g : Grammar) (head : List Stmt) : Parser (List Stmt) := do
  expectPunct ";"
  let test ← if ← atPunct ";" then pure [] else pure [part (← g.expression)]
  expectPunct ";"
  let step ← if ← atPunct ")" then pure [] else pure [part (← g.expression)]
  expectPunct ")"
  let body ← g.statement true
  return head ++ test ++ step ++ [body]

/-- Takes the words of a variable declaration in the head of a loop, if one begins at the next
token. -/
def loopWord? : Parser (Option VariableWord) := do
  if ← takeWord "var" then return some .var
  if ← takeWord "const" then return some .const
  if (← kind) == .word "let" false then
    let declares := match ← kindAfter with
      | .word text _ => text != "in"
      | .punct p => p == "[" || p == "\x7b"
      | _ => false
    if declares then
      advance
      return some .let
  if ← takeUsing true then return some .using
  return none

/-- The head of a loop that declares variables, after its word, and its body. -/
def declaringLoop (g : Grammar) (waits : Bool) (first : Nat) (word : VariableWord) :
    Parser (List Stmt) := do
  let bs ← within (fun c => { c with inAllowed := false }) (declarators g word)
  let head : Stmt := .variables (← spanFrom first) word.reach bs
  if ← atWord "of" then return ← iterationTail g [head]
  expectThat (!waits)
  if ← atWord "in" then
    expectThat (word != .using)
    return ← iterationTail g [head]
  expectThat (bs.all (declaratorFits (← read).ambient word))
  clausesTail g [head]

/-- The head of a loop that begins with an expression, and its body. Before `of` the expression does
not begin with the word `let`, nor is it the word `async` in a loop that does not wait. -/
def expressionLoop (g : Grammar) (waits : Bool) : Parser (List Stmt) := do
  let beginsWithLet ← atWord "let"
  let isAsyncOf := (← kind) == .word "async" false && (← isWordAfter "of")
  let e ← within (fun c => { c with inAllowed := false }) g.sequenceHere
  if ← atWord "of" then
    expectThat (!beginsWithLet && (waits || !isAsyncOf))
    let t ← targetOf e
    return ← iterationTail g [.target t]
  expectThat (!waits)
  if ← atWord "in" then
    let t ← targetOf e
    return ← iterationTail g [.target t]
  clausesTail g [part e]

/-- What stands in the parentheses of a loop, and its body. A loop that waits goes over values. -/
def forTail (g : Grammar) (waits : Bool) : Parser (List Stmt) := do
  let first ← start
  if ← atPunct ";" then
    expectThat (!waits)
    return ← clausesTail g []
  match ← loopWord? with
  | some word => declaringLoop g waits first word
  | none => expressionLoop g waits

/-- A loop that begins with `for`, from that word on. -/
def forStatement (g : Grammar) (first : Nat) : Parser Stmt := do
  let waits ← atWord "await"
  if waits then
    noteAwait
    advance
  expectPunct "("
  let parts ← forTail g waits
  return .block (← spanFrom first) false parts

/-! ## Other statements -/

/-- The second branch of a conditional statement, if there is one. -/
def elseBranch (g : Grammar) : Parser (List Stmt) := do
  if ← takeWord "else" then return [← g.statement true]
  return []

/-- One case of a `switch`. -/
def switchCase (g : Grammar) : Parser (List Stmt) := do
  let test ← if ← takeWord "default" then pure []
    else do
      expectWord "case"
      pure [part (← g.sequenceHere)]
  expectPunct ":"
  let body ← loop [] fun body => do
    if (← atWord "case") || (← atWord "default") || (← atPunct "\x7d") then return .done body
    return .again ((← g.statement false) :: body)
  return test ++ body.reverse

/-- The cases of a `switch` with their braces. -/
def switchCases (g : Grammar) : Parser Stmt := do
  let first ← start
  expectPunct "\x7b"
  let cases ← untilPunct "\x7d" (switchCase g)
  return .block (← spanFrom first) false cases.flatten

/-- The handler of a `try` statement, from the word `catch` on. What is caught belongs to the names
of the block that handles it. -/
def catchClause (g : Grammar) : Parser Stmt := do
  let first ← start
  expectWord "catch"
  let caught ← if ← takePunct "(" then
      let p ← g.pattern
      let types ← annotation g
      expectPunct ")"
      pure [Stmt.declaration (← spanFrom first) p.pattern.binders true
        ((p.parts ++ types).map part)]
    else pure []
  let (body, braces) ← bracedStatements g
  return .block braces false (caught ++ body)

/-- A `try` statement, from that word on. -/
def tryStatement (g : Grammar) (first : Nat) : Parser Stmt := do
  let body ← block g
  let handler ← if ← atWord "catch" then pure [← catchClause g] else pure []
  let last ← if ← takeWord "finally" then pure [← block g] else pure []
  expectThat (!(handler.isEmpty && last.isEmpty))
  return .compound (← spanFrom first) (body :: handler ++ last)

/-- A statement that jumps, from its word on. -/
def jump (first : Nat) : Parser Stmt := do
  unless ← canEndStatement do
    let _ ← binder
  semicolon
  return .compound (← spanFrom first) []

/-- A statement that an expression begins, or a label. -/
def expressionStatement (g : Grammar) : Parser Stmt := do
  let first ← start
  if (← atName) && (← kindAfter) == .punct ":" then
    let _ ← binder
    advance
    let body ← g.statement true
    return .compound (← spanFrom first) [body]
  let e ← g.sequenceHere
  semicolon
  return .expression (← spanFrom first) e

/-- A statement that a keyword begins, if the next token is one. -/
def keywordStatement? (g : Grammar) : Parser (Option Stmt) := do
  let first ← start
  match ← kind with
  | .word "if" _ =>
    advance
    let test ← condition g
    let yes ← g.statement true
    let no ← elseBranch g
    return some (.compound (← spanFrom first) (test :: yes :: no))
  | .word "for" _ =>
    advance
    return some (← forStatement g first)
  | .word "while" _ =>
    advance
    let test ← condition g
    let body ← g.statement true
    return some (.compound (← spanFrom first) [test, body])
  | .word "do" _ =>
    advance
    let body ← g.statement true
    expectWord "while"
    let test ← condition g
    let _ ← takePunct ";"
    return some (.compound (← spanFrom first) [body, test])
  | .word "with" _ =>
    advance
    let scope ← condition g
    let body ← g.statement true
    return some (.compound (← spanFrom first) [scope, body])
  | .word "switch" _ =>
    advance
    let on ← condition g
    let cases ← switchCases g
    return some (.compound (← spanFrom first) [on, cases])
  | .word "try" _ =>
    advance
    return some (← tryStatement g first)
  | .word "return" _ =>
    expectThat (← read).inFunction
    advance
    let value ← if ← canEndStatement then pure [] else pure [part (← g.expression)]
    semicolon
    return some (.compound (← spanFrom first) value)
  | .word "throw" _ =>
    advance
    expectThat (!(← afterNewline))
    let e ← g.sequenceHere
    semicolon
    return some (.compound (← spanFrom first) [part e])
  | .word "break" _ | .word "continue" _ =>
    advance
    return some (← jump first)
  | .word "debugger" _ =>
    advance
    semicolon
    return some (.compound (← spanFrom first) [])
  | .punct ";" =>
    advance
    return some (.compound (← spanFrom first) [])
  | .punct "\x7b" => return some (← block g)
  | _ => return none

/-! ## Functions and classes -/

/-- A function declaration from the word `function` on; `named` if it needs a name. In the place of
a single statement it is neither asynchronous nor a generator, and with the modifier `declare` it
has no body. -/
def functionDeclaration (g : Grammar) (first : Nat) (found : Modifiers) (named single : Bool) :
    Parser Stmt := do
  allowOnly ["async", "declare"] found
  let t ← functionLike g .declaration (found.has "async")
  expectThat (!named || t.fn.binder.isSome)
  expectThat (!single || t.isPlain)
  expectThat (!(found.has "declare" && t.hasBody))
  return .function (← spanFrom first) t.fn

/-- A function declaration with the words that begin it. -/
def plainFunction (g : Grammar) (named single : Bool) : Parser Stmt := do
  let first ← start
  let isAsync ← takeWord "async"
  functionDeclaration g first ⟨if isAsync then ["async"] else []⟩ named single

/-- A class declaration from the word `class` on, with its decorators. -/
def classDeclaration (g : Grammar) (first : Nat) (found : Modifiers) (decorations : List Expr) :
    Parser Stmt := do
  allowOnly ["abstract", "declare"] found
  expectWord "class"
  let (name, members) ← classTail g
  return .declaration (← spanFrom first) name.toList true (decorations.map part ++ members)

/-! ## Declarations of types and namespaces -/

/-- A type alias, from the word `type` on. -/
def typeAlias (g : Grammar) (first : Nat) : Parser Stmt := do
  expectWord "type"
  let name ← binder
  let generics ← typeParameters g
  expectPunct "="
  let t ← g.type
  semicolon
  return .declaration (← spanFrom first) [name] false ((generics.parts ++ t.parts).map part)

/-- An interface, from the word `interface` on. -/
def interfaceDeclaration (g : Grammar) (first : Nat) : Parser Stmt := do
  expectWord "interface"
  let name ← binder
  let generics ← typeParameters g
  let parents ← if ← takeWord "extends" then separated "," (extendedType g) else pure []
  let members ← typeMembers g
  let parts := generics.parts ++ parents.flatten ++ members
  return .declaration (← spanFrom first) [name] false (parts.map part)

/-- A member of an enumeration: the name it introduces, if any, and its parts. -/
def enumMember (g : Grammar) : Parser (List Stmt) := do
  let first ← start
  let k ← key g
  let names ← match k with
    | .named b => pure [b]
    | .quoted span text => pure [⟨text, span⟩]
    | .computed (.string span text) => pure [⟨text, span⟩]
    | .computed (.template _ []) => pure []
    | _ => fail
  let value ← initial g
  return [.declaration (← spanFrom first) names true (value.toList.map part)]

/-- An enumeration, from the word `enum` on. -/
def enumDeclaration (g : Grammar) (first : Nat) : Parser Stmt := do
  expectWord "enum"
  let name ← binder
  let open' ← start
  expectPunct "\x7b"
  let members ← commaList "\x7d" (enumMember g)
  let body : Stmt := .block (← spanFrom open') false members.flatten
  return .declaration (← spanFrom first) [name] true [body]

/-- The namespaces that a dotted name introduces, one in the other, the last of them with a body. -/
def nestSpaces (first stop : Nat) (braces : Span) (body : List Stmt) : List Binder → Stmt
  | [] => .space ⟨first, stop⟩ none braces body
  | [name] => .space ⟨first, stop⟩ (some name) braces body
  | name :: next :: more =>
    .space ⟨first, stop⟩ (some name) ⟨next.span.start, stop⟩
      [nestSpaces next.span.start stop braces body (next :: more)]

/-- A namespace, from its word on. One with a quoted name or the name `global` introduces no name; a
quoted name follows only the word `module`, and its body may be missing. -/
def namespaceDeclaration (g : Grammar) (first : Nat) : Parser Stmt := do
  let isGlobal ← atWord "global"
  let mayQuote ← atWord "module"
  advance
  let isQuoted ← if mayQuote then atString else pure false
  if isQuoted then
    advance
    unless ← atPunct "\x7b" do
      semicolon
      return .compound (← spanFrom first) []
  let names ← if isGlobal || isQuoted then pure [] else separated "." binder
  let (body, braces) ← bracedBody g
  return nestSpaces first (← lastStop) braces body names

/-- The rest of an import under a name of its own, from the name on: what is required from
elsewhere, or a qualified name. -/
def importAlias (first : Nat) : Parser Stmt := do
  let name ← binder
  expectPunct "="
  if ← takeWord "require" then
    expectPunct "("
    unless ← atString do fail
    advance
    expectPunct ")"
  else
    let _ ← anyWord
    qualifiers
  semicolon
  return .alias (← spanFrom first) name

/-! ## Declarations -/

/-- The words that begin a statement only where types are part of the grammar. -/
def typedOpeners : List String :=
  ["interface", "type", "module", "namespace", "declare", "enum", "private", "protected", "public",
    "abstract", "accessor", "static", "readonly", "global"]

/-- Whether a declaration begins at the next token, which is looked for behind the words that modify
one. -/
def atDeclaration : Parser Bool := followedBy do
  loop false fun _ => do
    match (← kind).word?.getD "" with
    | "var" | "let" | "const" | "function" | "class" | "enum" => return .done true
    | "interface" | "type" =>
      advance
      return .done ((← atBinderWord) && !(← afterNewline))
    | "module" | "namespace" =>
      advance
      return .done (((← atBinderWord) || (← atString)) && !(← afterNewline))
    | "abstract" | "accessor" | "async" | "declare" | "private" | "protected" | "public"
    | "readonly" =>
      advance
      if ← afterNewline then return .done false
      return .again false
    | "static" =>
      advance
      return .again false
    | "global" =>
      advance
      let isPlainWord := match (← kind).word? with
        | some text => !reservedWords.contains text && !contextualWords.contains text
        | none => false
      return .done (isPlainWord || (← atPunct "\x7b") || (← atWord "export"))
    | "import" =>
      advance
      return .done ((← atString) || (← atAnyWord) || (← atPunct "*") || (← atPunct "\x7b"))
    | "export" =>
      advance
      return .done ((← atPunct "=") || (← atPunct "*") || (← atPunct "\x7b") || (← atPunct "@") ||
        (← atWord "default") || (← atWord "as"))
    | _ => return .done false

/-- A declaration after its modifiers. -/
def declarationBody (g : Grammar) (first : Nat) (found : Modifiers) (decorations : List Expr) :
    Parser Stmt := do
  let word := (← kind).word?.getD ""
  if word == "class" then return ← classDeclaration g first found decorations
  expectThat decorations.isEmpty
  if word == "function" then return ← functionDeclaration g first found true false
  allowOnly ["declare"] found
  match word with
  | "const" =>
    advance
    if (← dialect).typed && (← atWord "enum") then enumDeclaration g first
    else variableStatement g first .const false
  | "var" =>
    advance
    variableStatement g first .var false
  | "let" =>
    advance
    variableStatement g first .let false
  | _ =>
    require (← dialect).typed
    match word with
    | "namespace" | "module" | "global" => namespaceDeclaration g first
    | "type" => typeAlias g first
    | "enum" => enumDeclaration g first
    | "interface" => interfaceDeclaration g first
    | "import" =>
      advance
      importAlias first
    | _ => fail

/-- A declaration with its modifiers. -/
def declaration (g : Grammar) (decorations : List Expr) : Parser Stmt := do
  let first ← start
  let found ← if (← dialect).typed then modifiers false false
    else if ← atAsyncFunction then do advance; pure ⟨["async"]⟩
    else pure {}
  let enter (c : Context) : Context := { c with ambient := c.ambient || found.has "declare" }
  within enter (declarationBody g first found decorations)

/-- A class with decorators before it. -/
def decoratedClass (g : Grammar) (first : Nat) (decorations : List Expr) (single : Bool) :
    Parser Stmt := do
  let found ← modifiers false false
  let enter (c : Context) : Context := { c with ambient := c.ambient || found.has "declare" }
  let s ← within enter (classDeclaration g first found decorations)
  expectThat (!single)
  return s

/-- A declaration as a statement, if one begins at the next token. -/
def declarationStatement? (g : Grammar) (single : Bool) : Parser (Option Stmt) := do
  let first ← start
  let text := (← kind).word?.getD ""
  match text with
  | "var" =>
    advance
    return some (← variableStatement g first .var single)
  | "const" =>
    advance
    if (← dialect).typed && (← atWord "enum") then return some (← enumDeclaration g first)
    return some (← variableStatement g first .const single)
  | "class" =>
    let s ← classDeclaration g first {} []
    expectThat (!single)
    return some s
  | _ =>
    if (← kind) == .word "let" false then return some (← letStatement g single)
    if ← atFunction then return some (← plainFunction g true single)
    if ← takeUsing false then return some (← variableStatement g first .using single)
    if (← dialect).typed && typedOpeners.contains text && (← atDeclaration) then
      return some (← within (fun c => { c with inAsync := false }) (declaration g []))
    return none

/-- A statement that is no import or export and has no decorators. -/
def plainStatement (g : Grammar) (single : Bool) : Parser Stmt := do
  if let some s ← keywordStatement? g then return s
  if let some s ← declarationStatement? g single then return s
  expressionStatement g

end ComponentLint.Script.Parser
