import ComponentLint.Script.Dialect
import ComponentLint.Script.Lexer

/-!
# Parsers

A parser reads tokens under a context that says what the surrounding construct allows, and keeps a
state: the next token, where the last one ended, the comments seen so far, and a few facts that only
the whole file decides. A file either parses or does not, but it can fail in two ways: a parser that
finds no way to go on gives up (`fail`), and a construct that can be read and is not allowed leaves
a flaw behind (`flaw`) while reading goes on. The difference shows where a parser is only tried and
then taken back: giving up ends the attempt, a flaw does not. What an attempt found out about arrow
functions is kept, so that nested attempts do not multiply.

The grammar is recursive. Its productions take their recursive occurrences as an argument
(`Grammar`), and the knot is tied once, in `ComponentLint.Script.Parser`, by recursion on a bound
that the length of the source gives.
-/

namespace ComponentLint.Script

/-- What the surrounding construct allows. -/
structure Context where
  /-- The dialect of the file. -/
  dialect : Dialect
  /-- More tokens than the source can hold; the bound of every loop. -/
  limit : Nat
  /-- The operator `in` is allowed. -/
  inAllowed : Bool := true
  /-- Inside a generator. -/
  inGenerator : Bool := false
  /-- Inside an asynchronous function, or at the top level of a module. -/
  inAsync : Bool := false
  /-- Inside a function, where `return` is allowed. -/
  inFunction : Bool := false
  /-- Outside of all braces. -/
  atTopLevel : Bool := true
  /-- Inside a declaration without implementation. -/
  ambient : Bool := false
  /-- Conditional types are allowed. -/
  conditionalTypes : Bool := true
  /-- Inside a decorator, where a square bracket does not continue the expression. -/
  inDecorator : Bool := false

/-- What has been read so far. -/
structure State where
  /-- The next token. -/
  token : Token
  /-- The place after the last token that was taken. -/
  here : Cursor
  /-- The comments before the next token, the last one first. -/
  comments : List Comment
  /-- Places where a parenthesis is known not to begin an arrow function. -/
  noArrow : List Nat := []
  /-- Places where a shorthand property has a default value, which only a target may have. -/
  defaults : List Nat := []
  /-- Places where the operand of a spread begins after which a comma stands. -/
  sealedSpreads : List Nat := []
  /-- Something was read that is not allowed. -/
  flawed : Bool := false
  /-- The file imports or exports something. -/
  isModule : Bool := false
  /-- The file waits outside of asynchronous functions, which only a module may do. -/
  modulesOnly : Bool := false
  /-- The word `await` was read as a name. -/
  awaitIsName : Bool := false
  /-- The names exported so far. -/
  exported : List String := []

/-- The offset at which a source stops being a program. -/
structure Failure where
  /-- The offset of the token that does not fit. -/
  offset : Nat
deriving DecidableEq, Repr, Inhabited

/-- A parser of values of type `α`. -/
abbrev Parser (α : Type) := ReaderT Context (EStateM Failure State) α

namespace Parser

/-- Gives up at the next token. -/
def fail {α : Type} : Parser α := do
  throw ⟨(← get).token.span.start⟩

/-- Gives up if a condition does not hold. -/
def require (condition : Bool) : Parser Unit :=
  if condition then pure () else fail

/-- Notes that something was read that is not allowed. -/
def flaw : Parser Unit := modify fun s => { s with flawed := true }

/-- Notes a flaw if a condition does not hold. -/
def expectThat (condition : Bool) : Parser Unit := do
  unless condition do flaw

/-- The next token. -/
def token : Parser Token := return (← get).token

/-- The kind of the next token. -/
def kind : Parser TokenKind := return (← token).kind

/-- The offset where the next token begins. -/
def start : Parser Nat := return (← token).span.start

/-- The offset where the last token that was taken ended. -/
def lastStop : Parser Nat := return (← get).here.offset

/-- The span from an offset to the end of the last token. -/
def spanFrom (first : Nat) : Parser Span := return ⟨first, ← lastStop⟩

/-- The dialect of the file. -/
def dialect : Parser Dialect := return (← read).dialect

/-- Goes on reading at a place, as if the last token had ended there. -/
def resumeAt (c : Cursor) (comments : List Comment) : Parser Unit :=
  modify fun s =>
    let token := c.token
    { s with here := c, token, comments := token.comments ++ comments }

/-- The comments before the place where the last token ended. -/
def settledComments : Parser (List Comment) := do
  let s ← get
  return s.comments.drop s.token.comments.length

/-- The words that are never names. -/
def reservedWords : List String :=
  ["break", "case", "catch", "class", "const", "continue", "debugger", "default", "delete", "do",
    "else", "enum", "export", "extends", "false", "finally", "for", "function", "if", "import",
    "in", "instanceof", "new", "null", "return", "super", "switch", "this", "throw", "true", "try",
    "typeof", "var", "void", "while", "with"]

/-- The words that have a meaning of their own in some places and are names elsewhere. -/
def contextualWords : List String :=
  ["abstract", "accessor", "any", "as", "asserts", "assert", "async", "await", "bigint", "boolean",
    "constructor", "declare", "defer", "from", "get", "global", "implements", "infer", "interface",
    "intrinsic", "is", "keyof", "let", "meta", "module", "namespace", "never", "number", "object",
    "of", "out", "override", "package", "private", "protected", "public", "readonly", "require",
    "satisfies", "set", "source", "static", "string", "symbol", "target", "type", "undefined",
    "unique", "unknown", "using", "yield"]

/-- Takes the next token as a name, which may be written with escapes. -/
def advanceName : Parser Unit := do
  let s ← get
  resumeAt s.token.next s.comments

/-- Takes the next token for what it is. No word with a meaning of its own may be written with
escapes then. -/
def advance : Parser Unit := do
  match ← kind with
  | .word text true => expectThat (!reservedWords.contains text && !contextualWords.contains text)
  | _ => pure ()
  advanceName

/-- Replaces the next token by one that is read differently from the same place. -/
def reread (kind : TokenKind) (next : Cursor) : Parser Unit :=
  modify fun s =>
    { s with token := { s.token with kind, next, span := ⟨s.token.span.start, next.offset⟩ } }

/-- Runs a parser under a changed context. -/
def within {α : Type} (change : Context → Context) (p : Parser α) : Parser α :=
  fun c => p (change c)

/-- Runs a parser without taking anything. -/
def lookAhead {α : Type} (p : Parser α) : Parser (Option α) := fun c s =>
  match p c s with
  | .ok a s' => .ok (some a) { s with noArrow := s'.noArrow }
  | .error _ s' => .ok none { s with noArrow := s'.noArrow }

/-- Whether a test on what follows succeeds; nothing is taken. -/
def followedBy (p : Parser Bool) : Parser Bool := return (← lookAhead p).getD false

/-- Runs a parser and takes back what it read if it fails. -/
def attempt {α : Type} (p : Parser α) : Parser (Option α) := fun c s =>
  match p c s with
  | .ok a s' => .ok (some a) s'
  | .error _ s' => .ok none { s with noArrow := s'.noArrow }

/-- How a loop goes on. -/
inductive Turn (α : Type) where
  /-- Another round. -/
  | again (value : α)
  /-- The last round is over. -/
  | done (value : α)

/-- At most `n` rounds of a loop. -/
def rounds {α : Type} (step : α → Parser (Turn α)) : Nat → α → Parser α
  | 0, _ => fail
  | n + 1, a => do
    match ← step a with
    | .again b => rounds step n b
    | .done b => pure b

/-- A loop. Every round of a loop takes at least one token, so the number of characters bounds the
number of rounds. -/
def loop {α : Type} (first : α) (step : α → Parser (Turn α)) : Parser α := do
  rounds step (← read).limit first

/-! ## Single tokens -/

/-- Whether the next token is the given punctuation. -/
def atPunct (text : String) : Parser Bool := return (← kind) == .punct text

/-- Whether the next token is the given word. -/
def atWord (text : String) : Parser Bool := return (← kind).word? == some text

/-- Whether a line ends before the next token. -/
def afterNewline : Parser Bool := return (← token).afterNewline

/-- Takes the given punctuation if it is next, and says whether it was. -/
def takePunct (text : String) : Parser Bool := do
  if ← atPunct text then advance; return true
  return false

/-- Takes the given keyword if it is next, and says whether it was. -/
def takeWord (text : String) : Parser Bool := do
  if ← atWord text then advance; return true
  return false

/-- Takes the given punctuation. -/
def expectPunct (text : String) : Parser Unit := do
  unless ← takePunct text do fail

/-- Takes the given keyword. -/
def expectWord (text : String) : Parser Unit := do
  unless ← takeWord text do fail

/-- Takes a closing angle bracket. -/
def expectClose : Parser Unit := expectPunct ">"

/-- Reads an opening angle bracket on its own where two of them could be read as a shift. -/
def splitOpen : Parser Unit := do
  if ← atPunct "<<" then
    reread (.punct "<") ((skipTrivia (← get).here).next.skip ['<'])

/-- The operators that begin with a closing angle bracket, longer before shorter. -/
def closeOperators : List (List Char × String) :=
  [">>>=", ">>>", ">>=", ">>", ">="].map fun p => (p.toList, p)

/-- Reads a closing angle bracket together with what follows it directly, as an operator. -/
def joinClose : Parser Unit := do
  if ← atPunct ">" then
    let trivia := skipTrivia (← get).here
    match closeOperators.find? fun p => Text.beginsWith trivia.next.rest p.1 with
    | some (cs, p) => reread (.punct p) (trivia.next.skip cs)
    | none => pure ()

/-- Whether a statement may end here without a semicolon. -/
def canEndStatement : Parser Bool := do
  let t ← token
  return t.afterNewline || t.kind == .eof || t.kind == .punct ";" || t.kind == .punct "\x7d"

/-- Takes the semicolon at the end of a statement, which may be left out before a line end, a
closing brace and the end of the file. -/
def semicolon : Parser Unit := do
  unless ← takePunct ";" do
    unless ← canEndStatement do fail

/-! ## Names -/

/-- Whether a word may be used as a name in a context. -/
def isNameIn (c : Context) (text : String) : Bool :=
  !reservedWords.contains text &&
  !(text == "await" && c.inAsync) &&
  !(text == "yield" && c.inGenerator)

/-- The name at the next token, if it is one. -/
def peekName : Parser (Option String) := do
  match ← kind with
  | .word text _ => return if isNameIn (← read) text then some text else none
  | _ => return none

/-- Whether the next token is a name. -/
def atName : Parser Bool := return (← peekName).isSome

/-- Notes the use of a word as a name. -/
def noteName (text : String) : Parser Unit := do
  if text == "await" then modify fun s => { s with awaitIsName := true }

/-- Takes a name. -/
def binder : Parser Binder := do
  match ← peekName with
  | some text =>
    let span := (← token).span
    noteName text
    advanceName
    return ⟨text, span⟩
  | none => fail

/-- Whether the next token is a name or a keyword. -/
def atAnyWord : Parser Bool := do
  match ← kind with
  | .word _ _ => return true
  | _ => return false

/-- Takes a name or a keyword. -/
def anyWord : Parser Binder := do
  match ← kind with
  | .word text _ =>
    let span := (← token).span
    advanceName
    return ⟨text, span⟩
  | _ => fail

/-- Notes that the file waits. Outside of asynchronous functions only a module may do so, and where
the content decides whether the file is one, that shows only in the end. -/
def noteAwait : Parser Unit := do
  let c ← read
  unless c.inAsync do
    if c.dialect.moduleKind == .byContent then modify fun s => { s with modulesOnly := true }
    else flaw

/-! ## Lists -/

/-- Items separated by commas up to the closing punctuation, which is taken. A comma may stand after
the last item. -/
def commaList {α : Type} (close : String) (item : Parser α) : Parser (List α) := do
  let items ← loop [] fun items => do
    if ← atPunct close then return .done items
    let a ← item
    if ← takePunct "," then return .again (a :: items)
    return .done (a :: items)
  expectPunct close
  return items.reverse

/-- Items separated by commas up to the closing punctuation, which is taken. An item that takes the
rest stands last; in a declaration without implementation a comma may stand after it. -/
def restList {α : Type} (close : String) (item : Parser (α × Bool)) : Parser (List α) := do
  let (items, _) ← loop (([] : List α), false) fun (items, restSeen) => do
    if ← atPunct close then return .done (items, restSeen)
    expectThat (!restSeen)
    let (a, isRest) ← item
    unless ← takePunct "," do return .done (a :: items, isRest)
    if ← atPunct close then
      expectThat (!isRest || (← read).ambient)
      return .done (a :: items, isRest)
    return .again (a :: items, restSeen || isRest)
  expectPunct close
  return items.reverse

/-- Items separated by the given punctuation: at least one. -/
def separated {α : Type} (mark : String) (item : Parser α) : Parser (List α) := do
  let first ← item
  let items ← loop [first] fun items => do
    if ← takePunct mark then
      let a ← item
      return .again (a :: items)
    return .done items
  return items.reverse

/-- Items up to the closing punctuation, which is taken. -/
def untilPunct {α : Type} (close : String) (item : Parser α) : Parser (List α) := do
  let items ← loop [] fun items => do
    if ← takePunct close then return .done items
    let a ← item
    return .again (a :: items)
  return items.reverse

/-- Runs a parser over a source from its beginning. -/
def run {α : Type} (p : Parser α) (dialect : Dialect) (source : List Char) :
    Except Failure (α × State) :=
  let here := Cursor.ofSource source
  let token := here.token
  let context : Context :=
    { dialect
      limit := source.length + 2
      inAsync := dialect.moduleKind == .module
      inFunction := dialect.moduleKind == .common
      ambient := dialect.definitions }
  match p context { token, here, comments := token.comments } with
  | .ok a s => .ok (a, s)
  | .error e _ => .error e

end Parser

end ComponentLint.Script
