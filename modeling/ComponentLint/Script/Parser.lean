import ComponentLint.Script.Parser.Markup
import ComponentLint.Script.Parser.Module

/-!
# Reading a whole file

The grammar's knot is tied here: `grammar n` reads constructs that are nested at most `n` deep.
A source cannot nest deeper than it is long, so the bound that `parse` computes never decides.
-/

namespace ComponentLint.Script

/-- The production of each goal, given parsers for the goals inside it. -/
def production (g : Grammar) : Grammar
  | .assignment returnType => Parser.assignment g returnType
  | .operators level => Parser.operators g level
  | .unary => Parser.unary g
  | .leftHandSide => Parser.leftHandSide g
  | .construct => Parser.construct g
  | .element => Parser.element g
  | .statement single => Parser.statement g single
  | .pattern => Parser.pattern g
  | .type => Parser.type g
  | .operandType => Parser.operandType g

/-- The grammar for constructs that are nested at most `n` deep. -/
def grammar : Nat → Grammar
  | 0, _ => Parser.fail
  | n + 1, goal => production (grammar n) goal

namespace Parser

/-- Whether the file is by its content a module, as far as it has been read. -/
def turnedModule : Parser Bool := do
  return (← dialect).moduleKind == .byContent && (← get).isModule

/-- Runs a parser at the top level of a module, where it may wait. -/
def awaiting {α : Type} (p : Parser α) : Parser α := within (fun c => { c with inAsync := true }) p

/-- A statement of a file, and where it has to be read again if it uses the word `await` as a name
and the file turns out to be a module. -/
def topStatement (g : Grammar) : Parser (Stmt × Option State) := do
  if ← turnedModule then return (← awaiting (statement g false), none)
  modify fun s => { s with awaitIsName := false }
  let before ← get
  let s ← statement g false
  return (s, if (← get).awaitIsName then some before else none)

/-- The statements of a file as they are read first. String literals at its beginning are directives
and no statements. -/
def firstReading (g : Grammar) : Parser (List (Stmt × Option State)) := do
  let (body, _) ← loop (([] : List (Stmt × Option State)), true) fun (body, prologue) => do
    if (← kind) == .eof then return .done (body, prologue)
    let quoted ← atString
    let s ← topStatement g
    if prologue && quoted && isDirective s.1 then return .again (body, true)
    return .again (s :: body, false)
  return body.reverse

/-- Reads a statement again, now as one of a module, and goes back to the end of the file. -/
def readAgain (g : Grammar) (before : State) : Parser Stmt := do
  let after ← get
  set { before with noArrow := after.noArrow, flawed := false, defaults := [] }
  let s ← awaiting (statement g false)
  let now ← get
  set { after with
    flawed := after.flawed || now.flawed, defaults := after.defaults ++ now.defaults }
  return s

/-- The statements of a file. -/
def statements (g : Grammar) : Parser (List Stmt) := do
  let body ← firstReading g
  let isModule ← turnedModule
  body.mapM fun (s, before) =>
    match before with
    | some before => if isModule then readAgain g before else pure s
    | none => pure s

/-- A whole file. Nothing may have been flawed, a default value in a shorthand property must have
become part of a target, and only a module waits at its top level. -/
def program (g : Grammar) : Parser Program := do
  let body ← statements g
  let s ← get
  require (!s.flawed && s.defaults.isEmpty)
  require (s.isModule || !s.modulesOnly)
  return ⟨⟨0, ← start⟩, body, s.comments.reverse⟩

end Parser

/-- Reads a source in a dialect. -/
def parse (dialect : Dialect) (source : List Char) : Except Failure Program :=
  (Parser.run (Parser.program (grammar (4 * source.length + 8))) dialect source).map (·.1)

end ComponentLint.Script
