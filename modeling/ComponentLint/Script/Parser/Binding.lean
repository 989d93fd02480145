import ComponentLint.Script.Parser.Grammar

/-!
# Keys, patterns and parameters
-/

namespace ComponentLint.Script

/-- The key of a property, a member or a field. -/
inductive Key where
  /-- A name or keyword. -/
  | named (binder : Binder)
  /-- A string literal. -/
  | quoted (span : Span) (text : String)
  /-- A number. -/
  | numeric
  /-- An expression in square brackets. -/
  | computed (value : Expr)
  /-- A private name. -/
  | hidden

/-- The expressions inside a key. -/
def Key.parts : Key → List Expr
  | .computed e => [e]
  | _ => []

/-- Where parameters stand. -/
inductive ParameterRole where
  /-- In a function, a method of an object literal or a type. -/
  | plain
  /-- In an arrow function. -/
  | arrow
  /-- In a method of a class. -/
  | method
  /-- In a constructor. -/
  | constructor
deriving DecidableEq, Repr, Inhabited

/-- The parameters of a function. -/
structure Parameters where
  /-- The receiver, if its type is declared. -/
  receiver : Option Binding := none
  /-- The parameters that a caller fills. -/
  filled : List Binding := []
deriving Inhabited

/-- All parameters in source order. -/
def Parameters.all (ps : Parameters) : List Binding := ps.receiver.toList ++ ps.filled

namespace Parser

/-- Reads a key that is no private name. -/
def key (g : Grammar) : Parser Key := do
  match ← kind with
  | .word _ _ => return .named (← anyWord)
  | .string text _ =>
    let span := (← token).span
    advance
    return .quoted span text
  | .number _ | .bigint => advance; return .numeric
  | _ =>
    expectPunct "["
    let e ← g.assignment
    expectPunct "]"
    return .computed e

/-- A decorator after its sign. -/
def decoratorBody (g : Grammar) : Parser Expr :=
  within (fun c => { c with inDecorator := true }) g.leftHandSide

/-- Decorators, if there are any. -/
def decorators (g : Grammar) : Parser (List Expr) := do
  let found ← loop [] fun found => do
    if ← takePunct "@" then return .again ((← decoratorBody g) :: found)
    return .done found
  return found.reverse

/-- A type annotation, if there is one: the expressions inside it. -/
def annotation? (g : Grammar) : Parser (Option (List Expr)) := do
  if (← dialect).typed && (← takePunct ":") then return some (← g.type).parts
  return none

/-- The expressions inside a type annotation, if there is one. -/
def annotation (g : Grammar) : Parser (List Expr) := return (← annotation? g).getD []

/-- A default or initial value, if there is one. -/
def initial (g : Grammar) : Parser (Option Expr) := do
  if ← takePunct "=" then return some (← g.assignment)
  return none

/-! ## Patterns -/

/-- An element of a pattern with its default value. -/
def patternElement (g : Grammar) : Parser (List Binder × List Expr) := do
  let p ← g.pattern
  let value ← initial g
  return (p.pattern.binders, p.parts ++ value.toList)

/-- The names and the expressions of some elements of a pattern. -/
def joinElements (elements : List (List Binder × List Expr)) : PatternTree :=
  ⟨.destructured (elements.flatMap (·.1)), elements.flatMap (·.2)⟩

/-- The elements of an array pattern after the opening bracket. -/
def arrayPattern (g : Grammar) : Parser PatternTree := do
  let elements ← restList "]" do
    if ← atPunct "," then return (([], []), false)
    if ← takePunct "..." then
      let p ← g.pattern
      return ((p.pattern.binders, p.parts), true)
    return (← patternElement g, false)
  return joinElements elements

/-- A property of an object pattern. -/
def patternProperty (g : Grammar) : Parser (List Binder × List Expr) := do
  let usable ← atName
  match ← key g with
  | .named b =>
    if ← takePunct ":" then patternElement g
    else
      require usable
      noteName b.name
      return ([b], (← initial g).toList)
  | k =>
    expectPunct ":"
    let (names, parts) ← patternElement g
    return (names, k.parts ++ parts)

/-- The properties of an object pattern after the opening brace. -/
def objectPattern (g : Grammar) : Parser PatternTree := do
  let properties ← restList "\x7d" do
    if ← takePunct "..." then return (([← binder], []), true)
    return (← patternProperty g, false)
  return joinElements properties

/-- A binding pattern. -/
def pattern (g : Grammar) : Parser PatternTree := do
  if ← takePunct "[" then arrayPattern g
  else if ← takePunct "\x7b" then objectPattern g
  else return ⟨.single (← binder), []⟩

/-! ## Parameters -/

/-- Whether a pattern is a single name. -/
def isSingle : Pattern → Bool
  | .single _ => true
  | _ => false

/-- A parameter that takes the rest, from its dots on. -/
def restParameter (g : Grammar) (first : Nat) (decorations : List Expr) : Parser Binding := do
  expectPunct "..."
  let p ← g.pattern
  let types ← annotation g
  return .mk (← spanFrom first) (.rest p.pattern.binders) (decorations ++ p.parts ++ types) none

/-- A parameter, and whether it takes the rest. Only methods of classes have decorators on their
parameters, and only a constructor makes fields of them. -/
def parameter (g : Grammar) (role : ParameterRole) : Parser (Binding × Bool) := do
  let first ← start
  let decorations ← decorators g
  expectThat (decorations.isEmpty || role == .method || role == .constructor)
  if ← atPunct "..." then return (← restParameter g first decorations, true)
  let found ← modifiers false false
  allowOnly (if role == .constructor then Modifiers.ofParameterField else []) found
  let p ← g.pattern
  expectThat (found.words.isEmpty || isSingle p.pattern)
  let optional ← if (← dialect).typed then takePunct "?" else pure false
  let types ← annotation g
  let value ← initial g
  expectThat (!(optional && value.isSome))
  return (.mk (← spanFrom first) p.pattern (decorations ++ p.parts ++ types) value, false)

/-- The receiver at the beginning of a list of parameters, if its type is declared. -/
def receiver? (g : Grammar) : Parser (Option Binding) := do
  let first ← start
  unless (← dialect).typed && (← takeWord "this") do return none
  let types ← annotation g
  let receiver : Binding := .mk (← spanFrom first) (.destructured []) types none
  unless ← atPunct ")" do expectPunct ","
  return some receiver

/-- The parameters of a function with their parentheses. Arrow functions and constructors declare no
receiver. -/
def parameters (g : Grammar) (role : ParameterRole) : Parser Parameters := do
  expectPunct "("
  let receiver ← receiver? g
  expectThat (receiver.isNone || (role != .arrow && role != .constructor))
  let filled ← restList ")" (Grammar.bracketed (parameter g role))
  return ⟨receiver, filled⟩

end Parser

end ComponentLint.Script
