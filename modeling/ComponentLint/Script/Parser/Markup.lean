import ComponentLint.Script.Parser.Types

/-!
# Markup

Elements with attributes and children. Names of elements may hold hyphens, attribute values are
strings without escapes, and the text between elements is no script at all; these three are read
from the source itself and not from tokens.
-/

namespace ComponentLint.Script.Parser

/-- The place where the next token begins. -/
def tokenCursor : Parser Cursor := return (skipTrivia (← get).here).next

/-- The characters from one place up to a later one. -/
def charsBetween (c : Cursor) (stop : Nat) : List Char :=
  (takeBytes c.rest (stop - c.offset)).getD []

/-- A simple name in markup: a word as it is written, and what a hyphen directly after it goes on
with. -/
def markupWord : Parser String := do
  unless ← atAnyWord do fail
  let c ← tokenCursor
  let next := (← token).next
  let more := match next.rest with
    | '-' :: _ => next.rest.takeWhile fun ch => Text.isNamePart ch || ch == '-'
    | _ => []
  resumeAt (next.skip more) (← get).comments
  return String.ofList (charsBetween c next.offset ++ more)

/-- The name of an element: simple, with a namespace, or a path of members, whose names hold no
hyphens. -/
def markupName : Parser String := do
  let first ← markupWord
  if ← takePunct ":" then return first ++ ":" ++ (← markupWord)
  loop first fun name => do
    unless ← takePunct "." do return .done name
    let member ← markupWord
    require (!member.toList.contains '-')
    return .again (name ++ "." ++ member)

/-- An expression in braces, the opening one being the next token. -/
def markupBraces (g : Grammar) : Parser Expr := do
  expectPunct "\x7b"
  let e ← g.expression
  expectPunct "\x7d"
  return e

/-- A string in an attribute, from its opening quote on. -/
def attributeString (c : Cursor) (quote : Char) : Parser Unit := do
  let body := (c.rest.drop 1).takeWhile (· != quote)
  let after := (c.skip [quote]).skip body
  require (after.rest.head? == some quote)
  resumeAt (after.skip [quote]) (← get).comments

/-- The value of an attribute after the equals sign. -/
def attributeValue (g : Grammar) : Parser (List Expr) := do
  let c ← tokenCursor
  match c.rest with
  | '"' :: _ => attributeString c '"'; return []
  | '\'' :: _ => attributeString c '\''; return []
  | '<' :: _ => return [← g.element]
  | _ => return [← markupBraces g]

/-- An attribute. -/
def markupAttribute (g : Grammar) : Parser (List Expr) := do
  if ← takePunct "\x7b" then
    expectPunct "..."
    let e ← g.expression
    expectPunct "\x7d"
    return [e]
  let _ ← markupWord
  if ← takePunct ":" then let _ ← markupWord
  if ← takePunct "=" then attributeValue g else return []

/-- A child in braces: an expression, a spread or nothing. -/
def bracedChild (g : Grammar) : Parser (List Expr) := do
  expectPunct "\x7b"
  if ← takePunct "\x7d" then return []
  let _ ← takePunct "..."
  let e ← g.expression
  expectPunct "\x7d"
  return [e]

/-- The children of an element up to the opening bracket of its closing tag, which is then the next
token but one. Text ends at a brace or an angle bracket. -/
def children (g : Grammar) : Parser (List Expr) := do
  loop [] fun found => do
    let c := (← get).here
    let text := c.rest.takeWhile fun ch =>
      ch != '\x7b' && ch != '<' && ch != '>' && ch != '\x7d'
    resumeAt (c.skip text) (← settledComments)
    match (← get).here.rest with
    | '\x7b' :: _ => return .again (found ++ (← bracedChild g))
    | '<' :: _ =>
      if ← followedBy do advance; atPunct "/" then return .done found
      return .again (found ++ [← g.element])
    | _ => fail

/-- The rest of an element or fragment with the given name after its opening tag. -/
def elementBody (g : Grammar) (name : String) : Parser (List Expr) := do
  let found ← children g
  expectPunct "<"
  expectPunct "/"
  let closing ← if ← atPunct ">" then pure "" else markupName
  require (closing == name)
  expectPunct ">"
  return found

/-- An element or a fragment. -/
def element (g : Grammar) : Parser Expr := do
  require (← dialect).markup
  let first ← start
  expectPunct "<"
  if ← takePunct ">" then
    let found ← elementBody g ""
    return .compound (← spanFrom first) found
  let name ← markupName
  let generics ← if (← dialect).typed && (← atPunct "<") then typeArguments g else pure []
  let attributes ← loop [] fun found => do
    if (← atPunct ">") || (← atPunct "/") then return .done found
    return .again (found ++ (← markupAttribute g))
  if ← takePunct "/" then
    expectPunct ">"
    return .compound (← spanFrom first) (generics ++ attributes)
  expectPunct ">"
  let found ← elementBody g name
  return .compound (← spanFrom first) (generics ++ attributes ++ found)

end ComponentLint.Script.Parser
