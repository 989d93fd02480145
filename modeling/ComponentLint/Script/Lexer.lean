import ComponentLint.Script.Lexer.Numeral
import ComponentLint.Script.Lexer.Quoted
import ComponentLint.Text.Affix

/-!
# Reading the next token

`Cursor.token` passes over what stands between tokens and reads one. A closing angle bracket is
always read on its own: whether it ends a list of type arguments or begins an operator is for the
grammar to say.
-/

namespace ComponentLint.Script

/-- Punctuation, longer before shorter. -/
def punctuators : List (String × List Char) :=
  [">", "\x7b", "\x7d", "(", ")", "[", "]", ";", ",", "~", ":", "@",
    "...", ".", "=>", "===", "==", "=", "!==", "!=", "!",
    "++", "+=", "+", "--", "-=", "-", "**=", "**", "*=", "*", "/=", "/", "%=", "%",
    "<<=", "<<", "<=", "<", "&&=", "&&", "&=", "&", "||=", "||", "|=", "|", "^=", "^",
    "??=", "??", "?.", "?"].map fun p => (p, p.toList)

/-- The punctuation at the front of a text. A question mark before a point and a digit stands
alone, because the point belongs to the number. -/
def punctuator (s : List Char) : Option (String × List Char) :=
  match s with
  | '?' :: '.' :: d :: _ =>
    if d.isDigit then some ("?", ['?']) else some ("?.", ['?', '.'])
  | _ => punctuators.find? fun p => Text.beginsWith s p.2

/-- Reads the token that stands directly at a place. -/
def Cursor.tokenHere (c : Cursor) : TokenKind × Cursor :=
  match c.rest with
  | [] => (.eof, c)
  | first :: more =>
    if Text.isNameStart first || first == '\\' then
      match c.word with
      | some (text, escaped, next) => (.word text escaped, next)
      | none => (.invalid, c)
    else if first.isDigit || (first == '.' && (more.head?.map Char.isDigit).getD false) then
      match numeral c.rest with
      | some (kind, rest) => (kind, ⟨rest, c.offset + (c.rest.length - rest.length)⟩)
      | none => (.invalid, c)
    else if first == '"' || first == '\'' then
      match scanString first .between [] (c.offset + 1) more with
      | some (value, wellFormed, next) => (.string value wellFormed, next)
      | none => (.invalid, c)
    else if first == '\x60' then
      match scanTemplate .between true (c.offset + 1) more with
      | some (closed, fits, next) => (.template closed fits, next)
      | none => (.invalid, c)
    else if first == '#' then
      match (Cursor.mk more (c.offset + 1)).word with
      | some (text, _, next) => (.privateName text, next)
      | none => (.invalid, c)
    else
      match punctuator c.rest with
      | some (text, cs) => (.punct text, c.skip cs)
      | none => (.invalid, c)

/-- Reads the next token after a place. -/
def Cursor.token (c : Cursor) : Token :=
  let trivia := skipTrivia c
  let (kind, next) := if trivia.closed then trivia.next.tokenHere else (.invalid, trivia.next)
  { kind, span := ⟨trivia.next.offset, next.offset⟩, afterNewline := trivia.newline,
    comments := trivia.comments, next }

end ComponentLint.Script
