import ComponentLint.Script.Tree

/-!
# Tokens

A token carries its span, whether a line ends before it, the comments that were passed over on the
way to it, and the place where reading goes on. Reading is done on demand, so that the grammar can
read on from the same place in another way: as a regular expression, as the rest of a template or as
markup.
-/

namespace ComponentLint.Script

open Number (Double)

/-- A place in a source: what is left of it, and the offset where that begins. -/
structure Cursor where
  /-- The characters from here on. -/
  rest : List Char
  /-- The number of bytes before. -/
  offset : Nat
deriving Repr, Inhabited

/-- The place after the given characters, which stand at the front. -/
def Cursor.skip (c : Cursor) (front : List Char) : Cursor :=
  ⟨c.rest.drop front.length, c.offset + byteLength front⟩

/-- The kinds of tokens. -/
inductive TokenKind where
  /-- The end of the source. -/
  | eof
  /-- A name or keyword; `escaped` if it is written with an escape, which keywords may not be. -/
  | word (text : String) (escaped : Bool)
  /-- A name after a number sign. -/
  | privateName (text : String)
  /-- A numeric literal. -/
  | number (value : Double)
  /-- An integer literal of unlimited size. -/
  | bigint
  /-- A string literal with its value; `wellFormed` unless half of a surrogate pair stands alone in
  it. -/
  | string (value : String) (wellFormed : Bool)
  /-- A piece of a template up to the closing backtick or the next hole; `wellFormed` if all its
  escapes are. -/
  | template (closed wellFormed : Bool)
  /-- Punctuation. -/
  | punct (text : String)
  /-- Something that is no token. -/
  | invalid
deriving DecidableEq, Repr, Inhabited

/-- The text of a name or keyword, however it is written. -/
def TokenKind.word? : TokenKind → Option String
  | .word text _ => some text
  | _ => none

/-- A token. -/
structure Token where
  /-- What it is. -/
  kind : TokenKind
  /-- Where it stands. -/
  span : Span
  /-- Whether a line ends between the previous token and this one. -/
  afterNewline : Bool
  /-- The comments between the previous token and this one. -/
  comments : List Comment
  /-- Where reading goes on. -/
  next : Cursor
deriving Repr, Inhabited

end ComponentLint.Script
