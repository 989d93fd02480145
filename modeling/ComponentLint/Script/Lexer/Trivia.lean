import ComponentLint.Script.Token

/-!
# Between two tokens

Blanks, line ends and comments. `skipTrivia` passes over all of them, remembers whether a line ended
and collects the comments.
-/

namespace ComponentLint.Script

/-- The characters that end a line. -/
def isLineEnd (c : Char) : Bool :=
  c == '\n' || c == '\r' || c == '\u2028' || c == '\u2029'

/-- The characters that may stand between tokens without ending a line. -/
def isGap (c : Char) : Bool :=
  let n := c.toNat
  n == 0x20 || n == 0x09 || n == 0x0B || n == 0x0C || n == 0x85 || n == 0xA0 || n == 0xFEFF ||
  n == 0x1680 || (0x2000 ≤ n && n ≤ 0x200B) || n == 0x202F || n == 0x205F || n == 0x3000

/-- Where a scan between tokens stands. -/
inductive TriviaState where
  /-- Outside of comments. -/
  | outside
  /-- In a comment that ends with the line and began at `start`. -/
  | line (start : Nat)
  /-- In a delimited comment that began at `start`; `star` after an asterisk. -/
  | delimited (start : Nat) (star : Bool)
deriving DecidableEq, Repr, Inhabited

/-- What was passed over. -/
structure Trivia where
  /-- Whether a line ended. -/
  newline : Bool
  /-- The comments, the last one first. -/
  comments : List Comment
  /-- Whether every comment has its end. -/
  closed : Bool
  /-- The place after it all. -/
  next : Cursor
deriving Repr, Inhabited

/-- Passes over blanks, line ends and comments. -/
def scanTrivia (state : TriviaState) (newline : Bool) (comments : List Comment) (offset : Nat) :
    List Char → Trivia
  | [] =>
    match state with
    | .outside => ⟨newline, comments, true, ⟨[], offset⟩⟩
    | .line start => ⟨newline, ⟨⟨start, offset⟩⟩ :: comments, true, ⟨[], offset⟩⟩
    | .delimited _ _ => ⟨newline, comments, false, ⟨[], offset⟩⟩
  | c :: rest =>
    match state with
    | .outside =>
      if isGap c then scanTrivia .outside newline comments (offset + c.utf8Size) rest
      else if isLineEnd c then scanTrivia .outside true comments (offset + c.utf8Size) rest
      else if c = '/' then
        match rest with
        | '/' :: more => scanTrivia (.line offset) newline comments (offset + 2) more
        | '*' :: more => scanTrivia (.delimited offset false) newline comments (offset + 2) more
        | _ => ⟨newline, comments, true, ⟨c :: rest, offset⟩⟩
      else ⟨newline, comments, true, ⟨c :: rest, offset⟩⟩
    | .line start =>
      if isLineEnd c then
        scanTrivia .outside true (⟨⟨start, offset⟩⟩ :: comments) (offset + c.utf8Size) rest
      else scanTrivia (.line start) newline comments (offset + c.utf8Size) rest
    | .delimited start star =>
      if star && c == '/' then
        scanTrivia .outside newline (⟨⟨start, offset + 1⟩⟩ :: comments) (offset + 1) rest
      else
        scanTrivia (.delimited start (c == '*')) (newline || isLineEnd c) comments
          (offset + c.utf8Size) rest

/-- What stands between a place and the next token. -/
def skipTrivia (c : Cursor) : Trivia := scanTrivia .outside false [] c.offset c.rest

/-- The place where the tokens of a source begin: after a byte order mark, or after a line that
names the program to run the file with, which has to be the very first thing. -/
def Cursor.ofSource (source : List Char) : Cursor :=
  match source with
  | '\uFEFF' :: rest => ⟨rest, 3⟩
  | '#' :: '!' :: _ => (Cursor.mk source 0).skip (source.takeWhile (!isLineEnd ·))
  | _ => ⟨source, 0⟩

end ComponentLint.Script
