/-!
# Spans of a source text

Every offset in this library counts the bytes of the UTF-8 encoding of the source. A span is a
half-open range of such offsets; cutting it out of the text succeeds exactly when its ends are in
order, in range and on character boundaries (`Span.text`).
-/

namespace ComponentLint

/-- A half-open range of byte offsets. -/
structure Span where
  /-- The offset of the first byte. -/
  start : Nat
  /-- The offset just after the last byte. -/
  stop : Nat
deriving DecidableEq, Repr, Inhabited

/-- The number of bytes that a text takes in UTF-8. -/
def byteLength : List Char → Nat
  | [] => 0
  | c :: cs => c.utf8Size + byteLength cs

/-- What remains of a text after its first `n` bytes, if they end at a character boundary. -/
def dropBytes : List Char → Nat → Option (List Char)
  | cs, 0 => some cs
  | [], _ + 1 => none
  | c :: cs, n + 1 => if c.utf8Size ≤ n + 1 then dropBytes cs (n + 1 - c.utf8Size) else none

/-- The first `n` bytes of a text, if they end at a character boundary. -/
def takeBytes : List Char → Nat → Option (List Char)
  | _, 0 => some []
  | [], _ + 1 => none
  | c :: cs, n + 1 =>
    if c.utf8Size ≤ n + 1 then (takeBytes cs (n + 1 - c.utf8Size)).map (c :: ·) else none

namespace Span

/-- The span at the very beginning of a file, where a complaint about the whole file is placed. -/
def fileStart : Span := ⟨0, 0⟩

/-- Whether `inner` lies wholly inside `outer`. -/
def encloses (outer inner : Span) : Bool :=
  outer.start ≤ inner.start && inner.stop ≤ outer.stop

/-- Whether an offset lies inside a span. -/
def covers (s : Span) (offset : Nat) : Bool :=
  s.start ≤ offset && offset < s.stop

/-- The characters of a span, if its ends are ordered, in range and on character boundaries. -/
def cut? (source : List Char) (s : Span) : Option (List Char) :=
  if s.start ≤ s.stop then
    (dropBytes source s.start).bind fun rest => takeBytes rest (s.stop - s.start)
  else
    none

/-- The characters of a span; a span that cannot be cut out has none. -/
def text (source : List Char) (s : Span) : List Char :=
  (s.cut? source).getD []

end Span

end ComponentLint
