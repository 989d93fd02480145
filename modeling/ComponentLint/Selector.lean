import ComponentLint.Text.Affix
import ComponentLint.Text.Blank
import ComponentLint.Text.Word

/-!
# Selectors

A selector in a style definition begins with `&`, the styled element. It may refine that element by
pseudo-classes, pseudo-elements and attributes; what reaches other elements is a combinator, or a
class, an identifier or an element name at its beginning.

Whether a selector only refines is decided by deletion: pseudo-elements go first, then calls of
pseudo-classes from the inside out, then plain pseudo-classes, attributes and separators. If nothing
remains, the selector stays with its own element. Each deletion is given by the length of the piece
that begins at a place.
-/

namespace ComponentLint.Selector

/-- The characters of names in selectors. -/
def isNameChar (c : Char) : Bool := Text.isWord c || c == '-'

/-- The length of the name at the beginning of a text. -/
def nameLength (s : List Char) : Nat := (s.takeWhile isNameChar).length

/-- The length of the pseudo-element `::name` at the beginning of a text, or zero. -/
def pseudoElement : List Char → Nat
  | ':' :: ':' :: rest => if nameLength rest = 0 then 0 else nameLength rest + 2
  | _ => 0

/-- The length of the pseudo-class `:name` at the beginning of a text, or zero. -/
def pseudoClass : List Char → Nat
  | ':' :: rest => if nameLength rest = 0 then 0 else nameLength rest + 1
  | _ => 0

/-- The characters between the parentheses of an innermost call. -/
def isArgumentChar (c : Char) : Bool := c != '(' && c != ')'

/-- The length of the arguments `(…)` without parentheses in them at the beginning of a text, or
zero. -/
def arguments : List Char → Nat
  | '(' :: rest =>
    match rest.dropWhile isArgumentChar with
    | ')' :: _ => (rest.takeWhile isArgumentChar).length + 2
    | _ => 0
  | _ => 0

/-- The length of the call `:name(…)` at the beginning of a text, or zero. -/
def pseudoCall (s : List Char) : Nat :=
  let name := pseudoClass s
  if name = 0 then 0
  else
    let rest := arguments (s.drop name)
    if rest = 0 then 0 else name + rest

/-- The length of the attribute `[name…]` at the beginning of a text, or zero. -/
def attributeTest : List Char → Nat
  | '[' :: rest =>
    if nameLength rest = 0 then 0
    else
      match rest.dropWhile (· != ']') with
      | [] => 0
      | _ :: _ => (rest.takeWhile (· != ']')).length + 2
  | _ => 0

/-- Deletes from left to right every piece that `piece` finds, after passing over the first `skip`
characters as the rest of such a piece. -/
def deleteFrom (piece : List Char → Nat) : Nat → List Char → List Char
  | _, [] => []
  | skip + 1, _ :: rest => deleteFrom piece skip rest
  | 0, c :: rest =>
    match piece (c :: rest) with
    | 0 => c :: deleteFrom piece 0 rest
    | n + 1 => deleteFrom piece n rest

/-- Deletes from left to right every piece that `piece` finds. -/
def deleteAll (piece : List Char → Nat) (s : List Char) : List Char := deleteFrom piece 0 s

/-- Deletes calls of pseudo-classes until none is left; the calls in the arguments of another go
before it. -/
def deleteCalls (s : List Char) : List Char :=
  if (deleteAll pseudoCall s).length < s.length then deleteCalls (deleteAll pseudoCall s) else s
termination_by s.length

/-- Characters that separate the parts of a selector without reaching another element. -/
def isSeparator (c : Char) : Bool := Text.isBlank c || c == '&' || c == ','

/-- What remains of a selector when everything that refines its own element is deleted. -/
def residue (s : List Char) : List Char :=
  (deleteAll attributeTest
    (deleteAll pseudoClass (deleteCalls (deleteAll pseudoElement s)))).filter (!isSeparator ·)

/-- Characters that lead to another element. -/
def isCombinator (c : Char) : Bool := Text.isBlank c || c == '+' || c == '>' || c == '~'

/-- Whether a character can begin an element name, an identifier or a class. -/
def beginsElement (c : Char) : Bool := c.isAlpha || c == '#' || c == '.'

/-- A selector without the styled element at its beginning and without blanks around it. -/
def body (s : List Char) : List Char :=
  Text.trim ((Text.dropFront? s ['&']).getD s)

/-- Whether a selector reaches into other elements. -/
def reachesOthers (s : List Char) : Bool :=
  let rest := body s
  !(residue rest).isEmpty && (rest.any isCombinator || (rest.head?.any beginsElement))

end ComponentLint.Selector
