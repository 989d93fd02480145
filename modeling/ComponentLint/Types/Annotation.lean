import ComponentLint.Span
import ComponentLint.Text.Affix
import ComponentLint.Text.Blank

/-!
# Type annotations as text

A type is known by its text: where the annotation of a name ends (`cutAtInitializer`,
`annotationAfter?`), which members its union has (`unionMembers`), and what kind of type it names
(`classify`). Only the outermost form of a type is looked at.
-/

namespace ComponentLint.Types

/-- The coarse kinds of types. -/
inductive Kind where
  | array
  | readonlyArray
  | tuple
  | primitive
  | object
deriving DecidableEq, Repr, Inhabited

/-- A type: its kind and the text that shows it. -/
structure TypeInfo where
  /-- The coarse kind of the type. -/
  kind : Kind
  /-- The text of the type. -/
  display : List Char
deriving DecidableEq, Repr, Inhabited

/-- The words in a type's text that tell of a collection. -/
def collectionWords : List String := ["Array", "List", "Collection"]

/-- Whether values of a type can be used like arrays: it is an array or a tuple, or its text speaks
of a collection. -/
def TypeInfo.isArrayLike (t : TypeInfo) : Bool :=
  t.kind == .array || t.kind == .readonlyArray || t.kind == .tuple ||
    collectionWords.any fun word => Text.contains t.display word.toList

/-! ## Brackets -/

/-- Brackets that open a nested part of a type. -/
def opens (c : Char) : Bool := c == '<' || c == '(' || c == '[' || c == '\x7b'

/-- Brackets that close a nested part of a type. -/
def closes (c : Char) : Bool := c == '>' || c == ')' || c == ']' || c == '\x7d'

/-- The depth of nesting after a character; a closing bracket without its partner changes
nothing. -/
def depthAfter (depth : Nat) (c : Char) : Nat :=
  if opens c then depth + 1 else if closes c then depth - 1 else depth

/-! ## Where an annotation ends -/

/-- The text up to the equals sign that begins an initial value: the first one outside of brackets
that is not part of an arrow. `afterEquals` tells whether an equals sign stands just before, which
makes a `>` the end of an arrow and no bracket. -/
def cutFrom (depth : Nat) (afterEquals : Bool) : List Char → List Char
  | [] => []
  | c :: rest =>
    if c == '>' && afterEquals then c :: cutFrom depth false rest
    else if c == '=' && depth == 0 && rest.head? != some '>' then []
    else c :: cutFrom (depthAfter depth c) (c == '=') rest

/-- A text up to the equals sign that begins an initial value. -/
def cutAtInitializer (text : List Char) : List Char := cutFrom 0 false text

/-- A text without a question mark at its beginning. -/
def dropQuestion : List Char → List Char
  | '?' :: rest => rest
  | text => text

/-- The annotation that a text begins with: an optional question mark, a colon and a type. -/
def annotationAfter? (text : List Char) : Option (List Char) :=
  match Text.trimStart (dropQuestion (Text.trimStart text)) with
  | ':' :: rest =>
    let annotation := Text.trim (cutAtInitializer rest)
    if annotation.isEmpty then none else some annotation
  | _ => none

/-- The annotation of the name at `binder` in the source before the offset `stop`. -/
def annotationBetween? (source : List Char) (binder : Span) (stop : Nat) : Option (List Char) :=
  if stop ≤ binder.stop then none
  else annotationAfter? (Span.text source ⟨binder.stop, stop⟩)

/-! ## Unions -/

/-- Puts a character in front of the first piece. -/
def pushFront (c : Char) : List (List Char) → List (List Char)
  | [] => [[c]]
  | piece :: rest => (c :: piece) :: rest

/-- The pieces of a text between the bars outside of brackets. -/
def barPieces (depth : Nat) : List Char → List (List Char)
  | [] => [[]]
  | c :: rest =>
    if c == '|' && depth == 0 then [] :: barPieces 0 rest
    else pushFront c (barPieces (depthAfter depth c) rest)

/-- The members of a union, without blanks around them; empty ones do not count. -/
def unionMembers (text : List Char) : List (List Char) :=
  ((barPieces 0 text).map Text.trim).filter (!·.isEmpty)

/-! ## Classification -/

/-- The types of missing values. -/
def isMissing (member : List Char) : Bool :=
  member == "undefined".toList || member == "null".toList

/-- The names of primitive types. -/
def primitiveNames : List String :=
  ["string", "number", "boolean", "bigint", "symbol", "undefined", "null"]

/-- The kind of a type that is no union, by the beginning and the end of its text. -/
def kindOf (text : List Char) : Kind :=
  if (Text.beginsWith text "readonly ".toList && Text.endsWith text "[]".toList) ||
      Text.beginsWith text "ReadonlyArray<".toList then .readonlyArray
  else if Text.endsWith text "[]".toList || Text.beginsWith text "Array<".toList ||
      text == "Array".toList then .array
  else if Text.beginsWith text ['['] && Text.endsWith text [']'] then .tuple
  else if primitiveNames.any (fun name => name.toList == text) then .primitive
  else .object

/-- The part of a type that decides: the one member of its union that is not missing, or all of it
if there is not exactly one. -/
def decisive (text : List Char) : List Char :=
  match (unionMembers text).filter (!isMissing ·) with
  | [only] => only
  | _ => text

/-- The type with the given text. -/
def classify (text : List Char) : TypeInfo :=
  let single := decisive (Text.trim text)
  ⟨kindOf single, single⟩

end ComponentLint.Types
