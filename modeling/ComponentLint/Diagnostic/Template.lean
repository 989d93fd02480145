import ComponentLint.Text.Blank

/-!
# Message templates

A template is a text with holes. In its written form a hole is a key between two braces on either
side; blanks around the key do not count. Filling a template puts the value of each key in the place
of its hole and never looks at a value again; a hole whose key has no value stays as it is written.
-/

namespace ComponentLint

/-- A piece of a template. -/
inductive TemplatePiece where
  /-- Text that stands for itself. -/
  | text (content : List Char)
  /-- A hole, with what is written between its braces. -/
  | hole (inside : List Char)
deriving DecidableEq, Repr, Inhabited

/-- A message with holes. -/
abbrev Template := List TemplatePiece

/-- The values of a message, in the order in which their keys were first given. -/
abbrev TemplateData := List (String × String)

namespace TemplateData

/-- Gives a key a value; a key that is there already keeps its place. -/
def put (key value : String) : TemplateData → TemplateData
  | [] => [(key, value)]
  | (k, v) :: rest => if k = key then (k, value) :: rest else (k, v) :: put key value rest

/-- The data of a list of pairs: every key stands where it came first, with its last value. -/
def ofPairs (pairs : List (String × String)) : TemplateData :=
  pairs.foldl (fun data (key, value) => put key value data) []

/-- The value of a key. -/
def value? (data : TemplateData) (key : List Char) : Option (List Char) :=
  (data.find? fun entry => entry.1.toList == key).map (·.2.toList)

@[simp] theorem value?_cons (k v : String) (data : TemplateData) (key : List Char) :
    value? ((k, v) :: data) key = if k.toList = key then some v.toList else value? data key := by
  unfold value?
  by_cases h : k.toList = key
  · simp [h]
  · simp [h]

end TemplateData

namespace Template

/-- Splits a text around the first place where `mark` stands twice in a row. -/
def breakAt? (mark : Char) : List Char → Option (List Char × List Char)
  | [] => none
  | [_] => none
  | c :: d :: rest =>
    if c == mark && d == mark then some ([], rest)
    else (breakAt? mark (d :: rest)).map fun (before, after) => (c :: before, after)

/-- What follows the mark is shorter than the text. -/
theorem length_of_breakAt? {mark : Char} {s before after : List Char}
    (h : breakAt? mark s = some (before, after)) : after.length < s.length := by
  fun_induction breakAt? mark s generalizing before with
  | case1 => simp at h
  | case2 => simp at h
  | case3 c d rest _ =>
    simp only [Option.some.injEq, Prod.mk.injEq] at h
    obtain ⟨-, rfl⟩ := h
    simp only [List.length_cons]
    omega
  | case4 c d rest _ ih =>
    simp only [Option.map_eq_some_iff] at h
    obtain ⟨⟨b, a⟩, hb, heq⟩ := h
    simp only [Prod.mk.injEq] at heq
    have := ih (heq.2 ▸ hb)
    simp only [List.length_cons] at this ⊢
    omega

/-- Splits a text around its first hole: what stands before it, inside it and after it. Two opening
braces without two closing ones after them begin no hole. -/
def firstHole? (s : List Char) :
    Option { split : List Char × List Char × List Char // split.2.2.length < s.length } :=
  match hopen : breakAt? '\x7b' s with
  | none => none
  | some (before, after) =>
    match hclose : breakAt? '\x7d' after with
    | none => none
    | some (inside, rest) =>
      some ⟨(before, inside, rest),
        Nat.lt_trans (length_of_breakAt? hclose) (length_of_breakAt? hopen)⟩

/-- Reads the written form of a template. -/
def read (s : List Char) : Template :=
  match firstHole? s with
  | none => [.text s]
  | some ⟨(before, inside, rest), _⟩ => .text before :: .hole inside :: read rest
termination_by s.length

/-- The written form of a hole. -/
def writtenHole (inside : List Char) : List Char := ['\x7b', '\x7b'] ++ inside ++ ['\x7d', '\x7d']

/-- A piece with its hole filled. -/
def fillPiece (data : TemplateData) : TemplatePiece → List Char
  | .text content => content
  | .hole inside => (data.value? (Text.trim inside)).getD (writtenHole inside)

/-- The message of a template with the given values. -/
def fill (template : Template) (data : TemplateData) : List Char :=
  template.flatMap (fillPiece data)

/-- A template given by its texts and, between them, the keys of its holes. -/
def ofParts : List String → Template
  | [] => []
  | [last] => [.text last.toList]
  | text :: key :: rest => .text text.toList :: .hole key.toList :: ofParts rest

end Template

end ComponentLint
