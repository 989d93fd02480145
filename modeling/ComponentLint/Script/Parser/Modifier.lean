import ComponentLint.Script.Parser.Basic

/-!
# Modifiers

Words that stand before a class member, a parameter, a type parameter or a declaration and modify
it. Each of them is also a name: it modifies only if something to modify follows. Reading takes
every modifier; which of them are allowed is asked afterwards.
-/

namespace ComponentLint.Script

/-- The modifiers of one thing, in source order. -/
structure Modifiers where
  /-- The words. -/
  words : List String := []
deriving DecidableEq, Repr, Inhabited

namespace Modifiers

/-- The words that modify something. -/
def all : List String :=
  ["abstract", "accessor", "async", "const", "declare", "export", "in", "out", "override",
    "private", "protected", "public", "readonly", "static"]

/-- The modifiers that belong to the language without types. -/
def untyped : List String := ["accessor", "async", "static"]

/-- The modifiers that say who may use a member. -/
def accessibility : List String := ["private", "protected", "public"]

/-- The modifiers of a method. -/
def ofMethod : List String := accessibility ++ ["abstract", "async", "override", "static"]

/-- The modifiers of a method that reads or writes a property. -/
def ofAccessor : List String := accessibility ++ ["abstract", "override", "static"]

/-- The modifiers of a field. -/
def ofField : List String :=
  accessibility ++ ["abstract", "declare", "override", "readonly", "static"]

/-- The modifiers of a field that is read and written through methods. -/
def ofAccessorField : List String :=
  accessibility ++ ["abstract", "accessor", "override", "static"]

/-- The modifiers of an index signature in a class. -/
def ofIndexSignature : List String := ["readonly", "static"]

/-- The modifiers that make a parameter of a constructor a field. -/
def ofParameterField : List String := accessibility ++ ["override", "readonly"]

/-- The modifiers of a type parameter. -/
def ofTypeParameter : List String := ["const", "in", "out"]

/-- Whether a word is among the modifiers. -/
def has (m : Modifiers) (word : String) : Bool := m.words.contains word

/-- Whether a word says who may use a member. -/
def hasAccessibility (m : Modifiers) : Bool := accessibility.any m.has

/-- The modifiers that may not stand before the given one. -/
def later (word : String) : List String :=
  if accessibility.contains word then
    accessibility ++ ["accessor", "async", "override", "readonly", "static"]
  else
    match word with
    | "static" => ["accessor", "async", "override", "readonly"]
    | "override" => ["accessor", "async", "readonly"]
    | "abstract" => ["override"]
    | _ => []

/-- Whether a word may follow the modifiers so far. -/
def mayAdd (m : Modifiers) (word : String) : Bool :=
  !m.has word && !(later word).any m.has

end Modifiers

namespace Parser

/-- Whether the next token can begin a key. -/
def atKey : Parser Bool := do
  match ← kind with
  | .word _ _ | .string _ _ | .number _ | .bigint | .privateName _ => return true
  | .punct p => return p == "["
  | _ => return false

/-- Whether the next token can follow a modifier. -/
def canFollowModifier : Parser Bool := do
  return (← atKey) || (← atPunct "*") || (← atPunct "\x7b") || (← atPunct "...")

/-- The words that modify also what follows on another line. -/
def lineCrossing : List String := ["export", "get", "set", "static"]

/-- Whether something to modify follows the word at the next token, on the same line for most
words. -/
def modifies (text : String) : Parser Bool := followedBy do
  advance
  if (← afterNewline) && !lineCrossing.contains text then return false
  if text == "export" && ((← atPunct "*") || (← atPunct "\x7b") || (← atWord "as")) then
    return false
  canFollowModifier

/-- Takes the given word if it is next and modifies what follows. -/
def takeModifier (text : String) : Parser Bool := do
  if (← atWord text) && (← modifies text) then
    advance
    return true
  return false

/-- Whether a block that runs when the class is made begins at the next token. -/
def atStaticBlock : Parser Bool := do
  unless ← atWord "static" do return false
  followedBy do
    advance
    atPunct "\x7b"

/-- Takes modifiers. The word `const` is one only if `takesConst`, and with `inClass` the word
`static` is none before a block. -/
def modifiers (takesConst inClass : Bool) : Parser Modifiers :=
  loop ({} : Modifiers) fun found => do
    match (← kind).word? with
    | none => return .done found
    | some text =>
      if !Modifiers.all.contains text || (text == "const" && !takesConst) then return .done found
      if text == "static" && (found.has "static" || (inClass && (← atStaticBlock))) then
        return .done found
      unless ← modifies text do return .done found
      expectThat (found.mayAdd text)
      advance
      return .again ⟨found.words ++ [text]⟩

/-- Asks that only the given modifiers were taken. Most of them need types. -/
def allowOnly (allowed : List String) (found : Modifiers) : Parser Unit := do
  let typed := (← dialect).typed
  expectThat <| found.words.all fun w =>
    allowed.contains w && (typed || Modifiers.untyped.contains w)

end Parser

end ComponentLint.Script
