import ComponentLint.Script.Lexer.Escape
import ComponentLint.Script.Lexer.Trivia
import ComponentLint.Text.Word

/-!
# Names, strings, templates and regular expressions

Each scanner is a step function on one character, folded over the rest of the source, so that it
ends where the step says so and otherwise with the source.
-/

namespace ComponentLint.Script

/-! ## Names -/

/-- Where the scan of a name stands. -/
inductive WordState where
  /-- Between two characters of the name. -/
  | between
  /-- After a backslash. -/
  | backslash
  /-- In an escape. -/
  | escape (state : Escape)
deriving DecidableEq, Repr, Inhabited

/-- Whether a code point may stand in a name, at its beginning if `first`. -/
def codeFitsName (first : Bool) (code : Nat) : Bool :=
  code < 0x110000 && !isHighSurrogate code && !isLowSurrogate code &&
  (if first then Text.isNameStart (Char.ofNat code) else Text.isNamePart (Char.ofNat code))

/-- Reads a name; `done` holds its characters so far, the last one first. -/
def scanWord (state : WordState) (done : List Char) (escaped : Bool) (offset : Nat) :
    List Char → Option (String × Bool × Cursor)
  | [] =>
    match state with
    | .between => some (String.ofList done.reverse, escaped, ⟨[], offset⟩)
    | _ => none
  | c :: rest =>
    match state with
    | .between =>
      if c = '\\' then scanWord .backslash done true (offset + 1) rest
      else if codeFitsName done.isEmpty c.toNat then
        scanWord .between (c :: done) escaped (offset + c.utf8Size) rest
      else if done.isEmpty then none
      else some (String.ofList done.reverse, escaped, ⟨c :: rest, offset⟩)
    | .backslash =>
      if c = 'u' then scanWord (.escape .announced) done escaped (offset + 1) rest else none
    | .escape state =>
      match state.step c with
      | .more state => scanWord (.escape state) done escaped (offset + c.utf8Size) rest
      | .bad => none
      | .done code =>
        if codeFitsName done.isEmpty code then
          scanWord .between (Char.ofNat code :: done) escaped (offset + c.utf8Size) rest
        else none

/-- Reads a name from a place. -/
def Cursor.word (c : Cursor) : Option (String × Bool × Cursor) :=
  scanWord .between [] false c.offset c.rest

/-! ## Strings -/

/-- Where the scan of a string stands. -/
inductive QuoteState where
  /-- Between two characters. -/
  | between
  /-- After a backslash. -/
  | backslash
  /-- After a backslash and a carriage return, with which a line feed belongs together. -/
  | carriage
  /-- In an old octal escape that may take `left` more digits. -/
  | octal (value left : Nat)
  /-- In an escape. -/
  | escape (state : Escape)
deriving DecidableEq, Repr, Inhabited

/-- What the next character makes of a string. -/
inductive QuoteStep where
  /-- It goes on; the codes are added to the value. -/
  | more (state : QuoteState) (codes : List Nat)
  /-- It is closed; the codes are added to the value. -/
  | close (codes : List Nat)
  /-- It is none. -/
  | bad
deriving DecidableEq, Repr, Inhabited

/-- The step between two characters. -/
def quoteBetween (quote c : Char) (codes : List Nat) : QuoteStep :=
  if c = quote then .close codes
  else if c = '\\' then .more .backslash codes
  else if c = '\n' ∨ c = '\r' then .bad
  else .more .between (codes ++ [c.toNat])

/-- The step after a backslash. -/
def quoteBackslash (c : Char) : QuoteStep :=
  match c with
  | 'n' => .more .between [10]
  | 't' => .more .between [9]
  | 'r' => .more .between [13]
  | 'b' => .more .between [8]
  | 'v' => .more .between [11]
  | 'f' => .more .between [12]
  | 'x' => .more (.escape (.fixed 2 0)) []
  | 'u' => .more (.escape .announced) []
  | '\r' => .more .carriage []
  | '\n' => .more .between []
  | '\u2028' => .more .between []
  | '\u2029' => .more .between []
  | _ =>
    if '0' ≤ c ∧ c ≤ '3' then .more (.octal (c.toNat - '0'.toNat) 2) []
    else if '4' ≤ c ∧ c ≤ '7' then .more (.octal (c.toNat - '0'.toNat) 1) []
    else .more .between [c.toNat]

/-- One step of the scan of a string. -/
def quoteStep (quote : Char) : QuoteState → Char → QuoteStep
  | .between, c => quoteBetween quote c []
  | .backslash, c => quoteBackslash c
  | .carriage, c => if c = '\n' then .more .between [] else quoteBetween quote c []
  | .octal value left, c =>
    if left = 0 then quoteBetween quote c [value]
    else if '0' ≤ c ∧ c ≤ '7' then
      .more (.octal (8 * value + (c.toNat - '0'.toNat)) (left - 1)) []
    else quoteBetween quote c [value]
  | .escape state, c =>
    match state.step c with
    | .more state => .more (.escape state) []
    | .done code => .more .between [code]
    | .bad => .bad

/-- Reads a string after its opening quote: its value, whether it is well formed, and where reading
goes on. `done` holds the codes so far, the last one first. -/
def scanString (quote : Char) (state : QuoteState) (done : List Nat) (offset : Nat) :
    List Char → Option (String × Bool × Cursor)
  | [] => none
  | c :: rest =>
    match quoteStep quote state c with
    | .more state codes =>
      scanString quote state (codes.reverse ++ done) (offset + c.utf8Size) rest
    | .close codes =>
      let codes := (codes.reverse ++ done).reverse
      some (cook codes, isWellFormed codes, ⟨rest, offset + c.utf8Size⟩)
    | .bad => none

/-! ## Templates -/

/-- Where the scan of a template stands. -/
inductive TemplateState where
  /-- Between two characters. -/
  | between
  /-- After a dollar sign. -/
  | dollar
  /-- After a backslash. -/
  | backslash
  /-- After a backslash and a zero. -/
  | zero
  /-- In an escape. -/
  | escape (state : Escape)
deriving DecidableEq, Repr, Inhabited

/-- What the next character makes of a template. -/
inductive TemplateStep where
  /-- It goes on; `fits` unless an escape turned out to be malformed. -/
  | more (state : TemplateState) (fits : Bool)
  /-- The piece ends with the template, or with the beginning of a hole. -/
  | stop (closed fits : Bool)
deriving DecidableEq, Repr, Inhabited

/-- The step between two characters. -/
def templateBetween (fits : Bool) (c : Char) : TemplateStep :=
  if c = '\x60' then .stop true fits
  else if c = '$' then .more .dollar fits
  else if c = '\\' then .more .backslash fits
  else .more .between fits

/-- One step of the scan of a template. -/
def templateStep : TemplateState → Char → TemplateStep
  | .between, c => templateBetween true c
  | .dollar, c => if c = '\x7b' then .stop false true else templateBetween true c
  | .backslash, c =>
    if c = 'u' then .more (.escape .announced) true
    else if c = 'x' then .more (.escape (.fixed 2 0)) true
    else if c = '0' then .more .zero true
    else .more .between (!c.isDigit)
  | .zero, c => if c.isDigit then .more .between false else templateBetween true c
  | .escape state, c =>
    match state.step c with
    | .more state => .more (.escape state) true
    | .done _ => .more .between true
    | .bad => templateBetween false c

/-- Reads a piece of a template: whether the template ends with it, whether its escapes are well
formed, and where reading goes on. -/
def scanTemplate (state : TemplateState) (fits : Bool) (offset : Nat) :
    List Char → Option (Bool × Bool × Cursor)
  | [] => none
  | c :: rest =>
    match templateStep state c with
    | .more state ok => scanTemplate state (fits && ok) (offset + c.utf8Size) rest
    | .stop closed ok => some (closed, fits && ok, ⟨rest, offset + c.utf8Size⟩)

/-! ## Regular expressions -/

/-- Where the scan of a regular expression stands. -/
inductive RegexState where
  /-- Between two characters; `inClass` between square brackets, where a slash is ordinary. -/
  | between (inClass : Bool)
  /-- After a backslash. -/
  | backslash (inClass : Bool)
deriving DecidableEq, Repr, Inhabited

/-- Reads a regular expression after its opening slash. -/
def scanRegex (state : RegexState) (offset : Nat) : List Char → Option Cursor
  | [] => none
  | c :: rest =>
    if isLineEnd c then none
    else
      match state with
      | .backslash inClass => scanRegex (.between inClass) (offset + c.utf8Size) rest
      | .between inClass =>
        if c = '\\' then scanRegex (.backslash inClass) (offset + 1) rest
        else if c = '[' then scanRegex (.between true) (offset + 1) rest
        else if c = ']' then scanRegex (.between false) (offset + 1) rest
        else if c = '/' ∧ inClass = false then some ⟨rest, offset + 1⟩
        else scanRegex (.between inClass) (offset + c.utf8Size) rest

/-- The flags that a regular expression may carry. -/
def regexFlags : List Char := ['d', 'g', 'i', 'm', 's', 'u', 'v', 'y']

/-- Whether flags are known and none is repeated. -/
def flagsKnown : List Char → Bool
  | [] => true
  | c :: rest => regexFlags.contains c && !rest.contains c && flagsKnown rest

/-- Whether flags go together: the two that ask for code points exclude each other. -/
def flagsFit (flags : List Char) : Bool :=
  flagsKnown flags && !(flags.contains 'u' && flags.contains 'v')

/-- Reads a regular expression with its flags after the opening slash. -/
def Cursor.regex (c : Cursor) : Option Cursor := do
  let after ← scanRegex (.between false) c.offset c.rest
  let flags := after.rest.takeWhile Text.isNamePart
  if flagsFit flags then some (after.skip flags) else none

end ComponentLint.Script
