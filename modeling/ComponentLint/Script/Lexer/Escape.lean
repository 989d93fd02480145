import ComponentLint.Json.Reader

/-!
# Escapes

An escape by code point is read one character at a time: four hexadecimal digits, two of them, or
any number of them in braces. What it stands for is a code point or half of a surrogate pair; the
halves are joined once the whole literal is known.
-/

namespace ComponentLint.Script

/-- How much of an escape has been read. -/
inductive Escape where
  /-- The letter that announces a code point. -/
  | announced
  /-- A number of digits, `left` of which are still to come. -/
  | fixed (left value : Nat)
  /-- An opening brace and some digits; `any` if there was at least one. -/
  | braced (value : Nat) (any : Bool)
deriving DecidableEq, Repr, Inhabited

/-- What the next character makes of an escape. -/
inductive EscapeStep where
  /-- It goes on. -/
  | more (state : Escape)
  /-- It is complete and stands for a code point. -/
  | done (code : Nat)
  /-- It is none. -/
  | bad
deriving DecidableEq, Repr, Inhabited

/-- Reads on in an escape. -/
def Escape.step : Escape → Char → EscapeStep
  | .announced, c =>
    if c = '\x7b' then .more (.braced 0 false)
    else
      match Json.hexValue? c with
      | some d => .more (.fixed 3 d)
      | none => .bad
  | .fixed left value, c =>
    match Json.hexValue? c with
    | none => .bad
    | some d =>
      if left ≤ 1 then .done (16 * value + d) else .more (.fixed (left - 1) (16 * value + d))
  | .braced value any, c =>
    if c = '\x7d' then if any then .done value else .bad
    else
      match Json.hexValue? c with
      | none => .bad
      | some d =>
        let value := 16 * value + d
        if value < 0x110000 then .more (.braced value true) else .bad

/-- Whether a code is the first half of a surrogate pair. -/
def isHighSurrogate (n : Nat) : Bool := 0xD800 ≤ n && n < 0xDC00

/-- Whether a code is the second half of a surrogate pair. -/
def isLowSurrogate (n : Nat) : Bool := 0xDC00 ≤ n && n < 0xE000

/-- Joins the halves of surrogate pairs that stand side by side. -/
def joinSurrogates : List Nat → List Nat
  | [] => []
  | [n] => [n]
  | high :: low :: rest =>
    if isHighSurrogate high && isLowSurrogate low then
      (0x10000 + (high - 0xD800) * 0x400 + (low - 0xDC00)) :: joinSurrogates rest
    else high :: joinSurrogates (low :: rest)

/-- Four lower-case hexadecimal digits. -/
def hex4 (n : Nat) : List Char :=
  let digits := Nat.toDigits 16 n
  List.replicate (4 - digits.length) '0' ++ digits

/-- The character that stands in for a lone half of a surrogate pair. -/
def replacement : Char := '\uFFFD'

/-- Whether a code is half of a surrogate pair. -/
def isSurrogate (n : Nat) : Bool := isHighSurrogate n || isLowSurrogate n

/-- Whether no half of a surrogate pair stands alone in a list of codes. -/
def isWellFormed (codes : List Nat) : Bool := !(joinSurrogates codes).any isSurrogate

/-- The text of a list of codes. A lone half of a surrogate pair has no character: it is written as
the replacement character and its four digits, and then a replacement character that was meant is
written with its digits too. -/
def cook (codes : List Nat) : String :=
  let joined := joinSurrogates codes
  let marked := joined.any isSurrogate
  String.ofList <| joined.flatMap fun n =>
    if isSurrogate n || (marked && n == replacement.toNat) then replacement :: hex4 n
    else [Char.ofNat n]

end ComponentLint.Script
