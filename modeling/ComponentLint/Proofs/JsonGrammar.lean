import ComponentLint.Json.Reader

/-!
# Written JSON

Which texts a JSON value may be written as, said by relations on texts and not by a reader: strings
with any mix of plain characters and escapes, numbers in any notation, blanks wherever they mean
nothing, and objects with repeated keys. Arrays and objects are nested at most as deep as the first
argument of `Written` allows; a number that is too large for a double has no value and is left out.
-/

namespace ComponentLint.Json

open Number (Double)

/-- Blanks and nothing else. -/
def Blanks (s : List Char) : Prop := ∀ c ∈ s, isBlank c = true

/-! ## Strings -/

/-- The ways to write a character in a string. -/
inductive WrittenChar : Char → List Char → Prop
  /-- A character that needs no escape, as itself. -/
  | plain {c : Char} (hcontrol : 0x20 ≤ c.toNat) (hquote : c ≠ '"') (hslash : c ≠ '\\') :
      WrittenChar c [c]
  /-- By the letter that stands for it. -/
  | letter {c mark : Char} (h : simpleEscape? mark = some c) : WrittenChar c ['\\', mark]
  /-- By its number. -/
  | number {c w x y z : Char} (h : hex4? w x y z = some c.toNat) :
      WrittenChar c ['\\', 'u', w, x, y, z]
  /-- By the two halves of a number that is too large for four digits. -/
  | halves {c w x y z w' x' y' z' : Char} {high low : Nat}
      (hhigh : hex4? w x y z = some (0xD800 + high)) (hhigh' : high < 0x400)
      (hlow : hex4? w' x' y' z' = some (0xDC00 + low)) (hlow' : low < 0x400)
      (h : c.toNat = 0x10000 + high * 0x400 + low) :
      WrittenChar c ['\\', 'u', w, x, y, z, '\\', 'u', w', x', y', z']

/-- The ways to write what stands between the quotes of a string. -/
inductive WrittenChars : List Char → List Char → Prop
  | nil : WrittenChars [] []
  | cons {c : Char} {t : List Char} {cs ts : List Char} (h : WrittenChar c t)
      (hrest : WrittenChars cs ts) : WrittenChars (c :: cs) (t ++ ts)

/-- The ways to write a string. -/
inductive WrittenString : String → List Char → Prop
  | quoted {s : String} {inner : List Char} (h : WrittenChars s.toList inner) :
      WrittenString s ('"' :: (inner ++ ['"']))

/-! ## Numbers -/

/-- At least one decimal digit, and nothing else. -/
structure Digits (s : List Char) : Prop where
  /-- There is a digit. -/
  nonempty : s ≠ []
  /-- There is nothing else. -/
  all : ∀ c ∈ s, c.isDigit = true

/-- A written exponent. -/
structure Exponent where
  /-- The letter in front of it. -/
  mark : Char
  /-- Whether its sign is a minus, if a sign is written. -/
  sign : Option Bool
  /-- Its digits. -/
  digits : List Char
  isMark : mark = 'e' ∨ mark = 'E'
  isDigits : Digits digits

namespace Exponent

/-- The sign as it is written. -/
def signText (e : Exponent) : List Char :=
  e.sign.elim [] fun isNegative => [if isNegative then '-' else '+']

/-- An exponent as it is written. -/
def text (e : Exponent) : List Char := e.mark :: (e.signText ++ e.digits)

/-- The value of an exponent. -/
def value (e : Exponent) : Int :=
  if e.sign = some true then -(Double.digitsValue e.digits : Int) else Double.digitsValue e.digits

end Exponent

/-- A written number: no zeros lead its units, and what follows the point has digits. -/
structure Numeral where
  /-- Whether there is a minus sign. -/
  isNegative : Bool
  /-- The digits before the point. -/
  units : List Char
  /-- The digits after the point, if there is one. -/
  places : Option (List Char)
  /-- The exponent, if there is one. -/
  exponent : Option Exponent
  units_digits : Digits units
  units_zero : units.head? = some '0' → units.length = 1
  places_digits : ∀ digits ∈ places, Digits digits

namespace Numeral

/-- A number as it is written, without its sign. -/
def body (n : Numeral) : List Char :=
  n.units ++ (n.places.elim [] ('.' :: ·) ++ n.exponent.elim [] Exponent.text)

/-- A number as it is written. -/
def text (n : Numeral) : List Char := if n.isNegative then '-' :: n.body else n.body

/-- A number is whole if it is written without point and exponent and fits 64 bits. -/
def IsWhole (n : Numeral) : Prop :=
  n.places = none ∧ n.exponent = none ∧ Double.digitsValue n.units < significandBound

instance (n : Numeral) : Decidable n.IsWhole := inferInstanceAs (Decidable (_ ∧ _ ∧ _))

/-- The leading units that count, and those that do not. -/
def keptUnits (n : Numeral) : Nat × List Char := takeDigits 0 n.units

/-- The significand, and the places that do not count. -/
def kept (n : Numeral) : Nat × List Char := takeDigits n.keptUnits.1 (n.places.getD [])

/-- The power of ten that the significand is scaled with. -/
def power (n : Numeral) : Int :=
  (n.exponent.map Exponent.value).getD 0 +
    ((n.keptUnits.2.length : Int) - ((n.places.getD []).length - n.kept.2.length : Nat))

/-- The value of a number; none if it is too large. -/
def value? (n : Numeral) : Option JsonNumber :=
  if n.IsWhole then some (.ofNat n.isNegative (Double.digitsValue n.units))
  else (float n.isNegative n.kept.1 n.power).toOption

end Numeral

/-! ## Values -/

/-- The ways to write a value that is no array and no object. -/
inductive WrittenScalar : Json → List Char → Prop
  | null : WrittenScalar .null "null".toList
  | bool (b : Bool) : WrittenScalar (.bool b) (if b then "true" else "false").toList
  | number {n : Numeral} {v : JsonNumber} (h : n.value? = some v) : WrittenScalar (.number v) n.text
  | string {s : String} {t : List Char} (h : WrittenString s t) : WrittenScalar (.string s) t

section Members

variable {α : Type}

/-- The ways to write something with blanks around it. -/
inductive Padded (P : α → List Char → Prop) : α → List Char → Prop
  | intro {a : α} {before t after : List Char} (hbefore : Blanks before) (h : P a t)
      (hafter : Blanks after) : Padded P a (before ++ (t ++ after))

/-- The ways to write members one after the other, with commas between them. -/
inductive Separated (P : α → List Char → Prop) : List α → List Char → Prop
  | last {a : α} {t : List Char} (h : Padded P a t) : Separated P [a] t
  | more {a : α} {t : List Char} {as : List α} {ts : List Char} (h : Padded P a t)
      (hrest : Separated P as ts) : Separated P (a :: as) (t ++ ',' :: ts)

/-- The ways to write members between brackets. -/
inductive Bracketed (opening closing : Char) (P : α → List Char → Prop) :
    List α → List Char → Prop
  | empty {blanks : List Char} (h : Blanks blanks) :
      Bracketed opening closing P [] (opening :: (blanks ++ [closing]))
  | members {as : List α} {t : List Char} (h : Separated P as t) :
      Bracketed opening closing P as (opening :: (t ++ [closing]))

/-- The ways to write a key with its value. -/
inductive WrittenEntry (P : α → List Char → Prop) : String × α → List Char → Prop
  | intro {key : String} {value : α} {k t before after : List Char} (hkey : WrittenString key k)
      (hbefore : Blanks before) (hafter : Blanks after) (hvalue : P value t) :
      WrittenEntry P (key, value) (k ++ (before ++ ':' :: (after ++ t)))

end Members

/-- The ways to write a value whose arrays and objects are nested at most so deep. -/
def Written : Nat → Json → List Char → Prop
  | 0, v, t => WrittenScalar v t
  | depth + 1, v, t =>
    WrittenScalar v t ∨
    (∃ elements, v = .array elements ∧ Bracketed '[' ']' (Written depth) elements t) ∨
    ∃ entries, v = ofEntries entries ∧
      Bracketed '\x7b' '\x7d' (WrittenEntry (Written depth)) entries t

/-! ## Plain texts -/

theorem WrittenChars.refl {s : List Char}
    (h : ∀ c ∈ s, 0x20 ≤ c.toNat ∧ c ≠ '"' ∧ c ≠ '\\') : WrittenChars s s := by
  induction s with
  | nil => exact .nil
  | cons c s ih =>
    obtain ⟨hcontrol, hquote, hslash⟩ := h c List.mem_cons_self
    exact .cons (.plain hcontrol hquote hslash) (ih fun d hd => h d (List.mem_cons_of_mem c hd))

/-- A string that needs no escapes, in quotes. -/
theorem WrittenString.plain (s : String)
    (h : ∀ c ∈ s.toList, 0x20 ≤ c.toNat ∧ c ≠ '"' ∧ c ≠ '\\') :
    WrittenString s ('"' :: (s.toList ++ ['"'])) := .quoted (.refl h)

theorem Blanks.nil : Blanks [] := fun _ h => absurd h List.not_mem_nil

/-- Blanks around a member may be missing. -/
theorem Padded.bare {α : Type} {P : α → List Char → Prop} {a : α} {t : List Char} (h : P a t) :
    Padded P a t := by
  have hpadded := Padded.intro Blanks.nil h Blanks.nil
  rwa [List.nil_append, List.append_nil] at hpadded

/-- A space may precede a member. -/
theorem Padded.spaced {α : Type} {P : α → List Char → Prop} {a : α} {t : List Char} (h : P a t) :
    Padded P a (' ' :: t) := by
  have hspace : Blanks [' '] := fun c hc => by rw [List.mem_singleton.mp hc]; rfl
  have hpadded := Padded.intro hspace h Blanks.nil
  rwa [List.append_nil, List.singleton_append] at hpadded

theorem WrittenScalar.written {v : Json} {t : List Char} (h : WrittenScalar v t) (depth : Nat) :
    Written depth v t := by
  cases depth with
  | zero => exact h
  | succ depth => exact Or.inl h

end ComponentLint.Json
