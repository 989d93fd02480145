/-!
# Beginnings and ends of texts

Texts are lists of characters here. The functions take off a given beginning or end, and say so
when it is not there.
-/

namespace ComponentLint.Text

/-- What follows `front` in `s`, if `s` begins with it. -/
def dropFront? : List Char → List Char → Option (List Char)
  | s, [] => some s
  | [], _ :: _ => none
  | c :: s, d :: front => if c = d then dropFront? s front else none

/-- Whether `s` begins with `front`. -/
def beginsWith (s front : List Char) : Bool := (dropFront? s front).isSome

/-- What precedes `back` in `s`, if `s` ends with it. -/
def dropBack? (s back : List Char) : Option (List Char) :=
  (dropFront? s.reverse back.reverse).map List.reverse

/-- Whether `s` ends with `back`. -/
def endsWith (s back : List Char) : Bool := (dropBack? s back).isSome

/-- What follows a beginning is what is left of the text without it. -/
theorem dropFront?_eq_some_iff {s front rest : List Char} :
    dropFront? s front = some rest ↔ s = front ++ rest := by
  fun_induction dropFront? s front with
  | case1 s => simp
  | case2 d front => simp
  | case3 c s front ih => simp [ih]
  | case4 c s d front h =>
    simp only [reduceCtorEq, List.cons_append, List.cons.injEq, false_iff]
    exact fun heq => h heq.1

/-- What precedes an end is what is left of the text without it. -/
theorem dropBack?_eq_some_iff {s back rest : List Char} :
    dropBack? s back = some rest ↔ s = rest ++ back := by
  rw [dropBack?, Option.map_eq_some_iff]
  constructor
  · rintro ⟨r, hr, rfl⟩
    rw [← List.reverse_inj, dropFront?_eq_some_iff.mp hr]
    simp
  · rintro rfl
    exact ⟨rest.reverse, dropFront?_eq_some_iff.mpr (by simp), List.reverse_reverse rest⟩

theorem beginsWith_iff {s front : List Char} : beginsWith s front = true ↔ front <+: s := by
  rw [beginsWith, Option.isSome_iff_exists]
  constructor
  · rintro ⟨rest, h⟩
    exact ⟨rest, (dropFront?_eq_some_iff.mp h).symm⟩
  · rintro ⟨rest, h⟩
    exact ⟨rest, dropFront?_eq_some_iff.mpr h.symm⟩

theorem endsWith_iff {s back : List Char} : endsWith s back = true ↔ back <:+ s := by
  rw [endsWith, dropBack?, Option.isSome_map, ← beginsWith, beginsWith_iff, List.reverse_prefix]

theorem dropFront?_eq_none_iff {s front : List Char} :
    dropFront? s front = none ↔ ¬ front <+: s := by
  rw [← beginsWith_iff, beginsWith, Bool.not_eq_true, Option.isSome_eq_false_iff,
    Option.isNone_iff_eq_none]

theorem dropBack?_eq_none_iff {s back : List Char} :
    dropBack? s back = none ↔ ¬ back <:+ s := by
  rw [← endsWith_iff, endsWith, Bool.not_eq_true, Option.isSome_eq_false_iff,
    Option.isNone_iff_eq_none]

/-- Whether `part` occurs somewhere in `s`. -/
def contains : List Char → List Char → Bool
  | [], part => part.isEmpty
  | c :: s, part => beginsWith (c :: s) part || contains s part

/-- The text after the last occurrence of the character `mark`, or all of it if there is none. -/
def afterLast (mark : Char) : List Char → List Char
  | [] => []
  | c :: s => if s.contains mark then afterLast mark s else if c = mark then s else c :: s

end ComponentLint.Text
