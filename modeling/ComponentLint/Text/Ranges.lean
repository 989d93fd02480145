/-!
# Tables of code points

A Unicode property is kept as a table of ranges: pairs of first and last code point in rising order.
The tables hold only code points from U+0080 on; ASCII is decided without a table.
-/

namespace ComponentLint.Text

/-- Whether a code point lies in one of the ranges between positions `low` and `high` of a table. -/
def searchRanges (table : Array (Nat × Nat)) (n : Nat) : Nat → Nat → Nat → Bool
  | 0, _, _ => false
  | fuel + 1, low, high =>
    if high ≤ low then false
    else
      let middle := (low + high) / 2
      match table[middle]? with
      | none => false
      | some (first, last) =>
        if n < first then searchRanges table n fuel low middle
        else if last < n then searchRanges table n fuel (middle + 1) high
        else true

/-- Whether a code point lies in one of the ranges of a table. Every step of the search halves the
part of the table that is left, so its size is more than enough fuel. -/
def inRanges (table : Array (Nat × Nat)) (n : Nat) : Bool :=
  searchRanges table n (table.size + 1) 0 table.size

end ComponentLint.Text
