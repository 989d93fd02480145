import ComponentLint.Script.Tree

/-!
# Assignment targets

What stands before an assignment sign has been read as an expression; `Expr.target?` tells whether
it can be written to and, if so, which target it is. A name, a member and an access are the targets
of the same form, and parentheses around them are dropped. An array or object literal stands for a
pattern, unless it is in parentheses. Under a type assertion the operand stays an expression.

Two facts about a literal matter only for targets and are no part of the tree: a spread after which
a comma stands cannot take the rest, and a shorthand property may have a default value only as a
part of a target. The first is an argument here, by the offsets where the operands of such spreads
begin; of the second the reading tells where such properties begin.
-/

namespace ComponentLint.Script

/-- An expression read as a target. -/
structure TargetReading where
  /-- What is written to. -/
  target : Target
  /-- Where the shorthand properties with a default value in it begin. -/
  defaults : List Nat
deriving Inhabited

/-- Expressions or properties read as parts of a pattern. -/
structure PatternReading where
  /-- The parts, in source order. -/
  parts : List PatternPart
  /-- Where the shorthand properties with a default value in them begin. -/
  defaults : List Nat

/-- A reading as the only part of a pattern. -/
def TargetReading.part (r : TargetReading) : PatternReading := ⟨[.target r.target], r.defaults⟩

/-- The pattern with the parts that have been read. -/
def PatternReading.pattern (r : PatternReading) (span : Span) : TargetReading :=
  ⟨.pattern span r.parts, r.defaults⟩

/-- Parts of a pattern and the parts after them. -/
def PatternReading.append (a b : PatternReading) : PatternReading :=
  ⟨a.parts ++ b.parts, a.defaults ++ b.defaults⟩

/-- Whether an expression without parentheses and type assertions is a name or a member. -/
def Expr.isPlace : Expr → Bool
  | .name _ _ => true
  | .member _ _ _ _ => true
  | .hidden _ _ _ => true
  | .index _ _ _ _ => true
  | .paren _ e => e.isPlace
  | .cast _ e _ _ => e.isPlace
  | .satisfies _ e _ => e.isPlace
  | .asserted _ e _ => e.isPlace
  | _ => false

/-- A name or a member as what is written to. -/
def Expr.place? : Expr → Option Target
  | .name s text => some (.name s text)
  | .member s e property _ => some (.member s e property)
  | .hidden s e _ => some (.hidden s e)
  | .index s e k _ => some (.index s e k)
  | .paren _ e => e.place?
  | .cast s e _ parts => if e.isPlace then some (.asserted s (e :: parts)) else none
  | .satisfies s e parts => if e.isPlace then some (.asserted s (e :: parts)) else none
  | .asserted s e parts => if e.isPlace then some (.asserted s (parts ++ [e])) else none
  | _ => none

/-- A name or a member read as a target. -/
def Expr.placeReading? (e : Expr) : Option TargetReading := e.place?.map fun t => ⟨t, []⟩

mutual

/-- Anything that can be written to. `sealed` holds where the operands of spreads begin after which
a comma stands. -/
def Expr.target? (sealed : List Nat) : Expr → Option TargetReading
  | .array s es => (elementParts? sealed es).map (·.pattern s)
  | .object s ps => (propertyParts? sealed ps).map (·.pattern s)
  | e => e.placeReading?

/-- An element of a pattern: a target, perhaps with a default value. -/
def Expr.elementPart? (sealed : List Nat) : Expr → Option PatternReading
  | .assign _ t value => some ⟨[.target t, .value value], []⟩
  | .array s es => (elementParts? sealed es).map fun r => (r.pattern s).part
  | .object s ps => (propertyParts? sealed ps).map fun r => (r.pattern s).part
  | e => e.placeReading?.map (·.part)

/-- The elements of an array pattern. A spread takes the rest and stands last. -/
def elementParts? (sealed : List Nat) : List Expr → Option PatternReading
  | [] => some ⟨[], []⟩
  | .spread _ e :: es =>
    if es.isEmpty && !sealed.contains e.span.start then (e.target? sealed).map (·.part) else none
  | e :: es =>
    match e.elementPart? sealed, elementParts? sealed es with
    | some r, some more => some (r.append more)
    | _, _ => none

/-- The properties of an object pattern. A spread takes the rest, stands last and goes to a place. A
shorthand property is one whose value begins where its key does. -/
def propertyParts? (sealed : List Nat) : List Property → Option PatternReading
  | [] => some ⟨[], []⟩
  | .spread e :: ps =>
    if ps.isEmpty && !sealed.contains e.span.start then e.placeReading?.map (·.part) else none
  | .named key _ v :: ps =>
    match v.elementPart? sealed, propertyParts? sealed ps with
    | some r, some more =>
      let own := if v.span.start = key.start then [key.start] else []
      some ((PatternReading.mk r.parts (own ++ r.defaults)).append more)
    | _, _ => none
  | .quoted _ _ v :: ps =>
    match v.elementPart? sealed, propertyParts? sealed ps with
    | some r, some more => some (r.append more)
    | _, _ => none
  | .keyed k v :: ps =>
    match v.elementPart? sealed, propertyParts? sealed ps with
    | some r, some more =>
      let key := k.toList.map PatternPart.value
      some ((PatternReading.mk (key ++ r.parts) r.defaults).append more)
    | _, _ => none

end

end ComponentLint.Script
