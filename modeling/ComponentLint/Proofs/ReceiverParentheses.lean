import ComponentLint.Proofs.TreeEdits
import ComponentLint.Proofs.Parentheses
import ComponentLint.Rule.ArrayAccess
import ComponentLint.Run
import ComponentLint.Types.Query

/-!
# Parentheses in receivers

Parentheses that change no meaning can stand around a receiver and around callees and objects in it.
What is judged by a method does not depend on them. A judgement that rests on a name, though, is made
only if the name stands bare: `Array` and `Object` as objects of the method that is called, and the
class after `new`. Apart from these names parentheses change nothing.
-/

namespace ComponentLint

open Script (Edit Expr Node)

/-- An expression in parentheses with the given spans, the outermost first. -/
def Script.Expr.enclose (e : Expr) : List Span → Expr
  | [] => e
  | span :: spans => .paren span (e.enclose spans)

/-- Puts parentheses around the expressions at places. -/
def Script.enclosing (parens : List Nat → List Span) : Edit := fun place e => e.enclose (parens place)

/-- No key in brackets is put in parentheses. Whether a key is a name matters. -/
def KeysBare (parens : List Nat → List Span) (e : Expr) : Prop :=
  ∀ place span object key optional,
    (Node.expr e).at? place = some (.expr (.index span object key optional)) →
      parens (place ++ [1]) = []

/-- The parentheses inside the first child. -/
def firstParens (parens : List Nat → List Span) : List Nat → List Span :=
  fun place => parens (0 :: place)

open Script (enclosing)

theorem KeysBare.first {parens : List Nat → List Span} {e x : Expr} {more : List Node}
    (h : KeysBare parens e) (hx : (Node.expr e).children = .expr x :: more) :
    KeysBare (firstParens parens) x := by
  intro place span object key optional hplace
  refine h (0 :: place) span object key optional ?_
  rw [Node.at?, hx]
  exact hplace

@[simp]
theorem bare_enclose (e : Expr) (spans : List Span) : (e.enclose spans).bare = e.bare := by
  induction spans with
  | nil => rfl
  | cons span spans ih => exact ih

/-- Without its own parentheses an expression is the rebuilt one. -/
theorem exists_bare_edit {parens : List Nat → List Span} {e : Expr} (h : KeysBare parens e) :
    ∃ inner, KeysBare inner e.bare ∧
      (e.edit (enclosing parens)).bare = e.bare.rebuild (enclosing inner) := by
  fun_induction Expr.bare e generalizing parens with
  | case1 span x ih =>
    obtain ⟨inner, hinner, hbare⟩ := ih (h.first rfl)
    refine ⟨inner, hinner, ?_⟩
    rw [← hbare]
    unfold Expr.edit
    rw [Expr.rebuild, enclosing, bare_enclose]
    rfl
  | case2 e hparen =>
    refine ⟨parens, h, ?_⟩
    unfold Expr.edit
    rw [enclosing, bare_enclose]
    cases e with
    | paren span x => exact absurd rfl (hparen span x)
    | _ => rfl

theorem name?_rebuild (f : Edit) (e : Expr) : (e.rebuild f).name? = e.name? := by
  cases e <;> rfl

/-- A name stays one as long as it stands bare. -/
theorem name?_edit (parens : List Nat → List Span) (e : Expr) :
    (e.edit (enclosing parens)).name? = e.name? ∨
      ∃ place text span x, e = .name place text ∧ e.edit (enclosing parens) = .paren span x := by
  unfold Expr.edit enclosing
  cases parens [] with
  | nil => exact Or.inl (name?_rebuild _ e)
  | cons span spans =>
    cases e with
    | name place text => exact Or.inr ⟨place, text, span, _, rfl, rfl⟩
    | _ => exact Or.inl rfl

/-- The key of an access names a property or not, as before. -/
theorem name?_key {parens : List Nat → List Span} {span : Span} {object key : Expr}
    {optional : Bool} (h : KeysBare parens (.index span object key optional)) :
    (enclosing parens [1] (key.rebuild ((enclosing parens).below 1))).name? = key.name? := by
  have hkey : parens [1] = [] := h [] span object key optional rfl
  rw [enclosing, hkey]
  exact name?_rebuild _ key

theorem propertyName?_rebuild {parens : List Nat → List Span} {e : Expr} (h : KeysBare parens e) :
    (e.rebuild (enclosing parens)).propertyName? = e.propertyName? := by
  cases e with
  | index => exact name?_key h
  | _ => rfl

namespace ArrayAccess

/-- Parentheses never change whether a call is one of a method that returns an array. -/
theorem isTypedArrayCall_edit {parens : List Nat → List Span} {e : Expr} (h : KeysBare parens e) :
    isTypedArrayCall (e.edit (enclosing parens)) = isTypedArrayCall e := by
  obtain ⟨inner, hinner, hbare⟩ := exists_bare_edit h
  unfold isTypedArrayCall
  rw [hbare]
  generalize e.bare = x at hinner
  cases x with
  | call span callee types args optional =>
    obtain ⟨deeper, hdeeper, hcallee⟩ := exists_bare_edit (hinner.first rfl)
    have hname := propertyName?_rebuild hdeeper
    rw [← hcallee] at hname
    exact congrArg (fun name => name.any Naming.typedArrayReturningMethods.contains) hname
  | _ => rfl

/-- The evidence for an array is that a method of `Array` is called, and in the second expression
this name stands in parentheses. -/
inductive HidesArray : Expr → Expr → Prop where
  | call {span span' callee callee' types types' args args' optional optional'}
    {outer outer' inner inner' x method o o'}
    (h : callee.bare = .member outer (.name inner "Array") method o)
    (h' : callee'.bare = .member outer' (.paren inner' x) method o')
    (hmethod : Naming.isArrayReturningMethod method = false) :
    HidesArray (.call span callee types args optional) (.call span' callee' types' args' optional')
  | paren {span span' e e'} (h : HidesArray e e') : HidesArray (.paren span e) (.paren span' e')
  | extra {span e e'} (h : HidesArray e e') : HidesArray e (.paren span e')
  | member {span span' e e' property o o'} (hproperty : Naming.isArrayMethod property = false)
    (h : HidesArray e e') : HidesArray (.member span e property o) (.member span' e' property o')
  | index {span span' e e' key key' o o'} (hkey : key.name?.any Naming.isArrayMethod = false)
    (hsame : key'.name? = key.name?) (h : HidesArray e e') :
    HidesArray (.index span e key o) (.index span' e' key' o')

theorem HidesArray.looksLikeArray {e e' : Expr} (h : HidesArray e e') :
    looksLikeArray e = true ∧ looksLikeArray e' = false := by
  induction h with
  | call h h' hmethod =>
    simp only [ArrayAccess.looksLikeArray, h, h', returnsArray, hmethod]
    exact ⟨rfl, rfl⟩
  | paren _ ih => exact ih
  | extra _ ih => exact ih
  | member hproperty _ ih => simp only [ArrayAccess.looksLikeArray, hproperty, ih, Bool.or_self,
      Bool.false_or, and_self]
  | index hkey hsame _ ih => simp only [ArrayAccess.looksLikeArray, hsame, hkey, ih, Bool.or_self,
      Bool.false_or, and_self]

theorem HidesArray.enclose {e e' : Expr} (h : HidesArray e e') (spans : List Span) :
    HidesArray e (e'.enclose spans) := by
  induction spans with
  | nil => exact h
  | cons span spans ih => exact .extra ih

@[simp]
theorem looksLikeArray_enclose (e : Expr) (spans : List Span) :
    looksLikeArray (e.enclose spans) = looksLikeArray e := by
  induction spans with
  | nil => rfl
  | cons span spans ih => exact ih

/-- A method returns an array as before, unless this was known from the name `Array` alone, which
is in parentheses now. -/
theorem returnsArray_rebuild (parens : List Nat → List Span) (e : Expr) :
    returnsArray (e.rebuild (enclosing parens)) = returnsArray e ∨
      ∃ outer place method o span x, e = .member outer (.name place "Array") method o ∧
        e.rebuild (enclosing parens) = .member outer (.paren span x) method o ∧
        Naming.isArrayReturningMethod method = false := by
  cases e with
  | member outer object method o =>
    have hmember : (Expr.member outer object method o).rebuild (enclosing parens) =
        .member outer (object.edit (enclosing (firstParens parens))) method o := rfl
    rw [hmember]
    rcases name?_edit (firstParens parens) object with hname | ⟨place, text, span, x, rfl, hparen⟩
    · refine Or.inl ?_
      rw [returnsArray, returnsArray, hname]
    · rw [hparen]
      cases hmethod : Naming.isArrayReturningMethod method with
      | true => exact Or.inl (by simp only [returnsArray, hmethod, Bool.true_or])
      | false =>
        by_cases harray : text = "Array"
        · subst harray
          exact Or.inr ⟨outer, place, method, o, span, x, rfl, rfl, hmethod⟩
        · have hother : ((Expr.name place text).name? == some "Array") = false :=
            beq_eq_false_iff_ne.mpr fun heq => harray (Option.some.inj heq)
          refine Or.inl ?_
          simp only [returnsArray, hother]
          rfl
  | _ => exact Or.inl rfl

/-- The evidence for an array is kept, or it was the name `Array` and is hidden. -/
theorem looksLikeArray_edit {parens : List Nat → List Span} {e : Expr} (h : KeysBare parens e) :
    looksLikeArray (e.edit (enclosing parens)) = looksLikeArray e ∨
      HidesArray e (e.edit (enclosing parens)) := by
  -- the parentheses around the whole expression do not matter
  suffices hrebuild : looksLikeArray (e.rebuild (enclosing parens)) = looksLikeArray e ∨
      HidesArray e (e.rebuild (enclosing parens)) by
    refine hrebuild.imp (fun heq => ?_) fun hhides => hhides.enclose (parens [])
    exact (looksLikeArray_enclose _ _).trans heq
  fun_cases looksLikeArray e with
  | case1 span inner =>
    exact (looksLikeArray_edit (h.first rfl)).imp_right .paren
  | case2 span text => exact Or.inl rfl
  | case3 span object property optional =>
    rcases looksLikeArray_edit (h.first rfl) with hsame | hhides
    · exact Or.inl (congrArg (Naming.isArrayMethod property || ·) hsame)
    · cases hproperty : Naming.isArrayMethod property with
      | true => exact Or.inl (by simp only [Expr.rebuild, looksLikeArray, hproperty, Bool.true_or])
      | false => exact Or.inr (.member hproperty hhides)
  | case4 span object key optional =>
    have hname := name?_key h
    rcases looksLikeArray_edit (h.first rfl) with hsame | hhides
    · refine Or.inl ?_
      simp only [Expr.rebuild, looksLikeArray, hname]
      exact congrArg (key.name?.any Naming.isArrayMethod || ·) hsame
    · cases hkey : key.name?.any Naming.isArrayMethod with
      | true =>
        exact Or.inl (by simp only [Expr.rebuild, looksLikeArray, hname, hkey, Bool.true_or])
      | false => exact Or.inr (.index hkey hname hhides)
  | case5 span callee types args optional =>
    obtain ⟨inner, hinner, hbare⟩ := exists_bare_edit (h.first rfl)
    rcases returnsArray_rebuild inner callee.bare with
      hsame | ⟨outer, place, method, o, span', x, hname, hparen, hmethod⟩
    · rw [← hbare] at hsame
      exact Or.inl hsame
    · exact Or.inr (.call hname (hbare.trans hparen) hmethod)
  | case6 _ hparen hnamed hmember hindex hcall =>
    refine Or.inl ?_
    cases e with
    | paren => exact absurd rfl (hparen _ _)
    | name => exact absurd rfl (hnamed _ _)
    | member => exact absurd rfl (hmember _ _ _ _)
    | index => exact absurd rfl (hindex _ _ _ _)
    | call => exact absurd rfl (hcall _ _ _ _ _)
    | _ => rfl

end ArrayAccess

namespace Types

/-- The type rests on the name of a class after `new` or on the name of the receiver of a well-known
method, and in the second expression this name stands in parentheses. The number bounds the
`satisfies` operators on the way to it. -/
inductive HidesName : Nat → Expr → Expr → Prop where
  | construct {n e e' span span' place text types types' args args' place' x}
    (h : e.bare = .construct span (.name place text) types args)
    (h' : e'.bare = .construct span' (.paren place' x) types' args') : HidesName (n + 1) e e'
  | call {n e e' span span' callee callee' types types' args args' o o'}
    {outer outer' place place' receiver x method optional optional'}
    (h : e.bare = .call span callee types args o)
    (h' : e'.bare = .call span' callee' types' args' o')
    (hcallee : callee.bare = .member outer (.name place receiver) method optional)
    (hcallee' : callee'.bare = .member outer' (.paren place' x) method optional')
    (hknown : wellKnown? (some receiver) method ≠ wellKnown? none method) : HidesName (n + 1) e e'
  | satisfies {n e e' span span' operand operand' parts parts'}
    (h : e.bare = .satisfies span operand parts) (h' : e'.bare = .satisfies span' operand' parts')
    (hoperand : HidesName n operand operand') : HidesName (n + 1) e e'

/-- A well-known method that needs its receiver is none that returns an array by itself. -/
theorem wellKnown?_of_ne {receiver method : String}
    (h : wellKnown? (some receiver) method ≠ wellKnown? none method) :
    (∃ t, wellKnown? (some receiver) method = some t) ∧ wellKnown? none method = none ∧
      Naming.typedArrayReturningMethods.contains method = false := by
  unfold wellKnown? at h
  split at h
  · next harray =>
    cases harray
    exact ⟨⟨_, rfl⟩, rfl, rfl⟩
  · next harray =>
    cases harray
    exact ⟨⟨_, rfl⟩, rfl, rfl⟩
  · next hobject =>
    cases hobject
    exact ⟨⟨_, rfl⟩, rfl, rfl⟩
  · next hobject =>
    cases hobject
    exact ⟨⟨_, rfl⟩, rfl, rfl⟩
  · next hobject =>
    cases hobject
    exact ⟨⟨_, rfl⟩, rfl, rfl⟩
  · exact absurd rfl h
  · exact absurd rfl h
  · next hquery hsplit =>
    refine absurd ?_ h
    split <;> first | rfl | contradiction

/-- A well-known method with its receiver in parentheses has no type. -/
theorem callType_paren {receiver method : String}
    (h : wellKnown? (some receiver) method ≠ wellKnown? none method) (outer outer' place place')
    (x : Expr) (o o' : Bool) :
    (∃ t, callType (.member outer (.name place receiver) method o) = .ok t) ∧
      callType (.member outer' (.paren place' x) method o') =
        .error (.unsupported .methodResult) := by
  obtain ⟨⟨t, hsome⟩, hnone, hmethod⟩ := wellKnown?_of_ne h
  constructor
  · refine ⟨t, ?_⟩
    unfold callType wellKnownCall?
    simp only [Expr.name?, hsome]
  · unfold callType wellKnownCall?
    simp only [Expr.name?, Expr.propertyName?, hnone, Option.any_some, hmethod, Option.isSome_none,
      Bool.false_eq_true, if_false]

theorem HidesName.typeWithin_ne {n : Nat} {e e' : Expr} (h : HidesName n e e')
    (source : List Char) (resolver : Resolver) :
    typeWithin source resolver n e' ≠ typeWithin source resolver n e := by
  induction h with
  | construct h h' =>
    unfold typeWithin
    rw [h, h']
    exact nofun
  | @call _ e e' _ _ _ _ _ _ _ _ _ _ outer outer' place place' _ x _ o o' h h' hcallee hcallee'
      hknown =>
    obtain ⟨⟨t, hok⟩, herror⟩ := callType_paren hknown outer outer' place place' x o o'
    unfold typeWithin
    rw [h, h']
    simp only [hcallee, hcallee', hok, herror]
    exact nofun
  | satisfies h h' _ ih =>
    unfold typeWithin
    rw [h, h']
    exact ih

/-- The type of a call is kept, or it rested on a name that is hidden. -/
theorem callType_rebuild {parens : List Nat → List Span} {e : Expr} (h : KeysBare parens e) :
    callType (e.rebuild (enclosing parens)) = callType e ∨
      ∃ outer place receiver method o span x, e = .member outer (.name place receiver) method o ∧
        e.rebuild (enclosing parens) = .member outer (.paren span x) method o ∧
        wellKnown? (some receiver) method ≠ wellKnown? none method := by
  have hproperty := propertyName?_rebuild h
  have hname := name?_rebuild (enclosing parens) e
  by_cases hknown : wellKnownCall? (e.rebuild (enclosing parens)) = wellKnownCall? e
  · refine Or.inl ?_
    unfold callType
    rw [hknown, hproperty, hname]
  · refine Or.inr ?_
    cases e with
    | member outer object method o =>
      have hmember : (Expr.member outer object method o).rebuild (enclosing parens) =
          .member outer (object.edit (enclosing (firstParens parens))) method o := rfl
      rw [hmember] at hknown ⊢
      rcases name?_edit (firstParens parens) object with hobject | ⟨place, text, span, x, rfl, hparen⟩
      · rw [wellKnownCall?, wellKnownCall?, hobject] at hknown
        exact absurd rfl hknown
      · rw [hparen] at hknown ⊢
        exact ⟨outer, place, text, method, o, span, x, rfl, rfl, Ne.symm hknown⟩
    | _ => exact absurd rfl hknown

/-- The type of an expression is kept, or it rested on a name that is hidden. -/
theorem typeWithin_edit (source : List Char) (resolver : Resolver) (n : Nat)
    {parens : List Nat → List Span} {e : Expr} (h : KeysBare parens e) :
    typeWithin source resolver n (e.edit (enclosing parens)) = typeWithin source resolver n e ∨
      HidesName n e (e.edit (enclosing parens)) := by
  induction n generalizing parens e with
  | zero => exact Or.inl rfl
  | succ n ih =>
    obtain ⟨inner, hinner, hbare⟩ := exists_bare_edit h
    unfold typeWithin
    rw [hbare]
    cases hform : e.bare with
    | construct span callee types args =>
      rw [hform] at hbare
      rcases name?_edit (firstParens inner) callee with hname | ⟨place, text, span', x, rfl, hparen⟩
      · have hcallee : (enclosing inner [0] (callee.rebuild ((enclosing inner).below 0))).name? =
            callee.name? := hname
        refine Or.inl ?_
        simp only [Expr.rebuild, hcallee]
      · have hconstruct : ∃ types' args',
            (Expr.construct span (.name place text) types args).rebuild (enclosing inner) =
              .construct span (.paren span' x) types' args' :=
          ⟨_, _, congrArg (Expr.construct span · _ _) hparen⟩
        obtain ⟨types', args', hconstruct⟩ := hconstruct
        exact Or.inr (.construct hform (hbare.trans hconstruct))
    | call span callee types args optional =>
      rw [hform] at hbare hinner
      obtain ⟨deeper, hdeeper, hcallee⟩ := exists_bare_edit (hinner.first rfl)
      rcases callType_rebuild hdeeper with
        hsame | ⟨outer, place, receiver, method, o, span', x, hmember, hparen, hknown⟩
      · rw [← hcallee] at hsame
        exact Or.inl hsame
      · exact Or.inr (.call hform hbare hmember (hcallee.trans hparen) hknown)
    | satisfies span operand parts =>
      rw [hform] at hbare hinner
      exact (ih (hinner.first rfl)).imp_right (.satisfies hform hbare)
    | _ => exact Or.inl rfl

end Types

/-- Parentheses around a receiver, or around callees and objects in it, change neither whether it is
a call of a method that returns an array nor, unless they hide a name that counts, whether it looks
like an array and what its type is. Where they hide one, they do change the answer. -/
theorem judgements_of_enclosed_receiver (source : List Char) (resolver : Types.Resolver)
    {parens : List Nat → List Span} {e : Expr} (h : KeysBare parens e) :
    ArrayAccess.isTypedArrayCall (e.edit (enclosing parens)) = ArrayAccess.isTypedArrayCall e ∧
    (ArrayAccess.looksLikeArray (e.edit (enclosing parens)) = ArrayAccess.looksLikeArray e ↔
      ¬ ArrayAccess.HidesArray e (e.edit (enclosing parens))) ∧
    (Types.typeOf source resolver (e.edit (enclosing parens)) = Types.typeOf source resolver e ↔
      ¬ Types.HidesName (Types.maxDepth + 1) e (e.edit (enclosing parens))) := by
  refine ⟨ArrayAccess.isTypedArrayCall_edit h, ⟨fun hsame hhides => ?_, fun hnot => ?_⟩,
    ⟨fun hsame hhides => ?_, fun hnot => ?_⟩⟩
  · obtain ⟨htrue, hfalse⟩ := hhides.looksLikeArray
    rw [htrue, hfalse] at hsame
    cases hsame
  · exact (ArrayAccess.looksLikeArray_edit h).resolve_right hnot
  · exact hhides.typeWithin_ne source resolver hsame
  · exact (Types.typeWithin_edit source resolver (Types.maxDepth + 1) h).resolve_right hnot

/-- The parentheses of `((items).filter)(f)` change nothing. -/
theorem judgements_of_enclosed_receiver_filter :
    let e : Expr := .call ⟨0, 15⟩ (.member ⟨0, 12⟩ (.name ⟨0, 5⟩ "items") "filter" false) []
      [.name ⟨13, 14⟩ "f"] false
    let parens : List Nat → List Span := fun place =>
      if place = [0] then [⟨0, 12⟩] else if place = [0, 0] then [⟨0, 5⟩] else []
    ArrayAccess.isTypedArrayCall e = true ∧ KeysBare parens e ∧
      ArrayAccess.isTypedArrayCall (e.edit (enclosing parens)) = true := by
  intro e parens
  have hkeys : KeysBare parens e := by
    intro place span object key optional hplace
    have hone : ∀ q, place ++ [1] ≠ q ++ [0] := by
      intro q heq
      have hlast := (List.append_inj' heq rfl).2
      cases hlast
    exact (if_neg (hone [])).trans (if_neg (hone [0]))
  have htyped : ArrayAccess.isTypedArrayCall e = true := by decide
  exact ⟨htyped, hkeys, (judgements_of_enclosed_receiver [] (fun _ _ => none) hkeys).1.trans htyped⟩

/-- In parentheses `Array` and `Object` are not recognised as receivers, and no class is after
`new`. -/
theorem judgements_of_hidden_names :
    let from' : Expr := .call ⟨0, 17⟩ (.member ⟨0, 10⟩ (.name ⟨0, 5⟩ "Array") "from" false) []
      [.name ⟨11, 16⟩ "nodes"] false
    let keys : Expr := .call ⟨0, 14⟩ (.member ⟨0, 11⟩ (.name ⟨0, 6⟩ "Object") "keys" false) []
      [.name ⟨12, 13⟩ "x"] false
    let made : Expr := .construct ⟨0, 11⟩ (.name ⟨4, 9⟩ "Array") [] []
    let object : List Nat → List Span := fun place => if place = [0, 0] then [⟨0, 7⟩] else []
    let callee : List Nat → List Span := fun place => if place = [0] then [⟨4, 11⟩] else []
    (ArrayAccess.looksLikeArray from' = true ∧
      ArrayAccess.looksLikeArray (from'.edit (enclosing object)) = false) ∧
    (∀ source resolver, Types.typeOf source resolver (keys.edit (enclosing object)) ≠
      Types.typeOf source resolver keys) ∧
    (∀ source resolver, Types.typeOf source resolver (made.edit (enclosing callee)) ≠
      Types.typeOf source resolver made) ∧
    ((SourceFile.read "a.ts" "Array.from(nodes)[i];" false).toOption.map fun file =>
      (ArrayAccess.check file).length) = some 1 ∧
    ((SourceFile.read "a.ts" "(Array).from(nodes)[i];" false).toOption.map fun file =>
      (ArrayAccess.check file).length) = some 0 := by
  intro from' keys made object callee
  refine ⟨⟨by decide, by decide⟩, fun source resolver => ?_, fun source resolver => ?_,
    by decide +kernel, by decide +kernel⟩
  · have hhides : Types.HidesName (Types.maxDepth + 1) keys (keys.edit (enclosing object)) :=
      .call rfl rfl rfl rfl (by decide)
    exact hhides.typeWithin_ne source resolver
  · have hhides : Types.HidesName (Types.maxDepth + 1) made (made.edit (enclosing callee)) :=
      .construct rfl rfl
    exact hhides.typeWithin_ne source resolver

end ComponentLint
