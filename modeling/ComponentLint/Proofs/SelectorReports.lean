import ComponentLint.Proofs.Located
import ComponentLint.Proofs.Places
import ComponentLint.Proofs.StyleModules
import ComponentLint.Rule.ChildSelectors
import Mathlib.Data.List.Nodup
import Mathlib.Data.Prod.Basic

/-!
# Which selectors are reported

A selector is the key of a property, and its place is that of the property in the tree of the file.
From a call of `style` the way goes to an argument, to an element if the argument is an array
literal, to the property `selectors` of the object literal there, and to a property of its value.

Calls of `style` can stand inside each other. A way from one call and a way from another do not end
at the same place: the shorter way would begin where the longer one comes by, at the array literal
(`SelectorIn.call_unique`).
-/

namespace ComponentLint

open Script (Expr Node Program Property)

/-! ## The expressions of a program -/

namespace Script

/-- The expression at a place of a program. -/
def Program.expr? (p : Program) (place : List Nat) : Option Expr :=
  match p.at? place with
  | some (.expr e) => some e
  | _ => none

theorem Program.expr?_eq_some_iff {p : Program} {place : List Nat} {e : Expr} :
    p.expr? place = some e ↔ p.at? place = some (.expr e) := by
  unfold Program.expr?
  constructor
  · intro h
    split at h
    · next hat =>
      rw [hat, Option.some.inj h]
    · cases h
  · intro h
    rw [h]

theorem Program.expr?_eq (p : Program) : p.expr? = (Node.program p).expr? := by
  funext place
  refine Option.ext fun e => ?_
  rw [expr?_eq_some_iff, Node.expr?_eq_some_iff]
  rfl

end Script

/-- The expressions of a program are found at their places. -/
theorem located_expressions (program : Program) :
    ∃ entries, Located (· < ·) program.expr? entries program.expressions := by
  obtain ⟨places, h⟩ := Node.enumerates (.program program)
  rw [Node.walk_program, ← Program.expr?_eq] at h
  obtain ⟨hlength, hzip⟩ := List.forall₂_iff_zip.mp h.located
  have hplaces : (places.zip program.expressions).map Prod.fst = places :=
    List.map_fst_zip (Nat.le_of_eq hlength)
  have hexpressions : (places.zip program.expressions).map Prod.snd = program.expressions :=
    List.map_snd_zip (Nat.le_of_eq hlength.symm)
  refine ⟨places.zip program.expressions, hexpressions, ?_, fun place e => ?_⟩
  · refine List.pairwise_map.mp ?_
    rw [hplaces]
    exact h.ascending
  · constructor
    · exact fun hmem => hzip hmem
    · intro he
      have hmem : place ∈ (places.zip program.expressions).map Prod.fst := by
        rw [hplaces]
        exact h.complete place e he
      obtain ⟨⟨place, e'⟩, hmem', rfl⟩ := List.mem_map.mp hmem
      -- one expression stands at a place
      obtain rfl : e' = e := Option.some.inj ((hzip hmem').symm.trans he)
      exact hmem'

namespace ChildSelectors

/-! ## The ways from calls to selectors -/

/-- `ObjectIn call way ps`: the call calls `style` by its name, and the way leads from it to an
object literal with the properties `ps` that is an argument or an element of an array literal that
is one. The arguments of a call come after what it calls and its type arguments. -/
inductive ObjectIn : Expr → List Nat → List Property → Prop where
  | argument {span callee types arguments optional i place ps}
      (hstyle : (Expr.call span callee types arguments optional).CallsByName "style")
      (hi : arguments[i]? = some (.object place ps)) :
      ObjectIn (.call span callee types arguments optional) [types.length + 1 + i] ps
  | element {span callee types arguments optional i place es j inner ps}
      (hstyle : (Expr.call span callee types arguments optional).CallsByName "style")
      (hi : arguments[i]? = some (.array place es)) (hj : es[j]? = some (.object inner ps)) :
      ObjectIn (.call span callee types arguments optional) [types.length + 1 + i, j] ps

/-- `SelectorIn call way key`: the way leads from the call to an object literal, to the value of its
property `selectors`, which is an object literal too, and to its property `key`. -/
inductive SelectorIn (call : Expr) : List Nat → Property → Prop where
  | intro {way ps k place inner keys m key} (hobject : ObjectIn call way ps)
      (hk : ps[k]? = some (.named place "selectors" (.object inner keys)))
      (hm : keys[m]? = some key) : SelectorIn call (way ++ [k, 0, m]) key

/-- `SelectorAt program place span text`: at the place stands a property in the selectors of a call
of `style`, and its key is the string literal `text` at the span. -/
def SelectorAt (program : Program) (place : List Nat) (span : Span) (text : String) : Prop :=
  ∃ start call way value, place = start ++ way ∧ program.at? start = some (.expr call) ∧
    SelectorIn call way (.quoted span text value)

/-! ## Positions -/

/-- Where a selector is in a call: the number of a child of the call, the way to an object literal
in it, the index of a property and that of a property inside it. -/
abbrev Position := ((Nat × List Nat) × Nat) × Nat

/-- The way to a position. -/
def Position.way (p : Position) : List Nat := p.1.1.1 :: p.1.1.2 ++ [p.1.2, 0, p.2]

theorem Position.way_injective : Function.Injective Position.way := by
  rintro ⟨⟨⟨n, path⟩, k⟩, m⟩ ⟨⟨⟨n', path'⟩, k'⟩, m'⟩ h
  obtain ⟨hobject, hkey⟩ := List.append_inj' h rfl
  cases hobject
  cases hkey
  rfl

/-- The argument of a call of `style` that is its child with the number `n`. -/
def argument? : Expr → Nat → Option Expr
  | .call span callee types arguments optional, n =>
    if (Expr.call span callee types arguments optional).calls styleFactory ∧ types.length < n then
      arguments[n - (types.length + 1)]?
    else none
  | _, _ => none

/-- What the way leads to in an argument: an element of an array literal, or any other expression
itself. -/
def styleObject? : Expr → List Nat → Option Expr
  | .array _ elements, [j] => elements[j]?
  | .array _ _, _ => none
  | e, [] => some e
  | _, _ => none

/-- The key at a position of a call. -/
def selector? (call : Expr) (p : Position) : Option Property :=
  (((argument? call p.1.1.1).bind fun a => styleObject? a p.1.1.2).bind
    fun o => (properties o)[p.1.2]?).bind fun s => (selectorProperties s)[p.2]?

theorem argument?_eq_some_iff {call : Expr} {n : Nat} {a : Expr} :
    argument? call n = some a ↔ ∃ span callee types arguments optional i,
      call = .call span callee types arguments optional ∧ call.CallsByName "style" ∧
        n = types.length + 1 + i ∧ arguments[i]? = some a := by
  constructor
  · intro h
    unfold argument? at h
    split at h
    · next span callee types arguments optional =>
      split_ifs at h with hcond
      exact ⟨span, callee, types, arguments, optional, n - (types.length + 1), rfl,
        Expr.calls_iff.mp hcond.1, by omega, h⟩
    · cases h
  · rintro ⟨span, callee, types, arguments, optional, i, rfl, hstyle, rfl, ha⟩
    rw [argument?, if_pos ⟨Expr.calls_iff.mpr hstyle, by omega⟩, Nat.add_sub_cancel_left]
    exact ha

theorem styleObject?_eq_some_iff {a o : Expr} {way : List Nat} :
    styleObject? a way = some o ↔
      (way = [] ∧ a = o ∧ ∀ span es, a ≠ .array span es) ∨
        ∃ j span es, way = [j] ∧ a = .array span es ∧ es[j]? = some o := by
  constructor
  · intro h
    unfold styleObject? at h
    split at h
    · next span es j => exact Or.inr ⟨j, span, es, rfl, rfl, h⟩
    · cases h
    · next hnot => exact Or.inl ⟨rfl, Option.some.inj h, hnot⟩
    · cases h
  · rintro (⟨rfl, rfl, hnot⟩ | ⟨j, span, es, rfl, rfl, h⟩)
    · cases a with
      | array span es => exact absurd rfl (hnot span es)
      | _ => rfl
    · exact h

theorem objectIn_iff {call : Expr} {n : Nat} {path : List Nat} {ps : List Property} :
    ObjectIn call (n :: path) ps ↔
      ∃ a place, argument? call n = some a ∧ styleObject? a path = some (.object place ps) := by
  simp only [argument?_eq_some_iff, styleObject?_eq_some_iff]
  constructor
  · rintro (⟨hstyle, hi⟩ | ⟨hstyle, hi, hj⟩)
    · exact ⟨_, _, ⟨_, _, _, _, _, _, rfl, hstyle, rfl, hi⟩, Or.inl ⟨rfl, rfl, nofun⟩⟩
    · exact ⟨_, _, ⟨_, _, _, _, _, _, rfl, hstyle, rfl, hi⟩, Or.inr ⟨_, _, _, rfl, rfl, hj⟩⟩
  · rintro ⟨a, place, ⟨_, _, _, _, _, i, rfl, hstyle, rfl, hi⟩,
      ⟨rfl, rfl, -⟩ | ⟨j, _, _, rfl, rfl, hj⟩⟩
    · exact .argument hstyle hi
    · exact .element hstyle hi hj

theorem properties_getElem?_eq_some_iff {o : Expr} {k : Nat} {s : Property} :
    (properties o)[k]? = some s ↔ ∃ place ps, o = .object place ps ∧ ps[k]? = some s := by
  constructor
  · intro h
    unfold properties at h
    split at h
    · exact ⟨_, _, rfl, h⟩
    · cases h
  · rintro ⟨place, ps, rfl, h⟩
    exact h

theorem selectorProperties_getElem?_eq_some_iff {s : Property} {m : Nat} {key : Property} :
    (selectorProperties s)[m]? = some key ↔ ∃ place inner keys,
      s = .named place "selectors" (.object inner keys) ∧ keys[m]? = some key := by
  constructor
  · intro h
    unfold selectorProperties at h
    split at h
    · next place name value =>
      split_ifs at h with hname
      · obtain ⟨inner, keys, rfl, hm⟩ := properties_getElem?_eq_some_iff.mp h
        exact ⟨place, inner, keys, by rw [hname], hm⟩
      · cases h
    · cases h
  · rintro ⟨place, inner, keys, rfl, h⟩
    exact h

theorem selector?_eq_some_iff {call : Expr} {p : Position} {key : Property} :
    selector? call p = some key ↔ SelectorIn call p.way key := by
  obtain ⟨⟨⟨n, path⟩, k⟩, m⟩ := p
  simp only [selector?, Option.bind_eq_some_iff, properties_getElem?_eq_some_iff,
    selectorProperties_getElem?_eq_some_iff]
  constructor
  · rintro ⟨s, ⟨_, ⟨a, ha, ho⟩, place, ps, rfl, hk⟩, _, _, _, rfl, hm⟩
    exact .intro (objectIn_iff.mpr ⟨a, place, ha, ho⟩) hk hm
  · intro h
    rw [Position.way] at h
    generalize hway : n :: path ++ [k, 0, m] = way at h
    obtain ⟨hobject, hk, hm⟩ := h
    obtain ⟨rfl, hkey⟩ := List.append_inj' hway rfl
    cases hkey
    obtain ⟨a, place, ha, ho⟩ := objectIn_iff.mp hobject
    exact ⟨_, ⟨_, ⟨a, ha, ho⟩, place, _, rfl, hk⟩, _, _, _, rfl, hm⟩

theorem SelectorIn.exists_position {call : Expr} {way : List Nat} {key : Property}
    (h : SelectorIn call way key) : ∃ p : Position, p.way = way := by
  obtain ⟨hobject, hk, hm⟩ := h
  cases hobject with
  | argument _ _ => exact ⟨(((_, []), _), _), rfl⟩
  | element _ _ _ => exact ⟨(((_, [_]), _), _), rfl⟩

/-! ## What is reported -/

/-- A finding is about the selector `text` at a span. -/
def Reports (span : Span) (text : String) (d : Diagnostic) : Prop :=
  d.span = span ∧ d.messageId = "noChildSelector" ∧ d.data = [("selector", text)]

theorem reports_of_checkSelector {key : Property} {d : Diagnostic}
    (h : checkSelector key = some d) :
    ∃ span text value, key = .quoted span text value ∧
      Selector.reachesOthers text.toList = true ∧ Reports span text d := by
  unfold checkSelector at h
  split at h
  · next span text value =>
    split_ifs at h with hreaches
    obtain rfl := Option.some.inj h
    exact ⟨span, text, value, rfl, hreaches, rfl, rfl, rfl⟩
  · cases h

theorem exists_checkSelector {span : Span} {text : String} {value : Expr}
    (h : Selector.reachesOthers text.toList = true) :
    ∃ d, checkSelector (.quoted span text value) = some d := by
  rw [checkSelector, if_pos h]
  exact ⟨_, rfl⟩

/-! ## All findings with their positions -/

theorem located_arguments {span : Span} {callee : Expr} {types arguments : List Expr}
    {optional : Bool}
    (hstyle : (Expr.call span callee types arguments optional).CallsByName "style") :
    ∃ entries, Located (· < ·) (argument? (.call span callee types arguments optional)) entries
      arguments := by
  obtain ⟨entries, h⟩ := Located.getElem? arguments
  refine ⟨_, h.reindex (fun i => types.length + 1 + i) (fun i j hij => by omega) fun n a => ?_⟩
  rw [argument?_eq_some_iff]
  constructor
  · rintro ⟨_, _, _, _, _, i, heq, -, rfl, ha⟩
    cases heq
    exact ⟨i, rfl, ha⟩
  · rintro ⟨i, rfl, ha⟩
    exact ⟨span, callee, types, arguments, optional, i, rfl, hstyle, rfl, ha⟩

theorem located_styleObjects (a : Expr) :
    ∃ entries, Located (· < ·) (styleObject? a) entries (styleObjects a) := by
  by_cases harray : ∃ span es, a = .array span es
  · obtain ⟨span, es, rfl⟩ := harray
    obtain ⟨entries, h⟩ := Located.getElem? es
    refine ⟨_, h.reindex (fun j => [j]) (fun i j hij => ?_) fun way o => ?_⟩
    · exact List.cons_lt_cons_iff.mpr (Or.inl hij)
    · rw [styleObject?_eq_some_iff]
      constructor
      · rintro (⟨-, -, hnot⟩ | ⟨j, _, _, rfl, heq, ho⟩)
        · exact absurd rfl (hnot span es)
        · cases heq
          exact ⟨j, rfl, ho⟩
      · rintro ⟨j, rfl, ho⟩
        exact Or.inr ⟨j, span, es, rfl, rfl, ho⟩
  · have hnot : ∀ span es, a ≠ .array span es := fun span es heq => harray ⟨span, es, heq⟩
    have hself : styleObjects a = [a] := by
      unfold styleObjects
      split
      · next span es => exact absurd rfl (hnot span es)
      · rfl
    rw [hself]
    refine ⟨[([], a)], rfl, List.pairwise_singleton _ _, fun way o => ?_⟩
    rw [styleObject?_eq_some_iff, List.mem_singleton, Prod.mk.injEq]
    constructor
    · rintro ⟨rfl, rfl⟩
      exact Or.inl ⟨rfl, rfl, hnot⟩
    · rintro (⟨rfl, rfl, -⟩ | ⟨_, span, es, -, heq, -⟩)
      · exact ⟨rfl, rfl⟩
      · exact absurd heq (hnot span es)

theorem located_checkCall (call : Expr) :
    ∃ entries, Located (Prod.Lex (Prod.Lex (Prod.Lex (· < ·) (· < ·)) (· < ·)) (· < ·))
      (fun p => (selector? call p).bind checkSelector) entries (checkCall call) := by
  by_cases hstyle : call.CallsByName "style"
  · cases hstyle with
    | @intro span callee types arguments optional _ hname =>
      have hcalls : (Expr.call span callee types arguments optional).CallsByName "style" :=
        .intro hname
      have hcheck : (Expr.call span callee types arguments optional).calls styleFactory = true :=
        Expr.calls_iff.mpr hcalls
      rw [checkCall, if_pos hcheck]
      obtain ⟨_, harguments⟩ := located_arguments hcalls
      obtain ⟨_, hobjects⟩ := harguments.flatMap located_styleObjects
      obtain ⟨_, hproperties⟩ := hobjects.flatMap fun o => Located.getElem? (properties o)
      obtain ⟨_, hkeys⟩ := hproperties.flatMap fun s => Located.getElem? (selectorProperties s)
      exact hkeys.filterMap checkSelector
  · have hnone : ∀ n, argument? call n = none := by
      intro n
      refine Option.eq_none_iff_forall_ne_some.mpr fun a ha => ?_
      obtain ⟨_, _, _, _, _, _, -, hcalls, -, -⟩ := argument?_eq_some_iff.mp ha
      exact hstyle hcalls
    have hempty : checkCall call = [] := by
      unfold checkCall
      split
      · exact if_neg fun hcalls => hstyle (Expr.calls_iff.mp hcalls)
      · rfl
    rw [hempty]
    simp only [selector?, hnone]
    exact ⟨[], Located.nil⟩

/-- What is found at a position of the call at a place. -/
def found? (program : Program) (e : List Nat × Position) : Option Diagnostic :=
  (program.expr? e.1).bind fun call => (selector? call e.2).bind checkSelector

theorem located_check {file : SourceFile} (hfile : ".css.ts".toList <:+ file.path.toList) :
    ∃ entries,
      Located (Prod.Lex (· < ·) (Prod.Lex (Prod.Lex (Prod.Lex (· < ·) (· < ·)) (· < ·)) (· < ·)))
        (found? file.program) entries (check file) := by
  obtain ⟨_, hexpressions⟩ := located_expressions file.program
  rw [check, if_pos (SourceFile.isStyleModule_iff.mpr hfile)]
  exact hexpressions.flatMap located_checkCall

/-! ## Places of selectors -/

theorem at?_argument {span : Span} {callee : Expr} {types arguments : List Expr} {optional : Bool}
    {i : Nat} {a : Expr} (h : arguments[i]? = some a) :
    (Node.expr (.call span callee types arguments optional)).at? [types.length + 1 + i] =
      some (.expr a) := by
  have hindex : types.length + 1 + i = (types.length + i) + 1 := by omega
  have hchild : (Node.exprs types ++ Node.exprs arguments)[types.length + i]? = some (.expr a) := by
    rw [List.getElem?_append_right (by simp [Node.exprs])]
    simp [Node.exprs, h]
  rw [Node.at?, Node.children, hindex, List.getElem?_cons_succ, hchild]
  rfl

theorem ObjectIn.at? {call : Expr} {way : List Nat} {ps : List Property}
    (h : ObjectIn call way ps) :
    ∃ place, (Node.expr call).at? way = some (.expr (.object place ps)) := by
  cases h with
  | argument _ hi => exact ⟨_, at?_argument hi⟩
  | @element _ _ _ _ _ i _ es j inner _ _ hi hj =>
    refine ⟨inner, ?_⟩
    rw [← List.singleton_append, Node.at?_append, at?_argument hi]
    simp [Node.at?, Node.children, Node.exprs, hj]

theorem SelectorIn.at? {call : Expr} {way : List Nat} {key : Property}
    (h : SelectorIn call way key) : (Node.expr call).at? way = some (.property key) := by
  obtain ⟨hobject, hk, hm⟩ := h
  obtain ⟨place, hat⟩ := hobject.at?
  rw [Node.at?_append, hat]
  simp [Node.at?, Node.children, hk, hm]

/-- A way to an argument and one that passes by an argument do not meet, since the first ends at an
object literal and begins at a call, and the second passes an array literal. -/
theorem ObjectIn.eq_of_append_eq {program : Program} {start start' : List Nat} {call call' : Expr}
    {way way' : List Nat} {ps ps' : List Property} (h : ObjectIn call way ps)
    (h' : ObjectIn call' way' ps') (hat : program.at? start = some (.expr call))
    (hat' : program.at? start' = some (.expr call')) (heq : start ++ way = start' ++ way') :
    start = start' := by
  -- the longer way goes from its call to an array literal, which would be the other call
  have harray : ∀ {outer inner : List Nat} {span callee types arguments optional place es e}
      {i : Nat}, arguments[i]? = some (Expr.array place es) →
      program.at? outer = some (.expr (.call span callee types arguments optional)) →
      program.at? inner = some (.expr e) → inner = outer ++ [types.length + 1 + i] →
      e = .array place es := by
    rintro outer _ span callee types arguments optional place es e i hi hcall he rfl
    rw [Program.at?_append hcall, at?_argument hi] at he
    exact (Node.expr.inj (Option.some.inj he)).symm
  cases h with
  | argument _ hi =>
    cases h' with
    | argument _ hi' => exact (List.append_inj' heq rfl).1
    | @element _ _ types _ _ i _ _ j _ _ _ hi' hj' =>
      rw [List.append_cons start'] at heq
      have hinner : start = start' ++ [types.length + 1 + i] := (List.append_inj' heq rfl).1
      exact absurd (harray hi' hat' hat hinner) nofun
  | @element _ _ types _ _ i _ _ j _ _ _ hi hj =>
    cases h' with
    | argument _ hi' =>
      rw [List.append_cons start] at heq
      have hinner : start' = start ++ [types.length + 1 + i] := (List.append_inj' heq rfl).1.symm
      exact absurd (harray hi hat hat' hinner) nofun
    | element _ hi' hj' => exact (List.append_inj' heq rfl).1

theorem SelectorIn.call_unique {program : Program} {start start' : List Nat} {call call' : Expr}
    {way way' : List Nat} {key key' : Property} (h : SelectorIn call way key)
    (h' : SelectorIn call' way' key') (hat : program.at? start = some (.expr call))
    (hat' : program.at? start' = some (.expr call')) (heq : start ++ way = start' ++ way') :
    start = start' ∧ way = way' := by
  have hstart : start = start' := by
    obtain ⟨hobject, -, -⟩ := h
    obtain ⟨hobject', -, -⟩ := h'
    rw [← List.append_assoc, ← List.append_assoc] at heq
    exact hobject.eq_of_append_eq hobject' hat hat' (List.append_inj' heq rfl).1
  refine ⟨hstart, ?_⟩
  rw [hstart] at heq
  exact List.append_cancel_left heq

theorem SelectorAt.at? {program : Program} {place : List Nat} {span : Span} {text : String}
    (h : SelectorAt program place span text) :
    ∃ value, program.at? place = some (.property (.quoted span text value)) := by
  obtain ⟨start, call, way, value, rfl, hcall, hin⟩ := h
  exact ⟨value, (Program.at?_append hcall way).trans hin.at?⟩

/-- The place of a position of the call at a place. -/
def placeOf (e : List Nat × Position) : List Nat := e.1 ++ e.2.way

theorem found?_eq_some_iff {program : Program} {e : List Nat × Position} {d : Diagnostic} :
    found? program e = some d ↔
      ∃ call key, program.at? e.1 = some (.expr call) ∧ SelectorIn call e.2.way key ∧
        checkSelector key = some d := by
  simp only [found?, Option.bind_eq_some_iff, Program.expr?_eq_some_iff, selector?_eq_some_iff]
  constructor
  · rintro ⟨call, hcall, key, hin, hd⟩
    exact ⟨call, key, hcall, hin, hd⟩
  · rintro ⟨call, key, hcall, hin, hd⟩
    exact ⟨call, hcall, key, hin, hd⟩

theorem selectorAt_of_found {program : Program} {e : List Nat × Position} {d : Diagnostic}
    (h : found? program e = some d) :
    ∃ span text, SelectorAt program (placeOf e) span text ∧
      Selector.reachesOthers text.toList = true ∧ Reports span text d := by
  obtain ⟨call, key, hcall, hin, hd⟩ := found?_eq_some_iff.mp h
  obtain ⟨span, text, value, rfl, hreaches, hreports⟩ := reports_of_checkSelector hd
  exact ⟨span, text, ⟨e.1, call, e.2.way, value, rfl, hcall, hin⟩, hreaches, hreports⟩

theorem exists_found_of_selectorAt {program : Program} {place : List Nat} {span : Span}
    {text : String} (h : SelectorAt program place span text)
    (hreaches : Selector.reachesOthers text.toList = true) :
    ∃ e d, placeOf e = place ∧ found? program e = some d := by
  obtain ⟨start, call, way, value, rfl, hcall, hin⟩ := h
  obtain ⟨p, rfl⟩ := hin.exists_position
  have hreport : ∃ d, checkSelector (.quoted span text value) = some d :=
    exists_checkSelector hreaches
  obtain ⟨d, hd⟩ := hreport
  exact ⟨(start, p), d, rfl, found?_eq_some_iff.mpr ⟨call, _, hcall, hin, hd⟩⟩

/-- Nothing is found twice at a place. -/
theorem eq_of_found {program : Program} {e e' : List Nat × Position} {d d' : Diagnostic}
    (h : found? program e = some d) (h' : found? program e' = some d')
    (heq : placeOf e = placeOf e') : e = e' := by
  obtain ⟨call, key, hcall, hin, -⟩ := found?_eq_some_iff.mp h
  obtain ⟨call', key', hcall', hin', -⟩ := found?_eq_some_iff.mp h'
  obtain ⟨hstart, hway⟩ := hin.call_unique hin' hcall hcall' heq
  exact Prod.ext hstart (Position.way_injective hway)

/-- In a style module every selector of a call of `style` that reaches another element is reported,
once and at its span, and nothing else is. Calls may stand anywhere, also inside each other. -/
theorem check_reports_selectors (file : SourceFile) :
    (".css.ts".toList <:+ file.path.toList →
      ∃ places : List (List Nat),
        places.Nodup ∧
        (∀ place, place ∈ places ↔ ∃ span text,
          SelectorAt file.program place span text ∧
            Selector.reachesOthers text.toList = true) ∧
        List.Forall₂ (fun place d => ∃ span text value,
          file.program.at? place = some (.property (.quoted span text value)) ∧
            SelectorAt file.program place span text ∧ Reports span text d) places (check file)) ∧
    (¬ ".css.ts".toList <:+ file.path.toList → check file = []) := by
  refine ⟨fun hfile => ?_, fun hfile => ?_⟩
  · obtain ⟨entries, h⟩ := located_check hfile
    refine ⟨(entries.map (·.1)).map placeOf, ?_, fun place => ?_, ?_⟩
    · refine List.Nodup.map_on (fun e he e' he' heq => ?_) (h.nodup_positions irrefl)
      obtain ⟨d, hd⟩ := h.mem_positions_iff.mp he
      obtain ⟨d', hd'⟩ := h.mem_positions_iff.mp he'
      exact eq_of_found hd hd' heq
    · rw [List.mem_map]
      constructor
      · rintro ⟨e, he, rfl⟩
        obtain ⟨d, hd⟩ := h.mem_positions_iff.mp he
        obtain ⟨span, text, hat, hreaches, -⟩ := selectorAt_of_found hd
        exact ⟨span, text, hat, hreaches⟩
      · rintro ⟨span, text, hat, hreaches⟩
        obtain ⟨e, d, rfl, hd⟩ := exists_found_of_selectorAt hat hreaches
        exact ⟨e, h.mem_positions_iff.mpr ⟨d, hd⟩, rfl⟩
    · refine List.forall₂_map_left_iff.mpr (h.forall₂.imp fun e d hd => ?_)
      obtain ⟨span, text, hat, -, hreports⟩ := selectorAt_of_found hd
      obtain ⟨value, hproperty⟩ := hat.at?
      exact ⟨span, text, value, hproperty, hat, hreports⟩
  · rw [check, if_neg fun hstyle => hfile (SourceFile.isStyleModule_iff.mp hstyle)]

end ChildSelectors

end ComponentLint
