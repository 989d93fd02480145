import ComponentLint.Script.Walk
import Mathlib.Data.List.Basic
import Mathlib.Data.List.Forall2

/-!
# Places in a tree

A place is the way from the root of a tree to one of its nodes, as the list of the numbers of the
children that it passes. Places are ordered like words in a dictionary, which puts a node before the
nodes inside it and these in source order. What is written to has a place like any other node, but
is no expression.

A walk over a tree passes every expression at its own place, in this order (`Node.enumerates`). At
each of them it calls one hook of its visitor: the one for elements where the expression stands
directly in an optional chain, the one for expressions anywhere else (`Node.visitParts_eq`,
`Program.visit_eq`).
-/

namespace ComponentLint.Script

/-- A node of a tree. -/
inductive Node where
  | expr (e : Expr)
  | target (t : Target)
  | property (p : Property)
  | binding (b : Binding)
  | function (f : Function)
  | stmt (s : Stmt)
  | program (p : Program)

namespace Node

variable {α β : Type}

/-- The nodes of a list of expressions. -/
def exprs (es : List Expr) : List Node := es.map expr

/-- The nodes of a list of statements. -/
def stmts (ss : List Stmt) : List Node := ss.map stmt

/-- The node that a part of a pattern is. -/
def ofPart : PatternPart → Node
  | .target t => target t
  | .value e => expr e

/-- The nodes directly inside a node, in source order. -/
def children : Node → List Node
  | expr (.name _ _) | expr (.number _ _) | expr (.string _ _) | expr (.boolean _)
  | expr (.atom _) => []
  | expr (.template _ es) | expr (.array _ es) | expr (.compound _ es) => exprs es
  | expr (.object _ ps) => ps.map property
  | expr (.function _ f) => [function f]
  | expr (.classLike _ _ members) => stmts members
  | expr (.paren _ e) | expr (.negation _ e) | expr (.member _ e _ _) | expr (.hidden _ e _)
  | expr (.chain _ e) | expr (.spread _ e) => [expr e]
  | expr (.binary _ l r) | expr (.logical _ _ l r) => [expr l, expr r]
  | expr (.index _ e k _) => [expr e, expr k]
  | expr (.call _ f types args _) | expr (.construct _ f types args) =>
    expr f :: (exprs types ++ exprs args)
  | expr (.cast _ e _ parts) | expr (.satisfies _ e parts) => expr e :: exprs parts
  | expr (.asserted _ e parts) => exprs parts ++ [expr e]
  | expr (.assign _ t v) => [target t, expr v]
  | expr (.update _ t v) => target t :: exprs v.toList
  | target (.name _ _) => []
  | target (.member _ e _) | target (.hidden _ e) => [expr e]
  | target (.index _ e k) => [expr e, expr k]
  | target (.asserted _ parts) => exprs parts
  | target (.pattern _ parts) => parts.map ofPart
  | property (.named _ _ v) | property (.quoted _ _ v) | property (.spread v) => [expr v]
  | property (.keyed k v) => exprs k.toList ++ [expr v]
  | binding (.mk _ _ parts v) => exprs parts ++ exprs v.toList
  | function (.mk _ _ generics params result body _) =>
    exprs generics ++ params.map binding ++ exprs result ++ stmts body
  | stmt (.expression _ e) => [expr e]
  | stmt (.target t) => [target t]
  | stmt (.variables _ _ bs) => bs.map binding
  | stmt (.function _ f) => [function f]
  | stmt (.block _ _ body) | stmt (.declaration _ _ _ body) | stmt (.space _ _ _ body)
  | stmt (.compound _ body) => stmts body
  | stmt (.alias _ _) | stmt (.importFrom _ _ _) | stmt (.exportList _ _ _) => []
  | stmt (.exportDeclaration _ d) | stmt (.exportDefault _ d) => [stmt d]
  | program p => stmts p.body

/-- The node at a place. -/
def at? (n : Node) : List Nat → Option Node
  | [] => some n
  | i :: place => n.children[i]?.bind fun c => c.at? place

/-- Whether a node is an optional chain, whose only child is its last element. -/
def isChain : Node → Bool
  | expr (.chain _ _) => true
  | _ => false

/-- The expression that a node is, as a list. -/
def own : Node → List Expr
  | expr e => [e]
  | _ => []

/-- What a visitor makes of a node itself; `isElement` tells whether it stands directly in an
optional chain. -/
def hook (v : Visitor α) (isElement : Bool) : Node → List α
  | expr e => if isElement then v.element e else v.expression e
  | _ => []

/-- The walk over what is inside a node. -/
def visitParts (v : Visitor α) : Node → List α
  | expr e => e.visitParts v
  | target t => t.visit v
  | property p => p.visit v
  | binding b => b.visit v
  | function f => f.visit v
  | stmt s => s.visit v
  | program p => p.visit v

/-- The walk over a node; `isElement` tells whether it stands directly in an optional chain. -/
def visit (v : Visitor α) (isElement : Bool) (n : Node) : List α :=
  n.hook v isElement ++ n.visitParts v

/-- The expressions that a walk over a node passes. -/
def walk (n : Node) : List Expr := n.visit .collect false

/-! ## The walk, one node at a time -/

theorem flatMap_visit_exprs (v : Visitor α) (es : List Expr) :
    (exprs es).flatMap (visit v false) = visitExprs v es := by
  induction es with
  | nil => rfl
  | cons e es ih =>
    rw [exprs, List.map_cons, List.flatMap_cons, visitExprs, ← ih]
    rfl

theorem visitExprs_toList (v : Visitor α) (e : Option Expr) :
    visitExprs v e.toList = visitOption v e := by
  cases e with
  | none => rfl
  | some e => simp [visitExprs, visitOption]

theorem flatMap_visit_parts (v : Visitor α) (ps : List PatternPart) :
    (ps.map ofPart).flatMap (visit v false) = visitPatternParts v ps := by
  induction ps with
  | nil => rfl
  | cons p ps ih =>
    rw [List.map_cons, List.flatMap_cons, visitPatternParts, ← ih]
    cases p with
    | target t => rfl
    | value e => rfl

theorem flatMap_visit_stmts (v : Visitor α) (ss : List Stmt) :
    (stmts ss).flatMap (visit v false) = visitStmts v ss := by
  induction ss with
  | nil => rfl
  | cons s ss ih =>
    rw [stmts, List.map_cons, List.flatMap_cons, visitStmts, ← ih]
    rfl

theorem flatMap_visit_properties (v : Visitor α) (ps : List Property) :
    (ps.map property).flatMap (visit v false) = visitProperties v ps := by
  induction ps with
  | nil => rfl
  | cons p ps ih =>
    rw [List.map_cons, List.flatMap_cons, visitProperties, ← ih]
    rfl

theorem flatMap_visit_bindings (v : Visitor α) (bs : List Binding) :
    (bs.map binding).flatMap (visit v false) = visitBindings v bs := by
  induction bs with
  | nil => rfl
  | cons b bs ih =>
    rw [List.map_cons, List.flatMap_cons, visitBindings, ← ih]
    rfl

/-- The walk passes the children of a node one after the other. The hook for elements is called at
the child of an optional chain and nowhere else. -/
theorem visitParts_eq (v : Visitor α) (n : Node) :
    n.visitParts v = n.children.flatMap (visit v n.isChain) := by
  cases n with
  | expr e =>
    cases e <;>
      simp [visitParts, isChain, children, Expr.visitParts, flatMap_visit_exprs,
        flatMap_visit_properties, flatMap_visit_stmts, visitExprs_toList] <;>
      simp [visit, hook, visitParts]
  | target t =>
    cases t <;>
      simp [visitParts, isChain, children, Target.visit, flatMap_visit_exprs,
        flatMap_visit_parts] <;>
      simp [visit, hook, visitParts]
  | property p =>
    cases p <;>
      simp [visitParts, isChain, children, Property.visit, flatMap_visit_exprs,
        visitExprs_toList] <;>
      simp [visit, hook, visitParts]
  | binding b =>
    cases b
    simp [visitParts, isChain, children, Binding.visit, flatMap_visit_exprs, visitExprs_toList]
  | function f =>
    cases f
    simp [visitParts, isChain, children, Function.visit, flatMap_visit_exprs,
      flatMap_visit_bindings, flatMap_visit_stmts]
  | stmt s =>
    cases s <;>
      simp [visitParts, isChain, children, Stmt.visit, flatMap_visit_bindings,
        flatMap_visit_stmts] <;>
      simp [visit, hook, visitParts]
  | program p => simp [visitParts, isChain, children, Program.visit, flatMap_visit_stmts]

/-- The list of expressions is the same for either hook. -/
theorem visit_collect (isElement : Bool) (n : Node) : n.visit .collect isElement = n.walk := by
  cases n with
  | expr e => cases isElement <;> rfl
  | _ => rfl

/-- The walk passes a node itself and then its children one after the other. -/
theorem walk_eq (n : Node) : n.walk = n.own ++ n.children.flatMap walk := by
  rw [walk, visit, visitParts_eq]
  refine congrArg₂ _ ?_ (List.flatMap_congr fun c _ => visit_collect _ c)
  cases n <;> rfl

@[simp] theorem walk_expr (e : Expr) : (expr e).walk = e.walk := rfl

/-- An expression whose parts are expressions comes before these and what stands in them. -/
theorem walk_of_exprs {e : Expr} {es : List Expr} (h : (expr e).children = exprs es) :
    e.walk = e :: es.flatMap Expr.walk := by
  rw [← walk_expr, walk_eq, h, exprs, List.flatMap_map]
  rfl

@[simp] theorem walk_program (p : Program) : (program p).walk = p.expressions := rfl

/-! ## Children are smaller -/

theorem sizeOf_lt_of_mem_exprs {n : Node} {es : List Expr} (h : n ∈ exprs es) :
    sizeOf n < 1 + sizeOf es := by
  obtain ⟨e, he, rfl⟩ := List.mem_map.mp h
  have := List.sizeOf_lt_of_mem he
  simp only [expr.sizeOf_spec]
  omega

theorem sizeOf_lt_of_mem_stmts {n : Node} {ss : List Stmt} (h : n ∈ stmts ss) :
    sizeOf n < 1 + sizeOf ss := by
  obtain ⟨s, hs, rfl⟩ := List.mem_map.mp h
  have := List.sizeOf_lt_of_mem hs
  simp only [stmt.sizeOf_spec]
  omega

theorem sizeOf_lt_of_mem_properties {n : Node} {ps : List Property} (h : n ∈ ps.map property) :
    sizeOf n < 1 + sizeOf ps := by
  obtain ⟨p, hp, rfl⟩ := List.mem_map.mp h
  have := List.sizeOf_lt_of_mem hp
  simp only [property.sizeOf_spec]
  omega

theorem sizeOf_lt_of_mem_bindings {n : Node} {bs : List Binding} (h : n ∈ bs.map binding) :
    sizeOf n < 1 + sizeOf bs := by
  obtain ⟨b, hb, rfl⟩ := List.mem_map.mp h
  have := List.sizeOf_lt_of_mem hb
  simp only [binding.sizeOf_spec]
  omega

theorem sizeOf_lt_of_mem_parts {n : Node} {ps : List PatternPart} (h : n ∈ ps.map ofPart) :
    sizeOf n < 1 + sizeOf ps := by
  obtain ⟨p, hp, rfl⟩ := List.mem_map.mp h
  have := List.sizeOf_lt_of_mem hp
  cases p with
  | target t =>
    simp only [ofPart, Node.target.sizeOf_spec]
    simp only [PatternPart.target.sizeOf_spec] at this
    omega
  | value e =>
    simp only [ofPart, expr.sizeOf_spec]
    simp only [PatternPart.value.sizeOf_spec] at this
    omega

theorem sizeOf_toList_le (e : Option Expr) : sizeOf e.toList ≤ 1 + sizeOf e := by
  cases e with
  | none => simp
  | some e =>
    simp only [Option.toList_some, List.cons.sizeOf_spec, List.nil.sizeOf_spec,
      Option.some.sizeOf_spec]
    omega

/-- A node is larger than the nodes inside it. -/
theorem sizeOf_lt_of_mem_children {n c : Node} (h : c ∈ n.children) : sizeOf c < sizeOf n := by
  cases n with
  | expr e =>
    cases e <;>
      simp only [children, List.mem_cons, List.mem_append, List.not_mem_nil, or_false] at h <;>
      grind [→ sizeOf_lt_of_mem_exprs, → sizeOf_lt_of_mem_stmts, → sizeOf_lt_of_mem_properties,
        sizeOf_toList_le, expr.sizeOf_spec, target.sizeOf_spec, function.sizeOf_spec]
  | target t =>
    cases t <;>
      simp only [children, List.mem_cons, List.not_mem_nil, or_false] at h <;>
      grind [→ sizeOf_lt_of_mem_exprs, → sizeOf_lt_of_mem_parts, expr.sizeOf_spec,
        target.sizeOf_spec]
  | property p =>
    cases p <;>
      simp only [children, List.mem_cons, List.mem_append, List.not_mem_nil, or_false] at h <;>
      grind [→ sizeOf_lt_of_mem_exprs, sizeOf_toList_le, expr.sizeOf_spec, property.sizeOf_spec]
  | binding b =>
    cases b
    simp only [children, List.mem_append] at h
    grind [→ sizeOf_lt_of_mem_exprs, sizeOf_toList_le, expr.sizeOf_spec, binding.sizeOf_spec]
  | function f =>
    cases f
    simp only [children, List.mem_append] at h
    grind [→ sizeOf_lt_of_mem_exprs, → sizeOf_lt_of_mem_stmts, → sizeOf_lt_of_mem_bindings,
      function.sizeOf_spec]
  | stmt s =>
    cases s <;>
      simp only [children, List.mem_cons, List.not_mem_nil, or_false] at h <;>
      grind [→ sizeOf_lt_of_mem_bindings, → sizeOf_lt_of_mem_stmts, expr.sizeOf_spec,
        target.sizeOf_spec, function.sizeOf_spec, stmt.sizeOf_spec]
  | program p =>
    obtain ⟨span, body, comments⟩ := p
    have : sizeOf c < 1 + sizeOf body := sizeOf_lt_of_mem_stmts h
    simp only [program.sizeOf_spec, Program.mk.sizeOf_spec]
    omega

/-! ## Items at places -/

/-- What a row finds at a place: the first number tells which member of the row looks further. -/
def inRow (row : List (List Nat → Option β)) : List Nat → Option β
  | [] => none
  | i :: place => row[i]?.bind fun locate => locate place

/-- The items that can be located are those of a list, in the order of their places. -/
structure Enumerates (locate : List Nat → Option β) (places : List (List Nat)) (items : List β) :
    Prop where
  /-- The places ascend. -/
  ascending : places.Pairwise (· < ·)
  /-- No place of an item is missing. -/
  complete : ∀ place b, locate place = some b → place ∈ places
  /-- The items stand at the places. -/
  located : List.Forall₂ (fun place b => locate place = some b) places items

/-- What stands in the first of two related lists has a partner. -/
theorem exists_of_mem_of_forall₂ {R : α → β → Prop} {l : List α} {m : List β}
    (h : List.Forall₂ R l m) {a : α} (ha : a ∈ l) : ∃ b, R a b := by
  induction h with
  | nil => cases ha
  | cons hhead _ ih =>
    rcases List.mem_cons.mp ha with rfl | ha
    · exact ⟨_, hhead⟩
    · exact ih ha

/-- The same place in a row with one more member in front. -/
def behind : List Nat → List Nat
  | [] => []
  | i :: place => (i + 1) :: place

theorem behind_lt_behind {p q : List Nat} (h : p < q) : behind p < behind q := by
  cases p with
  | nil =>
    cases q with
    | nil => exact absurd h (List.lt_irrefl _)
    | cons j q => exact List.nil_lt_cons ..
  | cons i p =>
    cases q with
    | nil => exact absurd h (List.not_lt_nil _)
    | cons j q =>
      rcases List.cons_lt_cons_iff.mp h with hij | ⟨rfl, hpq⟩
      · exact List.cons_lt_cons_iff.mpr (Or.inl (by omega))
      · exact List.cons_lt_cons_iff.mpr (Or.inr ⟨rfl, hpq⟩)

theorem inRow_behind (locate : List Nat → Option β) (row : List (List Nat → Option β))
    (place : List Nat) : inRow (locate :: row) (behind place) = inRow row place := by
  cases place with
  | nil => rfl
  | cons i place => rfl

/-- Nothing is found in an empty row. -/
theorem Enumerates.nil : Enumerates (inRow ([] : List (List Nat → Option β))) [] [] := by
  refine ⟨List.Pairwise.nil, fun place b h => ?_, List.Forall₂.nil⟩
  cases place with
  | nil => cases h
  | cons i place => simp [inRow] at h

/-- A row is enumerated by its first member and the others behind it. -/
theorem Enumerates.cons {locate : List Nat → Option β} {row : List (List Nat → Option β)}
    {ps qs : List (List Nat)} {bs cs : List β} (hfirst : Enumerates locate ps bs)
    (hrow : Enumerates (inRow row) qs cs) :
    Enumerates (inRow (locate :: row)) (ps.map (0 :: ·) ++ qs.map behind) (bs ++ cs) := by
  refine ⟨List.pairwise_append.mpr ⟨?_, ?_, ?_⟩, ?_, ?_⟩
  · exact List.pairwise_map.mpr
      (hfirst.ascending.imp fun h => List.cons_lt_cons_iff.mpr (Or.inr ⟨rfl, h⟩))
  · exact List.pairwise_map.mpr (hrow.ascending.imp behind_lt_behind)
  · intro p hp q hq
    obtain ⟨p', -, rfl⟩ := List.mem_map.mp hp
    obtain ⟨q', hq', rfl⟩ := List.mem_map.mp hq
    cases q' with
    | nil =>
      obtain ⟨b, hb⟩ := exists_of_mem_of_forall₂ hrow.located hq'
      cases hb
    | cons j q' => exact List.cons_lt_cons_iff.mpr (Or.inl (by omega))
  · intro place b hb
    refine List.mem_append.mpr ?_
    cases place with
    | nil => cases hb
    | cons i place =>
      cases i with
      | zero => exact Or.inl (List.mem_map_of_mem (hfirst.complete place b hb))
      | succ i => exact Or.inr (List.mem_map.mpr ⟨i :: place, hrow.complete _ b hb, rfl⟩)
  · refine List.rel_append (List.forall₂_map_left_iff.mpr hfirst.located) ?_
    refine List.forall₂_map_left_iff.mpr ?_
    simpa only [inRow_behind] using hrow.located

/-- A row is enumerated if its members are. -/
theorem Enumerates.row {γ : Type} {locate : γ → List Nat → Option β} {items : γ → List β}
    {cs : List γ} (h : ∀ c ∈ cs, ∃ places, Enumerates (locate c) places (items c)) :
    ∃ places, Enumerates (inRow (cs.map locate)) places (cs.flatMap items) := by
  induction cs with
  | nil => exact ⟨[], Enumerates.nil⟩
  | cons c cs ih =>
    obtain ⟨ps, hps⟩ := h c List.mem_cons_self
    obtain ⟨qs, hqs⟩ := ih fun c' hc' => h c' (List.mem_cons_of_mem c hc')
    exact ⟨_, hps.cons hqs⟩

/-- An item in front of those of a row. -/
theorem Enumerates.front {locate : List Nat → Option β} {row : List (List Nat → Option β)}
    {qs : List (List Nat)} {cs : List β} (h : Enumerates (inRow row) qs cs)
    (hbelow : ∀ i place, locate (i :: place) = inRow row (i :: place)) :
    Enumerates locate ((locate []).toList.map (fun _ => []) ++ qs) ((locate []).toList ++ cs) := by
  have hinside : ∀ q ∈ qs, ∃ i place, q = i :: place := by
    intro q hq
    obtain ⟨b, hb⟩ := exists_of_mem_of_forall₂ h.located hq
    cases q with
    | nil => cases hb
    | cons i place => exact ⟨i, place, rfl⟩
  have hlocated : List.Forall₂ (fun place b => locate place = some b) qs cs := by
    refine h.located.imp fun place b hb => ?_
    cases place with
    | nil => cases hb
    | cons i place => exact (hbelow i place).trans hb
  refine ⟨List.pairwise_append.mpr ⟨?_, h.ascending, ?_⟩, ?_, List.rel_append ?_ hlocated⟩
  · cases locate [] <;> simp
  · intro p hp q hq
    obtain ⟨-, -, rfl⟩ := List.mem_map.mp hp
    obtain ⟨i, place, rfl⟩ := hinside q hq
    exact List.nil_lt_cons ..
  · intro place b hb
    refine List.mem_append.mpr ?_
    cases place with
    | nil => exact Or.inl (by simp [hb])
    | cons i place => exact Or.inr (h.complete _ b ((hbelow i place).symm.trans hb))
  · cases hroot : locate [] with
    | none => exact List.Forall₂.nil
    | some b => exact .cons hroot .nil

/-- Items seen through a function. -/
theorem Enumerates.map {γ : Type} {locate : List Nat → Option β} {places : List (List Nat)}
    {items : List β} (h : Enumerates locate places items) (g : β → γ) :
    Enumerates (fun place => (locate place).map g) places (items.map g) := by
  refine ⟨h.ascending, fun place c hc => ?_, ?_⟩
  · obtain ⟨b, hb, -⟩ := Option.map_eq_some_iff.mp hc
    exact h.complete place b hb
  · exact List.forall₂_map_right_iff.mpr (h.located.imp fun place b hb => by rw [hb]; rfl)

/-! ## Every expression at its own place -/

/-- An expression as a walk passes it. -/
structure Stop where
  /-- Whether it is the last element of an optional chain. -/
  isElement : Bool
  /-- The expression. -/
  expr : Expr

end Node

/-- The visitor that lists what it passes and by which hook. -/
def Visitor.stops : Visitor Node.Stop := ⟨fun e => [⟨false, e⟩], fun e => [⟨true, e⟩]⟩

/-- What a visitor makes of an expression that it passes. -/
def Visitor.at {α : Type} (v : Visitor α) (s : Node.Stop) : List α :=
  if s.isElement then v.element s.expr else v.expression s.expr

namespace Node

variable {α β : Type}

/-- How a walk passes the expression at a place of a node; `isElement` tells whether the node itself
stands directly in an optional chain. -/
def stop? (isElement : Bool) : Node → List Nat → Option Stop
  | n, [] => n.own.head?.map (⟨isElement, ·⟩)
  | n, i :: place => n.children[i]?.bind fun c => c.stop? n.isChain place

theorem hook_stops (isElement : Bool) (n : Node) :
    n.hook .stops isElement = (n.stop? isElement []).toList := by
  cases n with
  | expr e => cases isElement <;> rfl
  | _ => rfl

/-- The walk over a node passes every expression in it at its own place, in the order of places. -/
theorem enumerates_stops (isElement : Bool) (n : Node) :
    ∃ places, Enumerates (n.stop? isElement) places (n.visit .stops isElement) := by
  obtain ⟨qs, hqs⟩ := Enumerates.row fun c hc =>
    -- a child is smaller than its node
    have := sizeOf_lt_of_mem_children hc
    enumerates_stops n.isChain c
  rw [visit, visitParts_eq, hook_stops]
  refine ⟨_, hqs.front fun i place => ?_⟩
  rw [stop?, inRow, List.getElem?_map, Option.bind_map]
  rfl
termination_by sizeOf n

/-- What any visitor makes of a node is what it makes of the expressions in it, one after the
other. -/
theorem visit_eq_flatMap (v : Visitor α) (isElement : Bool) (n : Node) :
    n.visit v isElement = (n.visit .stops isElement).flatMap v.at := by
  have hself : n.hook v isElement = (n.hook .stops isElement).flatMap v.at := by
    cases n with
    | expr e => cases isElement <;> simp [hook, Visitor.stops, Visitor.at]
    | _ => rfl
  rw [visit, visit, visitParts_eq, visitParts_eq, List.flatMap_append, List.flatMap_assoc, hself]
  refine congrArg _ (List.flatMap_congr fun c hc => ?_)
  have := sizeOf_lt_of_mem_children hc
  exact visit_eq_flatMap v n.isChain c
termination_by sizeOf n

/-- An expression is passed where it stands, as an element exactly if it stands directly in an
optional chain. -/
theorem stop?_eq_some_iff {n : Node} {isElement : Bool} {place : List Nat} {s : Stop} :
    n.stop? isElement place = some s ↔ n.at? place = some (expr s.expr) ∧
      s.isElement = if place = [] then isElement else (n.at? place.dropLast).any isChain := by
  induction place generalizing n isElement with
  | nil =>
    obtain ⟨b, e⟩ := s
    cases n <;> simp [stop?, at?, own, eq_comm, and_comm]
  | cons i place ih =>
    cases hc : n.children[i]? with
    | none => simp [stop?, at?, hc]
    | some c =>
      have hstop : n.stop? isElement (i :: place) = c.stop? n.isChain place := by
        simp [stop?, hc]
      have hat : n.at? (i :: place) = c.at? place := by
        simp [at?, hc]
      rw [hstop, hat, ih, if_neg (List.cons_ne_nil i place)]
      cases place with
      | nil => simp [at?]
      | cons j place => simp [at?, hc]

/-- The expression at a place. -/
def expr? (n : Node) (place : List Nat) : Option Expr := (n.at? place).bind fun c => c.own.head?

theorem expr?_eq_some_iff {n : Node} {place : List Nat} {e : Expr} :
    n.expr? place = some e ↔ n.at? place = some (expr e) := by
  rw [expr?, Option.bind_eq_some_iff]
  constructor
  · rintro ⟨c, hc, he⟩
    cases c with
    | expr e' =>
      obtain rfl : e' = e := Option.some.inj he
      exact hc
    | _ => cases he
  · exact fun h => ⟨_, h, rfl⟩

theorem expr?_eq_map_stop? (n : Node) (isElement : Bool) (place : List Nat) :
    n.expr? place = (n.stop? isElement place).map (·.expr) := by
  refine Option.ext fun e => ?_
  rw [expr?_eq_some_iff, Option.map_eq_some_iff]
  constructor
  · intro h
    exact ⟨⟨_, e⟩, stop?_eq_some_iff.mpr ⟨h, rfl⟩, rfl⟩
  · rintro ⟨s, hs, rfl⟩
    exact (stop?_eq_some_iff.mp hs).1

theorem walk_eq_map_stops (isElement : Bool) (n : Node) :
    n.walk = (n.visit .stops isElement).map (·.expr) := by
  rw [← visit_collect isElement, visit_eq_flatMap, List.map_eq_flatMap]
  refine List.flatMap_congr fun s _ => ?_
  obtain ⟨b, e⟩ := s
  cases b <;> rfl

/-- The walk over a node passes every expression in it at its own place, in the order of places. -/
theorem enumerates (n : Node) : ∃ places, Enumerates n.expr? places n.walk := by
  obtain ⟨places, h⟩ := n.enumerates_stops false
  rw [funext (n.expr?_eq_map_stop? false), n.walk_eq_map_stops false]
  exact ⟨places, h.map _⟩

/-! ## Findings at places -/

/-- What a function finds in the items that can be located, in the order of places. -/
structure Finds (locate : List Nat → Option β) (f : β → Option α) (places : List (List Nat))
    (found : List α) : Prop where
  /-- The places ascend. -/
  ascending : places.Pairwise (· < ·)
  /-- Nothing that there is to find is missing. -/
  complete : ∀ place b a, locate place = some b → f b = some a → place ∈ places
  /-- The findings are about the items at the places. -/
  located : List.Forall₂ (fun place a => ∃ b, locate place = some b ∧ f b = some a) places found

/-- Something is found exactly at the places. -/
theorem Finds.mem_iff {locate : List Nat → Option β} {f : β → Option α}
    {places : List (List Nat)} {found : List α} (h : Finds locate f places found)
    {place : List Nat} : place ∈ places ↔ ∃ b a, locate place = some b ∧ f b = some a := by
  constructor
  · intro hplace
    obtain ⟨a, b, hb, ha⟩ := exists_of_mem_of_forall₂ h.located hplace
    exact ⟨b, a, hb, ha⟩
  · rintro ⟨b, a, hb, ha⟩
    exact h.complete place b a hb ha

/-- The places where a function finds something, among places where items stand. -/
theorem exists_kept {locate : List Nat → Option β} {places : List (List Nat)} {items : List β}
    (h : List.Forall₂ (fun place b => locate place = some b) places items) (f : β → Option α) :
    ∃ kept : List (List Nat), kept.Sublist places ∧
      (∀ place ∈ places, ∀ b a, locate place = some b → f b = some a → place ∈ kept) ∧
      List.Forall₂ (fun place a => ∃ b, locate place = some b ∧ f b = some a) kept
        (items.filterMap f) := by
  induction h with
  | nil => exact ⟨[], List.Sublist.refl _, nofun, List.Forall₂.nil⟩
  | @cons place b places items hb _ ih =>
    obtain ⟨kept, hsub, hcomplete, hlocated⟩ := ih
    cases hf : f b with
    | none =>
      refine ⟨kept, hsub.cons place, fun place' hp b' a hb' hf' => ?_, by simpa [hf] using hlocated⟩
      rcases List.mem_cons.mp hp with rfl | hp
      · -- one item stands at a place, so nothing is found there
        obtain rfl : b = b' := Option.some.inj (hb.symm.trans hb')
        rw [hf] at hf'
        cases hf'
      · exact hcomplete place' hp b' a hb' hf'
    | some a =>
      refine ⟨place :: kept, hsub.cons_cons place, fun place' hp b' a' hb' hf' => ?_, ?_⟩
      · rcases List.mem_cons.mp hp with rfl | hp
        · exact List.mem_cons_self
        · exact List.mem_cons_of_mem _ (hcomplete place' hp b' a' hb' hf')
      · rw [List.filterMap_cons_some hf]
        exact .cons ⟨b, hb, hf⟩ hlocated

/-- Looking at the items of a list one after the other finds everything in its place. -/
theorem Enumerates.filterMap {locate : List Nat → Option β} {places : List (List Nat)}
    {items : List β} (h : Enumerates locate places items) (f : β → Option α) :
    ∃ kept, Finds locate f kept (items.filterMap f) := by
  obtain ⟨kept, hsub, hcomplete, hlocated⟩ := exists_kept h.located f
  exact ⟨kept, h.ascending.sublist hsub,
    fun place b a hb hf => hcomplete place (h.complete place b hb) b a hb hf, hlocated⟩

/-- A place before which another one stands is no way to it. -/
theorem not_isPrefix_of_lt {p q : List Nat} (h : p < q) : ¬ q <+: p := by
  induction p generalizing q with
  | nil =>
    intro hq
    rw [List.prefix_nil.mp hq] at h
    exact List.lt_irrefl _ h
  | cons i p ih =>
    cases q with
    | nil => exact absurd h (List.not_lt_nil _)
    | cons j q =>
      intro hprefix
      obtain ⟨rfl, htail⟩ := List.cons_prefix_cons.mp hprefix
      rcases List.cons_lt_cons_iff.mp h with hij | ⟨-, hpq⟩
      · exact absurd hij (Nat.lt_irrefl _)
      · exact ih hpq htail

/-- What is found in a node comes before what is found inside it. -/
theorem Finds.outer_first {locate : List Nat → Option β} {f : β → Option α}
    {places : List (List Nat)} {found : List α} (h : Finds locate f places found) :
    places.Pairwise fun earlier later => ¬ later <+: earlier :=
  h.ascending.imp not_isPrefix_of_lt

end Node

/-- The node at a place of a program. -/
def Program.at? (p : Program) (place : List Nat) : Option Node := (Node.program p).at? place

/-- Whether what stands at a place of a program stands directly in an optional chain. -/
def Program.isElement (p : Program) (place : List Nat) : Bool :=
  (p.at? place.dropLast).any Node.isChain

/-- How a walk passes the expression at a place of a program. -/
def Program.stop? (p : Program) : List Nat → Option Node.Stop := (Node.program p).stop? false

theorem Program.stop?_eq_some_iff {p : Program} {place : List Nat} {s : Node.Stop} :
    p.stop? place = some s ↔
      p.at? place = some (.expr s.expr) ∧ s.isElement = p.isElement place := by
  rw [stop?, Node.stop?_eq_some_iff]
  refine and_congr_right fun hat => ?_
  rw [if_neg]
  · rfl
  · rintro rfl
    cases hat

/-- A walk calls one hook at every expression of a program, in the order of places. -/
theorem Program.visit_eq (p : Program) : ∃ places stops, Node.Enumerates p.stop? places stops ∧
    ∀ {α : Type} (v : Visitor α), p.visit v = stops.flatMap v.at := by
  obtain ⟨places, h⟩ := (Node.program p).enumerates_stops false
  exact ⟨places, _, h, fun v => (Node.program p).visit_eq_flatMap v false⟩

/-- A visitor with the same function at both hooks applies it to the expressions of a program one
after the other. -/
theorem Program.visit_filterMap {α : Type} (p : Program) (f : Expr → Option α) :
    p.visit ⟨fun e => (f e).toList, fun e => (f e).toList⟩ = p.expressions.filterMap f := by
  have hvisit := (Node.program p).visit_eq_flatMap
    ⟨fun e => (f e).toList, fun e => (f e).toList⟩ false
  have hwalk := (Node.program p).walk_eq_map_stops false
  rw [Node.walk_program] at hwalk
  rw [List.filterMap_eq_flatMap_toList, hwalk, List.flatMap_map]
  refine hvisit.trans (List.flatMap_congr fun s _ => ?_)
  exact ite_self _

theorem Node.at?_append (n : Node) (p q : List Nat) :
    n.at? (p ++ q) = (n.at? p).bind fun c => c.at? q := by
  induction p generalizing n with
  | nil => rfl
  | cons i p ih =>
    rw [List.cons_append, Node.at?, Node.at?]
    cases n.children[i]? with
    | none => rfl
    | some c => exact ih c

theorem Program.at?_append {p : Program} {place : List Nat} {n : Node}
    (h : p.at? place = some n) (way : List Nat) : p.at? (place ++ way) = n.at? way := by
  unfold Program.at? at h ⊢
  rw [Node.at?_append, h]
  rfl

end ComponentLint.Script
