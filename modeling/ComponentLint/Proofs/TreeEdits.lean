import ComponentLint.Proofs.Places
import Mathlib.Algebra.BigOperators.Group.List.Basic
import Mathlib.Algebra.Order.BigOperators.Group.List
import Mathlib.Algebra.Order.Group.Nat
import Mathlib.Algebra.Order.Ring.Nat

/-!
# Edits of a tree

An edit says for every place what becomes of the expression there. The tree is edited from the
inside: what an edit sees at a place is the expression with everything inside it edited
(`Node.children_rebuild`). Edits that nowhere add expressions of a kind do not add them to the tree,
and take some away if they do so anywhere (`Node.count_edit_le`, `Node.count_edit_lt`).
-/

namespace ComponentLint.Script

/-- What becomes of the expression at a place. -/
abbrev Edit := List Nat → Expr → Expr

/-- The edit inside a child. -/
def Edit.below (f : Edit) (i : Nat) : Edit := fun place => f (i :: place)

/-- The edit inside the node at a place. -/
def Edit.under (f : Edit) (place : List Nat) : Edit := fun way => f (place ++ way)

mutual

/-- An expression with everything inside it edited. -/
def Expr.rebuild (f : Edit) : Expr → Expr
  | .name s t => .name s t
  | .number s v => .number s v
  | .string s v => .string s v
  | .template s holes => .template s (editExprs f 0 holes)
  | .boolean s => .boolean s
  | .atom s => .atom s
  | .array s es => .array s (editExprs f 0 es)
  | .object s ps => .object s (rebuildProperties f 0 ps)
  | .function s fn => .function s (fn.rebuild (f.below 0))
  | .classLike s b members => .classLike s b (rebuildStmts f 0 members)
  | .paren s e => .paren s (f [0] (e.rebuild (f.below 0)))
  | .negation s e => .negation s (f [0] (e.rebuild (f.below 0)))
  | .binary s l r =>
    .binary s (f [0] (l.rebuild (f.below 0))) (f [1] (r.rebuild (f.below 1)))
  | .logical s c l r =>
    .logical s c (f [0] (l.rebuild (f.below 0))) (f [1] (r.rebuild (f.below 1)))
  | .call s callee types args o =>
    .call s (f [0] (callee.rebuild (f.below 0))) (editExprs f 1 types)
      (editExprs f (1 + types.length) args) o
  | .construct s callee types args =>
    .construct s (f [0] (callee.rebuild (f.below 0))) (editExprs f 1 types)
      (editExprs f (1 + types.length) args)
  | .member s e p o => .member s (f [0] (e.rebuild (f.below 0))) p o
  | .hidden s e o => .hidden s (f [0] (e.rebuild (f.below 0))) o
  | .index s e k o =>
    .index s (f [0] (e.rebuild (f.below 0))) (f [1] (k.rebuild (f.below 1))) o
  | .chain s e => .chain s (f [0] (e.rebuild (f.below 0)))
  | .cast s e t parts => .cast s (f [0] (e.rebuild (f.below 0))) t (editExprs f 1 parts)
  | .satisfies s e parts => .satisfies s (f [0] (e.rebuild (f.below 0))) (editExprs f 1 parts)
  | .asserted s e parts =>
    .asserted s (f [parts.length] (e.rebuild (f.below parts.length))) (editExprs f 0 parts)
  | .assign s t v => .assign s (t.rebuild (f.below 0)) (f [1] (v.rebuild (f.below 1)))
  | .update s t v => .update s (t.rebuild (f.below 0)) (editOption f 1 v)
  | .spread s e => .spread s (f [0] (e.rebuild (f.below 0)))
  | .compound s parts => .compound s (editExprs f 0 parts)

/-- What is written to with everything inside it edited. -/
def Target.rebuild (f : Edit) : Target → Target
  | .name s text => .name s text
  | .member s e p => .member s (f [0] (e.rebuild (f.below 0))) p
  | .hidden s e => .hidden s (f [0] (e.rebuild (f.below 0)))
  | .index s e k => .index s (f [0] (e.rebuild (f.below 0))) (f [1] (k.rebuild (f.below 1)))
  | .asserted s parts => .asserted s (editExprs f 0 parts)
  | .pattern s parts => .pattern s (editParts f 0 parts)

/-- A property with everything inside it edited. -/
def Property.rebuild (f : Edit) : Property → Property
  | .named s n v => .named s n (f [0] (v.rebuild (f.below 0)))
  | .quoted s t v => .quoted s t (f [0] (v.rebuild (f.below 0)))
  | .keyed k v =>
    .keyed (editOption f 0 k) (f [k.toList.length] (v.rebuild (f.below k.toList.length)))
  | .spread e => .spread (f [0] (e.rebuild (f.below 0)))

/-- A declarator or parameter with everything inside it edited. -/
def Binding.rebuild (f : Edit) : Binding → Binding
  | .mk s p parts v => .mk s p (editExprs f 0 parts) (editOption f parts.length v)

/-- A function with everything inside it edited. -/
def Function.rebuild (f : Edit) : Function → Function
  | .mk b gs generics params result body s =>
    .mk b gs (editExprs f 0 generics) (rebuildBindings f generics.length params)
      (editExprs f (generics.length + params.length) result)
      (rebuildStmts f (generics.length + params.length + result.length) body) s

/-- A statement with everything inside it edited. -/
def Stmt.rebuild (f : Edit) : Stmt → Stmt
  | .expression s e => .expression s (f [0] (e.rebuild (f.below 0)))
  | .target t => .target (t.rebuild (f.below 0))
  | .variables s r bs => .variables s r (rebuildBindings f 0 bs)
  | .function s fn => .function s (fn.rebuild (f.below 0))
  | .block s c body => .block s c (rebuildStmts f 0 body)
  | .declaration s bs v body => .declaration s bs v (rebuildStmts f 0 body)
  | .space s n i body => .space s n i (rebuildStmts f 0 body)
  | .alias s b => .alias s b
  | .importFrom s src items => .importFrom s src items
  | .exportDeclaration s d => .exportDeclaration s (d.rebuild (f.below 0))
  | .exportList s items e => .exportList s items e
  | .exportDefault s d => .exportDefault s (d.rebuild (f.below 0))
  | .compound s parts => .compound s (rebuildStmts f 0 parts)

/-- Expressions, the first of which is the child with the given number, edited. -/
def editExprs (f : Edit) : Nat → List Expr → List Expr
  | _, [] => []
  | i, e :: es => f [i] (e.rebuild (f.below i)) :: editExprs f (i + 1) es

/-- An optional child with the given number, edited. -/
def editOption (f : Edit) (i : Nat) : Option Expr → Option Expr
  | none => none
  | some e => some (f [i] (e.rebuild (f.below i)))

/-- A part of a pattern that is the child with the given number, edited. -/
def PatternPart.edit (f : Edit) (i : Nat) : PatternPart → PatternPart
  | .target t => .target (t.rebuild (f.below i))
  | .value e => .value (f [i] (e.rebuild (f.below i)))

/-- Parts of a pattern, the first of which is the child with the given number. -/
def editParts (f : Edit) : Nat → List PatternPart → List PatternPart
  | _, [] => []
  | i, p :: ps => p.edit f i :: editParts f (i + 1) ps

/-- Properties, the first of which is the child with the given number. -/
def rebuildProperties (f : Edit) : Nat → List Property → List Property
  | _, [] => []
  | i, p :: ps => p.rebuild (f.below i) :: rebuildProperties f (i + 1) ps

/-- Declarators or parameters, the first of which is the child with the given number. -/
def rebuildBindings (f : Edit) : Nat → List Binding → List Binding
  | _, [] => []
  | i, b :: bs => b.rebuild (f.below i) :: rebuildBindings f (i + 1) bs

/-- Statements, the first of which is the child with the given number. -/
def rebuildStmts (f : Edit) : Nat → List Stmt → List Stmt
  | _, [] => []
  | i, s :: ss => s.rebuild (f.below i) :: rebuildStmts f (i + 1) ss

end

/-- An expression, edited. -/
def Expr.edit (f : Edit) (e : Expr) : Expr := f [] (e.rebuild f)

/-- A program with all expressions in it edited. -/
def Program.edit (f : Edit) (p : Program) : Program := { p with body := rebuildStmts f 0 p.body }

/-! ## Edits that change nothing -/

/-- An edit that leaves every expression as it is. -/
def Edit.Idle (f : Edit) : Prop := ∀ place e, f place e = e

theorem Edit.Idle.below {f : Edit} (h : f.Idle) (i : Nat) : (f.below i).Idle :=
  fun place => h (i :: place)

mutual

theorem Expr.rebuild_of_idle {f : Edit} (h : f.Idle) (e : Expr) : e.rebuild f = e := by
  match e with
  | .name .. | .number .. | .string .. | .boolean .. | .atom .. => rfl
  | .template s es | .array s es | .compound s es =>
    rw [Expr.rebuild, editExprs_of_idle h 0 es]
  | .object s ps => rw [Expr.rebuild, rebuildProperties_of_idle h 0 ps]
  | .function s fn => rw [Expr.rebuild, Function.rebuild_of_idle (h.below 0) fn]
  | .classLike s b members => rw [Expr.rebuild, rebuildStmts_of_idle h 0 members]
  | .paren s e | .negation s e | .member s e _ _ | .hidden s e _ | .chain s e | .spread s e =>
    rw [Expr.rebuild, Expr.rebuild_of_idle (h.below 0) e, h]
  | .binary s l r | .logical s _ l r | .index s l r _ =>
    rw [Expr.rebuild, Expr.rebuild_of_idle (h.below 0) l, Expr.rebuild_of_idle (h.below 1) r, h, h]
  | .call s callee types args _ | .construct s callee types args =>
    rw [Expr.rebuild, Expr.rebuild_of_idle (h.below 0) callee, h, editExprs_of_idle h 1 types,
      editExprs_of_idle h _ args]
  | .cast s e _ parts | .satisfies s e parts =>
    rw [Expr.rebuild, Expr.rebuild_of_idle (h.below 0) e, h, editExprs_of_idle h 1 parts]
  | .asserted s e parts =>
    rw [Expr.rebuild, Expr.rebuild_of_idle (h.below _) e, h, editExprs_of_idle h 0 parts]
  | .assign s t v =>
    rw [Expr.rebuild, Target.rebuild_of_idle (h.below 0) t, Expr.rebuild_of_idle (h.below 1) v, h]
  | .update s t v =>
    rw [Expr.rebuild, Target.rebuild_of_idle (h.below 0) t, editOption_of_idle h 1 v]

theorem Target.rebuild_of_idle {f : Edit} (h : f.Idle) (t : Target) : t.rebuild f = t := by
  match t with
  | .name .. => rfl
  | .member s e _ | .hidden s e =>
    rw [Target.rebuild, Expr.rebuild_of_idle (h.below 0) e, h]
  | .index s e k =>
    rw [Target.rebuild, Expr.rebuild_of_idle (h.below 0) e, Expr.rebuild_of_idle (h.below 1) k, h, h]
  | .asserted s parts => rw [Target.rebuild, editExprs_of_idle h 0 parts]
  | .pattern s parts => rw [Target.rebuild, editParts_of_idle h 0 parts]

theorem Property.rebuild_of_idle {f : Edit} (h : f.Idle) (p : Property) : p.rebuild f = p := by
  match p with
  | .named _ _ v | .quoted _ _ v | .spread v =>
    rw [Property.rebuild, Expr.rebuild_of_idle (h.below 0) v, h]
  | .keyed k v =>
    rw [Property.rebuild, Expr.rebuild_of_idle (h.below _) v, h, editOption_of_idle h 0 k]

theorem Binding.rebuild_of_idle {f : Edit} (h : f.Idle) (b : Binding) : b.rebuild f = b := by
  match b with
  | .mk s p parts v =>
    rw [Binding.rebuild, editExprs_of_idle h 0 parts, editOption_of_idle h _ v]

theorem Function.rebuild_of_idle {f : Edit} (h : f.Idle) (fn : Function) : fn.rebuild f = fn := by
  match fn with
  | .mk b gs generics params result body s =>
    rw [Function.rebuild, editExprs_of_idle h 0 generics, rebuildBindings_of_idle h _ params,
      editExprs_of_idle h _ result, rebuildStmts_of_idle h _ body]

theorem Stmt.rebuild_of_idle {f : Edit} (h : f.Idle) (s : Stmt) : s.rebuild f = s := by
  match s with
  | .expression s e => rw [Stmt.rebuild, Expr.rebuild_of_idle (h.below 0) e, h]
  | .target t => rw [Stmt.rebuild, Target.rebuild_of_idle (h.below 0) t]
  | .variables s r bs => rw [Stmt.rebuild, rebuildBindings_of_idle h 0 bs]
  | .function s fn => rw [Stmt.rebuild, Function.rebuild_of_idle (h.below 0) fn]
  | .block s _ body | .declaration s _ _ body | .space s _ _ body | .compound s body =>
    rw [Stmt.rebuild, rebuildStmts_of_idle h 0 body]
  | .alias .. | .importFrom .. | .exportList .. => rfl
  | .exportDeclaration s d | .exportDefault s d =>
    rw [Stmt.rebuild, Stmt.rebuild_of_idle (h.below 0) d]

theorem editExprs_of_idle {f : Edit} (h : f.Idle) (i : Nat) (es : List Expr) :
    editExprs f i es = es := by
  match es with
  | [] => rfl
  | e :: es =>
    rw [editExprs, Expr.rebuild_of_idle (h.below i) e, h, editExprs_of_idle h (i + 1) es]

theorem editOption_of_idle {f : Edit} (h : f.Idle) (i : Nat) (e : Option Expr) :
    editOption f i e = e := by
  match e with
  | none => rfl
  | some e => rw [editOption, Expr.rebuild_of_idle (h.below i) e, h]

theorem PatternPart.edit_of_idle {f : Edit} (h : f.Idle) (i : Nat) (p : PatternPart) :
    p.edit f i = p := by
  match p with
  | .target t => rw [PatternPart.edit, Target.rebuild_of_idle (h.below i) t]
  | .value e => rw [PatternPart.edit, Expr.rebuild_of_idle (h.below i) e, h]

theorem editParts_of_idle {f : Edit} (h : f.Idle) (i : Nat) (ps : List PatternPart) :
    editParts f i ps = ps := by
  match ps with
  | [] => rfl
  | p :: ps => rw [editParts, PatternPart.edit_of_idle h i p, editParts_of_idle h (i + 1) ps]

theorem rebuildProperties_of_idle {f : Edit} (h : f.Idle) (i : Nat) (ps : List Property) :
    rebuildProperties f i ps = ps := by
  match ps with
  | [] => rfl
  | p :: ps =>
    rw [rebuildProperties, Property.rebuild_of_idle (h.below i) p,
      rebuildProperties_of_idle h (i + 1) ps]

theorem rebuildBindings_of_idle {f : Edit} (h : f.Idle) (i : Nat) (bs : List Binding) :
    rebuildBindings f i bs = bs := by
  match bs with
  | [] => rfl
  | b :: bs =>
    rw [rebuildBindings, Binding.rebuild_of_idle (h.below i) b,
      rebuildBindings_of_idle h (i + 1) bs]

theorem rebuildStmts_of_idle {f : Edit} (h : f.Idle) (i : Nat) (ss : List Stmt) :
    rebuildStmts f i ss = ss := by
  match ss with
  | [] => rfl
  | s :: ss =>
    rw [rebuildStmts, Stmt.rebuild_of_idle (h.below i) s, rebuildStmts_of_idle h (i + 1) ss]

end

namespace Node

/-- A node with everything inside it edited. -/
def rebuild (f : Edit) : Node → Node
  | expr e => expr (e.rebuild f)
  | target t => target (t.rebuild f)
  | property p => property (p.rebuild f)
  | binding b => binding (b.rebuild f)
  | function fn => function (fn.rebuild f)
  | stmt s => stmt (s.rebuild f)
  | program p => program (p.edit f)

/-- A node, edited. -/
def edit (f : Edit) : Node → Node
  | expr e => expr (e.edit f)
  | n => n.rebuild f

/-! ## Children of an edited node -/

/-- Nodes, the first of which is the child with the given number, edited. -/
def editFrom (f : Edit) (i : Nat) (ns : List Node) : List Node :=
  ns.mapIdx fun j c => c.edit (f.below (i + j))

theorem editFrom_cons (f : Edit) (i : Nat) (n : Node) (ns : List Node) :
    editFrom f i (n :: ns) = n.edit (f.below i) :: editFrom f (i + 1) ns := by
  unfold editFrom
  rw [List.mapIdx_cons]
  refine congrArg₂ List.cons rfl (congrArg (List.mapIdx · ns) ?_)
  funext j c
  rw [Nat.add_right_comm, Nat.add_assoc]

theorem editFrom_append (f : Edit) (i : Nat) (ms ns : List Node) :
    editFrom f i (ms ++ ns) = editFrom f i ms ++ editFrom f (i + ms.length) ns := by
  induction ms generalizing i with
  | nil => rfl
  | cons m ms ih =>
    rw [List.cons_append, editFrom_cons, editFrom_cons, ih, List.length_cons,
      Nat.add_right_comm i, Nat.add_assoc, List.cons_append]

/-- A recursion that edits the members of a list one after the other edits the nodes they are. -/
theorem map_eq_editFrom {α : Type} {f : Edit} {node : α → Node} {g : Nat → List α → List α}
    (hnil : ∀ i, g i [] = [])
    (hcons : ∀ i a as, ∃ b, g i (a :: as) = b :: g (i + 1) as ∧ node b = (node a).edit (f.below i))
    (i : Nat) (as : List α) : (g i as).map node = editFrom f i (as.map node) := by
  induction as generalizing i with
  | nil =>
    rw [hnil]
    rfl
  | cons a as ih =>
    obtain ⟨b, hg, hb⟩ := hcons i a as
    rw [hg, List.map_cons, List.map_cons, editFrom_cons, hb, ih]

theorem exprs_editExprs (f : Edit) (i : Nat) (es : List Expr) :
    exprs (editExprs f i es) = editFrom f i (exprs es) :=
  map_eq_editFrom (fun _ => rfl) (fun _ _ _ => ⟨_, rfl, rfl⟩) i es

theorem exprs_editOption (f : Edit) (i : Nat) (e : Option Expr) :
    exprs (editOption f i e).toList = editFrom f i (exprs e.toList) := by
  cases e with
  | none => rfl
  | some e => rfl

theorem map_editParts (f : Edit) (i : Nat) (ps : List PatternPart) :
    (editParts f i ps).map ofPart = editFrom f i (ps.map ofPart) := by
  refine map_eq_editFrom (fun _ => rfl) (fun i p ps => ⟨p.edit f i, rfl, ?_⟩) i ps
  cases p with
  | target t => rfl
  | value e => rfl

theorem map_rebuildProperties (f : Edit) (i : Nat) (ps : List Property) :
    (rebuildProperties f i ps).map property = editFrom f i (ps.map property) :=
  map_eq_editFrom (fun _ => rfl) (fun _ _ _ => ⟨_, rfl, rfl⟩) i ps

theorem map_rebuildBindings (f : Edit) (i : Nat) (bs : List Binding) :
    (rebuildBindings f i bs).map binding = editFrom f i (bs.map binding) :=
  map_eq_editFrom (fun _ => rfl) (fun _ _ _ => ⟨_, rfl, rfl⟩) i bs

theorem stmts_rebuildStmts (f : Edit) (i : Nat) (ss : List Stmt) :
    stmts (rebuildStmts f i ss) = editFrom f i (stmts ss) :=
  map_eq_editFrom (fun _ => rfl) (fun _ _ _ => ⟨_, rfl, rfl⟩) i ss

theorem length_exprs (es : List Expr) : (exprs es).length = es.length := List.length_map _

/-- The children of a rebuilt node are its children, each edited at its own number. -/
theorem children_rebuild (f : Edit) (n : Node) :
    (n.rebuild f).children = editFrom f 0 n.children := by
  cases n with
  | expr e =>
    cases e with
    | name | number | string | boolean | atom => rfl
    | template | array | compound => exact exprs_editExprs f 0 _
    | object => exact map_rebuildProperties f 0 _
    | classLike => exact stmts_rebuildStmts f 0 _
    | function | paren | negation | member | hidden | chain | spread | binary | logical | index
    | assign =>
      rfl
    | call | construct =>
      simp only [rebuild, Expr.rebuild, children, exprs_editExprs, editFrom_cons, editFrom_append,
        length_exprs, Nat.zero_add]
      rfl
    | cast | satisfies =>
      simp only [rebuild, Expr.rebuild, children, exprs_editExprs, editFrom_cons, Nat.zero_add]
      rfl
    | asserted =>
      simp only [rebuild, Expr.rebuild, children, exprs_editExprs, editFrom_append, length_exprs,
        Nat.zero_add]
      rfl
    | update =>
      simp only [rebuild, Expr.rebuild, children, exprs_editOption, editFrom_cons, Nat.zero_add]
      rfl
  | target t =>
    cases t with
    | name | member | hidden | index => rfl
    | asserted => exact exprs_editExprs f 0 _
    | pattern => exact map_editParts f 0 _
  | property p =>
    cases p with
    | named | quoted | spread => rfl
    | keyed =>
      simp only [rebuild, Property.rebuild, children, exprs_editOption, editFrom_append,
        length_exprs, Nat.zero_add]
      rfl
  | binding b =>
    cases b with
    | mk =>
      simp only [rebuild, Binding.rebuild, children, exprs_editExprs, exprs_editOption,
        editFrom_append, length_exprs, Nat.zero_add]
  | function fn =>
    cases fn with
    | mk =>
      simp only [rebuild, Function.rebuild, children, exprs_editExprs, map_rebuildBindings,
        stmts_rebuildStmts, editFrom_append, List.length_append, length_exprs, List.length_map,
        Nat.zero_add]
  | stmt s =>
    cases s with
    | «variables» => exact map_rebuildBindings f 0 _
    | block | declaration | space | compound => exact stmts_rebuildStmts f 0 _
    | expression | target | function | «alias» | importFrom => rfl
    | exportDeclaration | exportList | exportDefault => rfl
  | program p => exact stmts_rebuildStmts f 0 _

/-! ## What stands at a place -/

theorem edit_of_idle {f : Edit} (h : f.Idle) (n : Node) : n.edit f = n := by
  cases n with
  | expr e => exact congrArg expr ((h [] _).trans (e.rebuild_of_idle h))
  | target t => exact congrArg target (t.rebuild_of_idle h)
  | property p => exact congrArg property (p.rebuild_of_idle h)
  | binding b => exact congrArg binding (b.rebuild_of_idle h)
  | function fn => exact congrArg function (fn.rebuild_of_idle h)
  | stmt s => exact congrArg stmt (s.rebuild_of_idle h)
  | program p =>
    refine congrArg program ?_
    unfold Program.edit
    rw [rebuildStmts_of_idle h]

theorem getElem?_editFrom (f : Edit) (ns : List Node) (i : Nat) :
    (editFrom f 0 ns)[i]? = ns[i]?.map fun c => c.edit (f.below i) := by
  unfold editFrom
  rw [List.getElem?_mapIdx]
  simp only [Nat.zero_add]

/-- If nothing happens on the way to a place, the node there is edited in its place. -/
theorem at?_edit {f : Edit} {place : List Nat}
    (h : ∀ q, q <+: place → q ≠ place → ∀ e, f q e = e) (n : Node) :
    (n.edit f).at? place = (n.at? place).map fun c => c.edit (f.under place) := by
  induction place generalizing n f with
  | nil => rfl
  | cons i place ih =>
    have htop : n.edit f = n.rebuild f := by
      cases n with
      | expr e => exact congrArg expr (h [] List.nil_prefix nofun _)
      | target | property | binding | function | stmt | program => rfl
    have hbelow : ∀ q, q <+: place → q ≠ place → ∀ e, f.below i q e = e := by
      intro q hq hne
      refine h (i :: q) (List.cons_prefix_cons.mpr ⟨rfl, hq⟩) fun heq => hne ?_
      exact (List.cons.inj heq).2
    rw [htop, at?, at?, children_rebuild, getElem?_editFrom]
    cases n.children[i]? with
    | none => rfl
    | some c => exact ih hbelow c

/-! ## Counting expressions -/

section Counting

variable {P : Expr → Bool}

/-- How many expressions of a kind there are in a node. -/
def count (P : Expr → Bool) (n : Node) : Nat := n.walk.countP P

/-- The expressions of a kind are the node itself, perhaps, and those in its numbered children. -/
theorem count_eq (n : Node) :
    n.count P =
      n.own.countP P + (n.children.zipIdx.map fun entry => entry.1.count P).sum := by
  have hchildren : n.children.map (count P) =
      n.children.zipIdx.map fun entry => entry.1.count P := by
    conv_lhs => rw [← List.zipIdx_map_fst 0 n.children, List.map_map]
    rfl
  unfold count at hchildren ⊢
  rw [walk_eq, List.countP_append, List.countP_flatMap, ← hchildren]
  rfl

/-- Rebuilding does not change what kind of expression an expression is. -/
def Stable (P : Expr → Bool) : Prop := ∀ f e, P (e.rebuild f) = P e

/-- An edit that leaves nowhere more expressions of a kind than before. -/
def Spares (P : Expr → Bool) (f : Edit) : Prop :=
  ∀ place e, (expr (f place e)).count P ≤ (expr e).count P

theorem Spares.below {f : Edit} (h : Spares P f) (i : Nat) : Spares P (f.below i) :=
  fun place => h (i :: place)

/-- In a rebuilt node the children are the edited ones. -/
theorem count_rebuild_eq (hP : Stable P) (f : Edit) (n : Node) :
    (n.rebuild f).count P = n.own.countP P +
      (n.children.zipIdx.map fun entry => (entry.1.edit (f.below entry.2)).count P).sum := by
  have hown : (n.rebuild f).own.countP P = n.own.countP P := by
    cases n with
    | expr e => simp only [rebuild, own, List.countP_singleton, hP f e]
    | target | property | binding | function | stmt | program => rfl
  have hchildren : (n.rebuild f).children.map (count P) =
      n.children.zipIdx.map fun entry => (entry.1.edit (f.below entry.2)).count P := by
    rw [children_rebuild, editFrom, List.mapIdx_eq_zipIdx_map, List.map_map]
    simp only [Nat.zero_add]
    rfl
  unfold count at hchildren ⊢
  rw [walk_eq, List.countP_append, List.countP_flatMap, hown, ← hchildren]
  rfl

theorem count_edit_le_rebuild {f : Edit} (hf : Spares P f) (n : Node) :
    (n.edit f).count P ≤ (n.rebuild f).count P := by
  cases n with
  | expr e => exact hf [] (e.rebuild f)
  | target | property | binding | function | stmt | program => exact le_rfl

theorem count_rebuild_le (hP : Stable P) {f : Edit} (hf : Spares P f) (n : Node) :
    (n.rebuild f).count P ≤ n.count P := by
  rw [count_rebuild_eq hP, count_eq n]
  refine Nat.add_le_add_left (List.sum_le_sum fun entry hentry => ?_) _
  have := sizeOf_lt_of_mem_children (List.fst_mem_of_mem_zipIdx hentry)
  exact (count_edit_le_rebuild (hf.below entry.2) entry.1).trans
    (count_rebuild_le hP (hf.below entry.2) entry.1)
termination_by sizeOf n

/-- An edit that adds no expressions of a kind anywhere adds none to a tree. -/
theorem count_edit_le (hP : Stable P) {f : Edit} (hf : Spares P f) (n : Node) :
    (n.edit f).count P ≤ n.count P :=
  (count_edit_le_rebuild hf n).trans (count_rebuild_le hP hf n)

/-- If it takes some away at a place where there is one of the kind, the tree loses some. -/
theorem count_edit_lt (hP : Stable P) {f : Edit} (hf : Spares P f) {n : Node} {place : List Nat}
    {e : Expr} (hplace : n.at? place = some (expr e)) (he : P e = true)
    (hless : ∀ e', P e' = true → (expr (f place e')).count P < (expr e').count P) :
    (n.edit f).count P < n.count P := by
  induction place generalizing n f with
  | nil =>
    obtain rfl : n = expr e := Option.some.inj hplace
    have hkind : P (e.rebuild f) = true := (hP f e).trans he
    exact (hless (e.rebuild f) hkind).trans_le (count_rebuild_le hP hf (expr e))
  | cons i place ih =>
    obtain ⟨c, hc, hbelow⟩ := Option.bind_eq_some_iff.mp hplace
    refine (count_edit_le_rebuild hf n).trans_lt ?_
    rw [count_rebuild_eq hP, count_eq n]
    refine Nat.add_lt_add_left (List.sum_lt_sum _ _ (fun entry _ => ?_) ⟨(c, i), ?_, ?_⟩) _
    · exact count_edit_le hP (hf.below entry.2) entry.1
    · exact List.mk_mem_zipIdx_iff_getElem?.mpr hc
    · exact ih (hf.below i) hbelow hless

end Counting

end Node

end ComponentLint.Script
