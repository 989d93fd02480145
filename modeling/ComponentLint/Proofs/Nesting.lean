import ComponentLint.Proofs.Places

/-!
# Nested spans

A tree comes from a text, and its spans tell from where: what stands inside an expression lies
inside its span, and what stands side by side does not overlap. `Program.WellNested` says so of the
expressions of a program and of the names, keys and imports beside them; a node without a span of
its own stands for what it holds. It is what is relied on of the way in which trees are made.

Of two expressions of such a program one stands inside the other or they lie apart
(`Program.WellNested.pairwise_expressions`), however deep they stand.
-/

namespace ComponentLint

namespace Span

/-- Neither of two spans reaches into the other. -/
def Apart (a b : Span) : Prop := a.stop ≤ b.start ∨ b.stop ≤ a.start

/-- A span lies in another one and is not the same. -/
def StrictlyEncloses (outer inner : Span) : Prop := outer.encloses inner = true ∧ outer ≠ inner

instance (outer inner : Span) : Decidable (StrictlyEncloses outer inner) :=
  inferInstanceAs (Decidable (outer.encloses inner = true ∧ outer ≠ inner))

/-- Spans that take up text and do not overlap. -/
structure Separate (spans : List Span) : Prop where
  /-- No span is empty. -/
  nonempty : ∀ s ∈ spans, s.start < s.stop
  /-- Any two spans lie apart. -/
  apart : spans.Pairwise Apart

theorem encloses_iff {outer inner : Span} :
    outer.encloses inner = true ↔ outer.start ≤ inner.start ∧ inner.stop ≤ outer.stop := by
  simp [encloses]

theorem encloses_refl (s : Span) : s.encloses s = true :=
  encloses_iff.mpr ⟨Nat.le_refl _, Nat.le_refl _⟩

theorem encloses_trans {a b c : Span} (hab : a.encloses b = true) (hbc : b.encloses c = true) :
    a.encloses c = true := by
  rw [encloses_iff] at *
  omega

/-- Of two spans only one can strictly enclose the other. -/
theorem StrictlyEncloses.asymm {a b : Span} (hab : a.StrictlyEncloses b) :
    ¬ b.StrictlyEncloses a := by
  rintro ⟨hba, hne⟩
  obtain ⟨hstart, hstop⟩ := encloses_iff.mp hab.1
  obtain ⟨hstart', hstop'⟩ := encloses_iff.mp hba
  have hstarts : a.start = b.start := Nat.le_antisymm hstart hstart'
  have hstops : a.stop = b.stop := Nat.le_antisymm hstop' hstop
  exact hne (by rw [Span.mk.injEq]; exact ⟨hstarts.symm, hstops.symm⟩)

/-- What lies in two spans that lie apart lies apart. -/
theorem Apart.of_encloses {a b s t : Span} (h : Apart a b) (hs : a.encloses s = true)
    (ht : b.encloses t = true) : Apart s t := by
  rw [encloses_iff] at hs ht
  unfold Apart at *
  omega

/-- A span that is not empty does not lie apart from itself. -/
theorem Apart.ne {a b : Span} (h : Apart a b) (ha : a.start < a.stop) : a ≠ b := by
  rintro rfl
  unfold Apart at h
  omega

theorem Separate.nodup {spans : List Span} (h : Separate spans) : spans.Nodup := by
  refine List.Pairwise.imp_of_mem (fun {a b} ha _ hab => ?_) h.apart
  exact hab.ne (h.nonempty a ha)

theorem Separate.sublist {spans some : List Span} (h : Separate spans) (hs : some.Sublist spans) :
    Separate some :=
  ⟨fun s hmem => h.nonempty s (hs.subset hmem), h.apart.sublist hs⟩

end Span

namespace Script

/-! ## What stands directly inside a node -/

namespace Node

/-- The spans of the names, keys and imports that are part of a node itself. -/
def ownMarks : Node → List Span
  | property (.quoted s _ _) => [s]
  | binding (.mk _ (.single b) _ _) => [b.span]
  | stmt (.importFrom s _ _) => [s]
  | stmt (.exportList _ items _) => (items.filterMap (·.inside.plain?)).map (·.span)
  | _ => []

/-- The spans of the names, keys and imports in a node that do not stand inside an expression. -/
def marks : Node → List Span
  | expr _ => []
  | n => n.ownMarks ++ n.children.attach.flatMap fun c => marks c.1
termination_by n => sizeOf n
decreasing_by exact sizeOf_lt_of_mem_children c.2

/-- The outermost expressions in a node. -/
def tops : Node → List Expr
  | expr e => [e]
  | n => n.children.attach.flatMap fun c => tops c.1
termination_by n => sizeOf n
decreasing_by exact sizeOf_lt_of_mem_children c.2

/-- The spans directly inside a node: of names, keys and imports, and of expressions. -/
def inner (n : Node) : List Span :=
  (n.ownMarks ++ n.children.flatMap marks) ++ (n.children.flatMap tops).map (·.span)

@[simp] theorem marks_expr (e : Expr) : (expr e).marks = [] := by
  rw [marks]

@[simp] theorem tops_expr (e : Expr) : (expr e).tops = [e] := by
  rw [tops]

theorem flatMap_tops_exprs (es : List Expr) : (exprs es).flatMap tops = es := by
  simp [exprs, List.flatMap_map]

theorem marks_eq {n : Node} (hn : ∀ e, n ≠ expr e) :
    n.marks = n.ownMarks ++ n.children.flatMap marks := by
  rw [marks]
  · simp
  · exact hn

theorem tops_eq {n : Node} (hn : ∀ e, n ≠ expr e) : n.tops = n.children.flatMap tops := by
  rw [tops]
  · simp
  · exact hn

/-- The expressions strictly inside a node. -/
def below (n : Node) : List Expr := n.children.flatMap walk

end Node

/-! ## Well-nested programs -/

/-- The spans inside an expression nest as they should. -/
structure Expr.WellNested (e : Expr) : Prop where
  /-- What stands side by side in the expression takes up text and does not overlap. -/
  separate : Span.Separate (Node.expr e).inner
  /-- What stands in the expression lies in its span. -/
  inside : ∀ s ∈ (Node.expr e).inner, e.span.encloses s = true
  /-- An access is longer than its object. -/
  longer : ∀ span object key optional, e = .index span object key optional →
    object.span.stop - object.span.start < span.stop - span.start

/-- The spans of a program nest as they should. -/
structure Program.WellNested (p : Program) : Prop where
  /-- What stands side by side in the program takes up text and does not overlap. -/
  separate : Span.Separate (Node.program p).inner
  /-- So it is inside every expression. -/
  expressions : ∀ e ∈ p.expressions, e.WellNested

/-! ## Expressions at any depth -/

namespace Node

/-- What stands in a child stands in the node. -/
theorem mem_walk_of_child {n c : Node} (hc : c ∈ n.children) {e : Expr} (he : e ∈ c.walk) :
    e ∈ n.walk := by
  rw [walk_eq]
  exact List.mem_append_right _ (List.mem_flatMap.mpr ⟨c, hc, he⟩)

theorem mem_walk_self (e : Expr) : e ∈ (expr e).walk := by
  rw [walk_eq]
  exact List.mem_cons_self

/-- Every expression in a node lies in one of its outermost expressions. -/
theorem exists_top_encloses (n : Node) (h : ∀ e ∈ n.walk, e.WellNested) {e : Expr}
    (he : e ∈ n.walk) : ∃ t ∈ n.tops, t.span.encloses e.span = true := by
  have hchildren : ∀ c ∈ n.children, e ∈ c.walk → ∃ t ∈ c.tops, t.span.encloses e.span = true := by
    intro c hc hec
    have := sizeOf_lt_of_mem_children hc
    exact exists_top_encloses c (fun e' he' => h e' (mem_walk_of_child hc he')) hec
  rw [walk_eq] at he
  rcases List.mem_append.mp he with hown | hbelow
  · cases n with
    | expr e₀ =>
      obtain rfl := List.mem_singleton.mp hown
      exact ⟨e, by simp, Span.encloses_refl _⟩
    | _ => cases hown
  · obtain ⟨c, hc, hec⟩ := List.mem_flatMap.mp hbelow
    obtain ⟨t, ht, hte⟩ := hchildren c hc hec
    have htops : t ∈ n.children.flatMap tops := List.mem_flatMap.mpr ⟨c, hc, ht⟩
    cases n with
    | expr e₀ =>
      have hin : t.span ∈ (expr e₀).inner :=
        List.mem_append_right _ (List.mem_map_of_mem htops)
      exact ⟨e₀, by simp, Span.encloses_trans ((h e₀ (mem_walk_self e₀)).inside _ hin) hte⟩
    | _ => exact ⟨t, by rw [tops_eq (by simp)]; exact htops, hte⟩
termination_by sizeOf n

/-- What stands in an expression of a node stands in the node. -/
theorem walk_subset_of_mem_walk (n : Node) {e : Expr} (he : e ∈ n.walk) : e.walk ⊆ n.walk := by
  intro x hx
  rw [walk_eq] at he
  rcases List.mem_append.mp he with hown | hbelow
  · cases n with
    | expr e₀ =>
      obtain rfl := List.mem_singleton.mp hown
      exact hx
    | _ => cases hown
  · obtain ⟨c, hc, hec⟩ := List.mem_flatMap.mp hbelow
    have := sizeOf_lt_of_mem_children hc
    exact mem_walk_of_child hc (walk_subset_of_mem_walk c hec hx)
termination_by sizeOf n

/-- One of two expressions stands inside the other, or they lie apart. -/
def Related (outer inner : Expr) : Prop :=
  inner ∈ (expr outer).below ∨ Span.Apart outer.span inner.span

/-- The expressions in a row of nodes are related if those in each of them are. -/
theorem pairwise_row {ns : List Node} (h : ∀ c ∈ ns, ∀ e ∈ c.walk, e.WellNested)
    (hapart : ((ns.flatMap tops).map (·.span)).Pairwise Span.Apart)
    (heach : ∀ c ∈ ns, c.walk.Pairwise Related) : (ns.flatMap walk).Pairwise Related := by
  refine List.pairwise_flatMap.mpr ⟨heach, ?_⟩
  rw [List.pairwise_map, List.pairwise_flatMap] at hapart
  refine List.Pairwise.imp_of_mem (fun {c c'} hc hc' hcc' => ?_) hapart.2
  intro e he e' he'
  obtain ⟨t, ht, hte⟩ := exists_top_encloses c (h c hc) he
  obtain ⟨t', ht', hte'⟩ := exists_top_encloses c' (h c' hc') he'
  exact Or.inr ((hcc' t ht t' ht').of_encloses hte hte')

/-- Of two expressions in a node one stands inside the other, or they lie apart. -/
theorem pairwise_walk (n : Node) (h : ∀ e ∈ n.walk, e.WellNested)
    (hapart : (n.tops.map (·.span)).Pairwise Span.Apart) : n.walk.Pairwise Related := by
  have hbelow : ∀ c ∈ n.children, ∀ e ∈ c.walk, e.WellNested :=
    fun c hc e he => h e (mem_walk_of_child hc he)
  have hrow (hinner : ((n.children.flatMap tops).map (·.span)).Pairwise Span.Apart) :
      (n.children.flatMap walk).Pairwise Related := by
    refine pairwise_row hbelow hinner fun c hc => ?_
    have := sizeOf_lt_of_mem_children hc
    refine pairwise_walk c (hbelow c hc) ?_
    rw [List.pairwise_map, List.pairwise_flatMap] at hinner
    exact List.pairwise_map.mpr (hinner.1 c hc)
  rw [walk_eq]
  cases n with
  | expr e =>
    have hinner := (h e (mem_walk_self e)).separate.apart.sublist (List.sublist_append_right _ _)
    exact List.pairwise_cons.mpr ⟨fun e' he' => Or.inl he', hrow hinner⟩
  | _ => exact hrow (by rwa [tops_eq (by simp)] at hapart)
termination_by sizeOf n

end Node

/-- What stands in an expression lies in its span. -/
theorem Expr.encloses_of_mem_walk {e e' : Expr} (h : ∀ x ∈ e.walk, x.WellNested)
    (he' : e' ∈ e.walk) : e.span.encloses e'.span = true := by
  obtain ⟨t, ht, hte⟩ := (Node.expr e).exists_top_encloses h he'
  rw [Node.tops_expr, List.mem_singleton] at ht
  rwa [← ht]

/-- The spans directly inside an expression whose parts are expressions are theirs. -/
theorem Node.inner_of_exprs {e : Expr} {es : List Expr}
    (h : (Node.expr e).children = Node.exprs es) : (Node.expr e).inner = es.map (·.span) := by
  have hmarks : (Node.exprs es).flatMap Node.marks = [] := by
    simp [Node.exprs, List.flatMap_map]
  rw [Node.inner, h, hmarks, Node.flatMap_tops_exprs]
  rfl

/-- An expression that is longer than the first of its parts takes up text, and whatever stands in it
takes up less. -/
theorem Expr.strictlyEncloses_of_mem_below {e first : Expr} {others : List Expr}
    (hparts : (Node.expr e).children = Node.exprs (first :: others))
    (h : ∀ x ∈ e.walk, x.WellNested)
    (hlonger : first.span.stop - first.span.start < e.span.stop - e.span.start) :
    e.span.start < e.span.stop ∧
      ∀ x ∈ (Node.expr e).below, e.span.StrictlyEncloses x.span := by
  have hinner : (Node.expr e).inner = first.span :: others.map (·.span) :=
    Node.inner_of_exprs hparts
  have hself := h e (Node.mem_walk_self e)
  have hfirst : first.span.start < first.span.stop :=
    hself.separate.nonempty _ (by rw [hinner]; exact List.mem_cons_self)
  refine ⟨by omega, fun x hx => ?_⟩
  rw [Node.below, hparts, Node.exprs, List.flatMap_map] at hx
  obtain ⟨part, hpart, hxpart⟩ := List.mem_flatMap.mp hx
  have hchild : Node.expr part ∈ (Node.expr e).children := by
    rw [hparts]
    exact List.mem_map_of_mem hpart
  have hbelow : ∀ y ∈ part.walk, y.WellNested :=
    fun y hy => h y (Node.mem_walk_of_child hchild hy)
  have hxin := Span.encloses_iff.mp (Expr.encloses_of_mem_walk hbelow hxpart)
  have hpartIn := Span.encloses_iff.mp (hself.inside part.span (by
    rw [hinner, ← List.map_cons]
    exact List.mem_map_of_mem hpart))
  refine ⟨Span.encloses_iff.mpr (by omega), fun heq => ?_⟩
  rw [heq] at hpartIn hlonger
  rcases List.mem_cons.mp hpart with rfl | hother
  · omega
  · -- another part lies apart from the first one, so it leaves out at least that
    have hapart := hself.separate.apart
    rw [hinner, List.pairwise_cons] at hapart
    have hpartApart := hapart.1 part.span (List.mem_map_of_mem hother)
    have hfirstIn := Span.encloses_iff.mp (hself.inside first.span (by
      rw [hinner]
      exact List.mem_cons_self))
    rw [heq] at hfirstIn
    unfold Span.Apart at hpartApart
    omega

/-- The spans of a program nest inside all of its expressions. -/
theorem Program.WellNested.of_mem_walk {p : Program} (h : p.WellNested) {e : Expr}
    (he : e ∈ p.expressions) : ∀ x ∈ e.walk, x.WellNested := by
  intro x hx
  exact h.expressions x ((Node.program p).walk_subset_of_mem_walk he hx)

/-- Of two expressions of a well-nested program one stands inside the other, or they lie apart. -/
theorem Program.WellNested.pairwise_expressions {p : Program} (h : p.WellNested) :
    p.expressions.Pairwise Node.Related := by
  refine (Node.program p).pairwise_walk h.expressions ?_
  rw [Node.tops_eq (by simp)]
  exact h.separate.apart.sublist (List.sublist_append_right _ _)

end Script

end ComponentLint
