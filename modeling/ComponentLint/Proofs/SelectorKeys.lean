import ComponentLint.Proofs.Located
import ComponentLint.Proofs.Nesting
import ComponentLint.Rule.ChildSelectors
import Mathlib.Data.List.Flatten
import Mathlib.Data.List.Nodup

/-!
# Whose selectors a key belongs to

Calls of the style factory nest: a style may stand in an argument, a key or a value of another one.
Still every string key is a selector of at most one call. This is shown by counting: what the calls
in a node claim and what the node offers to a call around it are different keys of the node
(`Counted`). In a well-nested program all string keys have different spans, so that no selector is
reported twice.
-/

namespace ComponentLint

namespace ChildSelectors

open Script (Expr Node Program Property)

/-- The span of a key that is a string. -/
def keySpan? : Property → Option Span
  | .quoted s _ _ => some s
  | _ => none

/-- The spans of the string keys of an object literal. -/
def keySpans (e : Expr) : List Span := (properties e).filterMap keySpan?

/-- The spans of the string keys in a property that holds selectors. -/
def propertySpans (p : Property) : List Span := (selectorProperties p).filterMap keySpan?

/-- The spans of the string keys in the properties of an object literal that hold selectors. -/
def selectorSpans (e : Expr) : List Span := (properties e).flatMap propertySpans

/-- The spans of the selectors in an argument of the style factory. -/
def styleSpans (e : Expr) : List Span := (styleObjects e).flatMap selectorSpans

/-- The spans of the selectors in the arguments of a call. -/
def callSpans : Expr → List Span
  | .call _ _ _ arguments _ => arguments.flatMap styleSpans
  | _ => []

theorem filterMap_keySpan_selectors (arguments : List Expr) :
    (((arguments.flatMap styleObjects).flatMap properties).flatMap selectorProperties).filterMap
      keySpan? = arguments.flatMap styleSpans := by
  simp only [List.flatMap_assoc, List.filterMap_flatMap]
  rfl

/-- The selectors that are reported for a call are in its arguments. -/
theorem map_span_checkCall_sublist (e : Expr) :
    ((checkCall e).map (·.span)).Sublist (callSpans e) := by
  unfold checkCall
  split
  · split_ifs
    · rw [callSpans, ← filterMap_keySpan_selectors]
      refine map_filterMap_sublist (fun p d hd => ?_) _
      unfold checkSelector at hd
      split at hd
      · split_ifs at hd
        rw [← Option.some.inj hd]
        rfl
      · cases hd
    · exact List.nil_sublist _
  · exact List.nil_sublist _

/-! ## Keys that are claimed -/

/-- The spans of the selectors of all calls in a node. -/
def claimed (n : Node) : List Span := n.walk.flatMap callSpans

/-- The spans of all string keys in a node. -/
def keyed (n : Node) : List Span := n.walk.flatMap keySpans

theorem claimed_eq (n : Node) :
    claimed n = n.own.flatMap callSpans ++ n.children.flatMap claimed := by
  rw [claimed, Node.walk_eq, List.flatMap_append, List.flatMap_assoc]
  rfl

theorem keyed_eq (n : Node) : keyed n = n.own.flatMap keySpans ++ n.children.flatMap keyed := by
  rw [keyed, Node.walk_eq, List.flatMap_append, List.flatMap_assoc]
  rfl

section Counting

variable {s : Span}

theorem count_flatMap_add_le {α : Type} {l : List α} {f g h : α → List Span}
    (hle : ∀ a ∈ l, (f a).count s + (g a).count s ≤ (h a).count s) :
    (l.flatMap f).count s + (l.flatMap g).count s ≤ (l.flatMap h).count s := by
  induction l with
  | nil => simp
  | cons a l ih =>
    have hhead := hle a List.mem_cons_self
    have htail := ih fun b hb => hle b (List.mem_cons_of_mem a hb)
    simp only [List.flatMap_cons, List.count_append]
    omega

/-- The keys that the calls in a node claim and those that it offers are different keys of it, as far
as the span `s` is concerned. -/
def Offers (s : Span) (n : Node) (offered : List Span) : Prop :=
  (claimed n).count s + offered.count s ≤ (keyed n).count s

/-- What the calls in a node claim leaves free whatever the node can be claimed for: as the object
with selectors, as the object with such properties, or as the argument of a call. -/
structure Counted (s : Span) (n : Node) : Prop where
  nothing : Offers s n []
  property : ∀ p, n = .property p → Offers s n (propertySpans p)
  keys : ∀ e, n = .expr e → Offers s n (keySpans e)
  selectors : ∀ e, n = .expr e → Offers s n (selectorSpans e)
  styles : ∀ e, n = .expr e → Offers s n (styleSpans e)

/-- A row of nodes offers what its nodes offer. -/
theorem count_row {α : Type} {f : α → Node} {g : α → List Span} {l : List α}
    (h : ∀ a ∈ l, Offers s (f a) (g a)) :
    ((l.map f).flatMap claimed).count s + (l.flatMap g).count s ≤
      ((l.map f).flatMap keyed).count s := by
  rw [List.flatMap_map, List.flatMap_map]
  exact count_flatMap_add_le h

theorem count_nodes_le {l : List Node} (h : ∀ c ∈ l, Counted s c) :
    (l.flatMap claimed).count s ≤ (l.flatMap keyed).count s := by
  have hrow := count_flatMap_add_le fun c hc => (h c hc).nothing
  exact Nat.le_trans (Nat.le_add_right _ _) hrow

/-- Only a call claims keys for itself, namely those that its arguments offer. -/
theorem offers_nothing {n : Node} (h : ∀ c ∈ n.children, Counted s c) : Offers s n [] := by
  have hbelow := count_nodes_le h
  unfold Offers
  rw [claimed_eq, keyed_eq]
  simp only [List.count_append, List.count_nil]
  cases n with
  | expr e =>
    cases e with
    | call span callee types arguments optional =>
      have harguments := count_row (f := Node.expr) (g := styleSpans) (l := arguments) (s := s)
        fun a ha => (h (.expr a) (by simp [Node.children, Node.exprs, ha])).styles a rfl
      have hothers := count_nodes_le (l := Node.expr callee :: Node.exprs types) (s := s)
        fun c hc => h c (by
          simp only [Node.children, List.mem_cons, List.mem_append] at hc ⊢
          tauto)
      simp only [Node.own, Node.children, Node.exprs, List.flatMap_cons, List.flatMap_nil,
        List.append_nil, List.flatMap_append, List.count_append, callSpans] at *
      omega
    | _ => simpa [Node.own, callSpans] using Nat.le_add_left_of_le hbelow
  | _ => simpa [Node.own] using hbelow

/-- An object literal offers its own string keys. -/
theorem offers_keys {e : Expr} (h : ∀ c ∈ (Node.expr e).children, Counted s c) :
    Offers s (.expr e) (keySpans e) := by
  cases e with
  | object span ps =>
    have hbelow := count_nodes_le h
    unfold Offers
    rw [claimed_eq, keyed_eq]
    simp only [Node.own, List.flatMap_cons, List.flatMap_nil, List.append_nil, List.count_append,
      callSpans, List.count_nil]
    omega
  | _ => exact offers_nothing h

/-- A property that holds selectors offers the string keys of its value. -/
theorem offers_property {p : Property}
    (h : ∀ c ∈ (Node.property p).children, Counted s c) :
    Offers s (.property p) (propertySpans p) := by
  cases p with
  | named span name v =>
    by_cases hname : name = "selectors"
    · have hv := (h (.expr v) (by simp [Node.children])).keys v rfl
      unfold Offers at hv ⊢
      rw [claimed_eq, keyed_eq]
      simpa [Node.own, Node.children, propertySpans, selectorProperties, hname, keySpans] using hv
    · have hnone : propertySpans (.named span name v) = [] := by
        simp [propertySpans, selectorProperties, hname]
      rw [hnone]
      exact offers_nothing h
  | _ => exact offers_nothing h

/-- An object literal offers what its properties offer. -/
theorem offers_selectors {e : Expr} (h : ∀ c ∈ (Node.expr e).children, Counted s c) :
    Offers s (.expr e) (selectorSpans e) := by
  cases e with
  | object span ps =>
    have hrow := count_row (f := Node.property) (g := propertySpans) (l := ps) (s := s)
      fun p hp => (h (.property p) (List.mem_map_of_mem hp)).property p rfl
    unfold Offers
    rw [claimed_eq, keyed_eq]
    simp only [Node.own, Node.children, List.flatMap_cons, List.flatMap_nil, List.append_nil,
      List.count_append, callSpans, List.count_nil, selectorSpans, properties]
    omega
  | _ => exact offers_nothing h

/-- An argument of a call offers what it holds as an object literal, or what its elements hold. -/
theorem offers_styles {e : Expr} (h : ∀ c ∈ (Node.expr e).children, Counted s c) :
    Offers s (.expr e) (styleSpans e) := by
  cases e with
  | array span es =>
    have hrow := count_row (f := Node.expr) (g := selectorSpans) (l := es) (s := s)
      fun a ha => (h (.expr a) (List.mem_map_of_mem ha)).selectors a rfl
    unfold Offers
    rw [claimed_eq, keyed_eq]
    simp only [Node.own, Node.children, Node.exprs, List.flatMap_cons, List.flatMap_nil,
      List.append_nil, List.count_append, callSpans, List.count_nil, styleSpans, styleObjects]
    omega
  | _ => simpa [styleSpans, styleObjects] using offers_selectors h

/-- What the calls in a node claim and what the node offers to a call around it are different keys
of the node. -/
theorem counted (s : Span) (n : Node) : Counted s n := by
  have hchildren : ∀ c ∈ n.children, Counted s c := by
    intro c hc
    have := Node.sizeOf_lt_of_mem_children hc
    exact counted s c
  refine ⟨offers_nothing hchildren, ?_, ?_, ?_, ?_⟩
  · rintro p rfl
    exact offers_property hchildren
  · rintro e rfl
    exact offers_keys hchildren
  · rintro e rfl
    exact offers_selectors hchildren
  · rintro e rfl
    exact offers_styles hchildren
termination_by sizeOf n

end Counting

/-! ## Keys have spans of their own -/

theorem marks_property (p : Property) : (Node.property p).marks = (keySpan? p).toList := by
  have hchildren : (Node.property p).children.flatMap Node.marks = [] := by
    cases p <;> simp [Node.children, Node.exprs]
  rw [Node.marks_eq (by simp), hchildren, List.append_nil]
  cases p <;> rfl

/-- The string keys of an object literal stand directly inside it, beside its expressions. -/
theorem marks_below_object (span : Span) (ps : List Property) :
    (Node.expr (.object span ps)).children.flatMap Node.marks = keySpans (.object span ps) := by
  rw [keySpans, properties, List.filterMap_eq_flatMap_toList, Node.children, List.flatMap_map]
  exact congrArg (fun f => ps.flatMap f) (funext marks_property)

/-- No string key in a well-nested program overlaps another one or is empty. -/
theorem separate_keys {p : Program} (h : p.WellNested) :
    Span.Separate (p.expressions.flatMap keySpans) := by
  have hkeys : ∀ e, keySpans e ≠ [] → ∃ span ps, e = .object span ps := by
    intro e he
    cases e with
    | object span ps => exact ⟨span, ps, rfl⟩
    | _ => exact absurd rfl he
  have hinner : ∀ e, (keySpans e).Sublist (Node.expr e).inner := by
    intro e
    by_cases he : keySpans e = []
    · rw [he]
      exact List.nil_sublist _
    · obtain ⟨span, ps, rfl⟩ := hkeys e he
      rw [← marks_below_object]
      exact (List.sublist_append_right _ _).trans (List.sublist_append_left _ _)
  have hwell : ∀ e ∈ p.expressions, e.WellNested := h.expressions
  refine ⟨fun s hs => ?_, List.pairwise_flatMap.mpr ⟨fun e he => ?_, ?_⟩⟩
  · obtain ⟨e, he, hse⟩ := List.mem_flatMap.mp hs
    exact (hwell e he).separate.nonempty s ((hinner e).subset hse)
  · exact (hwell e he).separate.apart.sublist (hinner e)
  · refine h.pairwise_expressions.imp_of_mem fun {e e'} he he' hrelated k hk k' hk' => ?_
    have hin : e.span.encloses k = true := (hwell e he).inside k ((hinner e).subset hk)
    have hin' : e'.span.encloses k' = true := (hwell e' he').inside k' ((hinner e').subset hk')
    rcases hrelated with hbelow | hapart
    · -- the inner object lies in an expression beside the key of the outer one
      obtain ⟨span, ps, rfl⟩ := hkeys e (List.ne_nil_of_mem hk)
      obtain ⟨c, hc, hec⟩ := List.mem_flatMap.mp hbelow
      have hbelow : ∀ x ∈ c.walk, x.WellNested :=
        fun x hx => h.of_mem_walk he x (Node.mem_walk_of_child hc hx)
      obtain ⟨t, ht, hte⟩ := c.exists_top_encloses hbelow hec
      have happart := (List.pairwise_append.mp (hwell _ he).separate.apart).2.2
      have hkt : Span.Apart k t.span := by
        refine happart k ?_ t.span (List.mem_map_of_mem (List.mem_flatMap.mpr ⟨c, hc, ht⟩))
        rw [marks_below_object]
        exact List.mem_append_right _ hk
      exact hkt.of_encloses (Span.encloses_refl k) (Span.encloses_trans hte hin')
    · exact hapart.of_encloses hin hin'

/-- In a well-nested program no selector is reported twice. -/
theorem nodup_spans {file : SourceFile} (h : file.program.WellNested) :
    ((check file).map (·.span)).Nodup := by
  unfold check
  split_ifs
  · have hclaimed : ((file.program.expressions.flatMap checkCall).map (·.span)).Sublist
        (file.program.expressions.flatMap callSpans) := by
      rw [List.map_flatMap]
      exact List.Sublist.flatMap_right _ fun e _ => map_span_checkCall_sublist e
    refine (List.nodup_iff_count_le_one.mpr fun s => ?_).sublist hclaimed
    have hcounted : (claimed (.program file.program)).count s + List.count s [] ≤
        (keyed (.program file.program)).count s := (counted s (.program file.program)).nothing
    have hone := List.nodup_iff_count_le_one.mp (separate_keys h).nodup s
    exact Nat.le_trans (Nat.le_trans (Nat.le_add_right _ _) hcounted) hone
  · exact List.nodup_nil

end ChildSelectors

end ComponentLint
