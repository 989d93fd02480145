import ComponentLint.Proofs.Nesting
import ComponentLint.Script.Target

/-!
# What a target holds

What stands before an assignment sign is read as an expression and then turned into a target. The
target holds the expressions that stand in it: the object of a member, the object and the key of an
access, the operand under a type assertion, default values and computed keys. `Expr.Holds` says
which these are, and `Expr.target?` keeps exactly them, each once and in source order. In particular
an access that turns out to be written to is no longer among the expressions.
-/

namespace ComponentLint.Script

mutual

/-- `e.Holds x`: the expression `x` stands in `e` if `e` is written to. -/
inductive Expr.Holds : Expr → Expr → Prop where
  | memberObject {s e p o} : Expr.Holds (.member s e p o) e
  | hiddenObject {s e o} : Expr.Holds (.hidden s e o) e
  | indexObject {s e k o} : Expr.Holds (.index s e k o) e
  | indexKey {s e k o} : Expr.Holds (.index s e k o) k
  | paren {s e x} (h : e.Holds x) : Expr.Holds (.paren s e) x
  | castOperand {s e t parts} : Expr.Holds (.cast s e t parts) e
  | castType {s e t parts x} (h : x ∈ parts) : Expr.Holds (.cast s e t parts) x
  | satisfiesOperand {s e parts} : Expr.Holds (.satisfies s e parts) e
  | satisfiesType {s e parts x} (h : x ∈ parts) : Expr.Holds (.satisfies s e parts) x
  | assertedOperand {s e parts} : Expr.Holds (.asserted s e parts) e
  | assertedType {s e parts x} (h : x ∈ parts) : Expr.Holds (.asserted s e parts) x
  | element {s es e x} (he : e ∈ es) (h : e.Holds x) : Expr.Holds (.array s es) x
  | property {s ps p x} (hp : p ∈ ps) (h : p.Holds x) : Expr.Holds (.object s ps) x
  /-- The target of a default value has been read as a target before. -/
  | defaultTarget {s t v x} (h : x ∈ (Node.target t).tops) : Expr.Holds (.assign s t v) x
  | defaultValue {s t v} : Expr.Holds (.assign s t v) v
  | rest {s e x} (h : e.Holds x) : Expr.Holds (.spread s e) x

/-- `p.Holds x`: the expression `x` stands in the property `p` of a pattern. -/
inductive Property.Holds : Property → Expr → Prop where
  | named {s n v x} (h : v.Holds x) : Property.Holds (.named s n v) x
  | quoted {s t v x} (h : v.Holds x) : Property.Holds (.quoted s t v) x
  | key {k v} : Property.Holds (.keyed (some k) v) k
  | keyed {k v x} (h : v.Holds x) : Property.Holds (.keyed k v) x
  | rest {e x} (h : e.Holds x) : Property.Holds (.spread e) x

end

/-- The nodes into which an expression that is written to is turned keep what it holds, each at most
once and in source order. -/
structure Expr.ReadAs (e : Expr) (ns : List Node) : Prop where
  /-- The outermost expressions in the nodes are those that the expression holds. -/
  mem_iff : ∀ x, x ∈ ns.flatMap Node.tops ↔ e.Holds x
  /-- What a walk passes in the nodes it passes inside the expression, in the same order. -/
  sublist : (ns.flatMap Node.walk).Sublist (Node.expr e).below

/-! ## Places -/

/-- A target with the same children as the expression that it is read from. -/
theorem Expr.ReadAs.of_children {e : Expr} {t : Target}
    (h : (Node.target t).children = (Node.expr e).children)
    (hholds : ∀ x, x ∈ (Node.expr e).children.flatMap Node.tops ↔ e.Holds x) :
    e.ReadAs [.target t] := by
  refine ⟨fun x => ?_, ?_⟩
  · rw [List.flatMap_singleton, Node.tops_eq (by simp), h]
    exact hholds x
  · rw [List.flatMap_singleton, Node.walk_eq, h]
    exact List.Sublist.refl _

/-- An operand before the expressions in a type. -/
theorem Node.mem_tops_operand {e x : Expr} {types : List Expr} :
    x ∈ (Node.expr e :: Node.exprs types).flatMap Node.tops ↔ x = e ∨ x ∈ types := by
  rw [List.flatMap_cons, Node.flatMap_tops_exprs, Node.tops_expr, List.mem_append,
    List.mem_singleton]

/-- Names and members, with parentheses and type assertions around them. -/
theorem Expr.readAs_of_place {e : Expr} {t : Target} (h : e.place? = some t) :
    e.ReadAs [.target t] := by
  fun_induction Expr.place? e generalizing t with
  | case1 s text =>
    cases h
    exact .of_children rfl fun x => ⟨nofun, nofun⟩
  | case2 s e p o =>
    cases h
    refine .of_children rfl fun x => ?_
    simp only [Node.children, List.flatMap_singleton, Node.tops_expr, List.mem_singleton]
    constructor
    · rintro rfl
      exact .memberObject
    · rintro ⟨⟩
      rfl
  | case3 s e o =>
    cases h
    refine .of_children rfl fun x => ?_
    simp only [Node.children, List.flatMap_singleton, Node.tops_expr, List.mem_singleton]
    constructor
    · rintro rfl
      exact .hiddenObject
    · rintro ⟨⟩
      rfl
  | case4 s e k o =>
    cases h
    refine .of_children rfl fun x => ?_
    simp only [Node.children, List.flatMap_cons, List.flatMap_nil, Node.tops_expr, List.mem_append,
      List.mem_singleton, List.append_nil]
    constructor
    · rintro (rfl | rfl)
      · exact .indexObject
      · exact .indexKey
    · intro hx
      cases hx with
      | indexObject => exact Or.inl rfl
      | indexKey => exact Or.inr rfl
  | case5 s e ih =>
    obtain ⟨hmem, hsub⟩ := ih h
    refine ⟨fun x => (hmem x).trans ⟨.paren, fun hx => ?_⟩, ?_⟩
    · cases hx with
      | paren hx => exact hx
    · have hbelow : (Node.expr (.paren s e)).below = (Node.expr e).walk := List.append_nil _
      rw [hbelow, Node.walk_eq]
      exact hsub.trans (List.sublist_append_right _ _)
  | case6 s e ty types he =>
    cases h
    refine .of_children rfl fun x => ?_
    rw [Node.children, Node.mem_tops_operand]
    constructor
    · rintro (rfl | hx)
      · exact .castOperand
      · exact .castType hx
    · intro hx
      cases hx with
      | castOperand => exact Or.inl rfl
      | castType hx => exact Or.inr hx
  | case8 s e types he =>
    cases h
    refine .of_children rfl fun x => ?_
    rw [Node.children, Node.mem_tops_operand]
    constructor
    · rintro (rfl | hx)
      · exact .satisfiesOperand
      · exact .satisfiesType hx
    · intro hx
      cases hx with
      | satisfiesOperand => exact Or.inl rfl
      | satisfiesType hx => exact Or.inr hx
  | case10 s e types he =>
    cases h
    refine .of_children (by simp [Node.children, Node.exprs]) fun x => ?_
    rw [Node.children, List.flatMap_append, Node.flatMap_tops_exprs, List.flatMap_singleton,
      Node.tops_expr, List.mem_append, List.mem_singleton]
    constructor
    · rintro (hx | rfl)
      · exact .assertedType hx
      · exact .assertedOperand
    · intro hx
      cases hx with
      | assertedOperand => exact Or.inr rfl
      | assertedType hx => exact Or.inl hx
  | case7 | case9 | case11 | case12 => cases h

theorem Expr.readAs_of_placeReading {e : Expr} {r : TargetReading}
    (h : e.placeReading? = some r) : e.ReadAs [.target r.target] := by
  obtain ⟨t, ht, rfl⟩ := Option.map_eq_some_iff.mp h
  exact readAs_of_place ht

/-! ## Patterns -/

/-- The nodes of the parts of a pattern. -/
def PatternReading.nodes (r : PatternReading) : List Node := r.parts.map Node.ofPart

@[simp] theorem TargetReading.nodes_part (r : TargetReading) :
    r.part.nodes = [.target r.target] := rfl

@[simp] theorem PatternReading.nodes_append (a b : PatternReading) :
    (a.append b).nodes = a.nodes ++ b.nodes := List.map_append

/-- The elements of an array pattern turned into nodes. -/
structure ElementsReadAs (es : List Expr) (ns : List Node) : Prop where
  mem_iff : ∀ x, x ∈ ns.flatMap Node.tops ↔ ∃ e ∈ es, e.Holds x
  sublist : (ns.flatMap Node.walk).Sublist ((Node.exprs es).flatMap Node.walk)

/-- The properties of an object pattern turned into nodes. -/
structure PropertiesReadAs (ps : List Property) (ns : List Node) : Prop where
  mem_iff : ∀ x, x ∈ ns.flatMap Node.tops ↔ ∃ p ∈ ps, p.Holds x
  sublist : (ns.flatMap Node.walk).Sublist ((ps.map Node.property).flatMap Node.walk)

theorem ElementsReadAs.nil : ElementsReadAs [] [] := ⟨by simp, List.Sublist.refl _⟩

theorem PropertiesReadAs.nil : PropertiesReadAs [] [] := ⟨by simp, List.Sublist.refl _⟩

/-- What is kept of an expression stands in it. -/
theorem Expr.ReadAs.sublist_walk {e : Expr} {ns : List Node} (h : e.ReadAs ns) :
    (ns.flatMap Node.walk).Sublist (Node.expr e).walk := by
  rw [Node.walk_eq]
  exact h.sublist.trans (List.sublist_append_right _ _)

theorem ElementsReadAs.cons {e : Expr} {es : List Expr} {ns more : List Node} (h : e.ReadAs ns)
    (hmore : ElementsReadAs es more) : ElementsReadAs (e :: es) (ns ++ more) := by
  refine ⟨fun x => ?_, ?_⟩
  · rw [List.flatMap_append, List.mem_append, h.mem_iff, hmore.mem_iff]
    simp
  · rw [List.flatMap_append]
    exact h.sublist_walk.append hmore.sublist

/-- A property with known nodes before properties with known nodes. -/
theorem PropertiesReadAs.cons {p : Property} {ps : List Property} {ns more : List Node}
    (hmem : ∀ x, x ∈ ns.flatMap Node.tops ↔ p.Holds x)
    (hsub : (ns.flatMap Node.walk).Sublist (Node.property p).walk)
    (hmore : PropertiesReadAs ps more) : PropertiesReadAs (p :: ps) (ns ++ more) := by
  refine ⟨fun x => ?_, ?_⟩
  · rw [List.flatMap_append, List.mem_append, hmem, hmore.mem_iff]
    simp
  · rw [List.flatMap_append]
    exact hsub.append hmore.sublist

/-- A property that holds what its value holds. -/
theorem PropertiesReadAs.cons_value {p : Property} {v : Expr} {ps : List Property}
    {ns more : List Node} (hv : v.ReadAs ns) (hp : ∀ x, v.Holds x ↔ p.Holds x)
    (hchildren : (Node.property p).children = [.expr v]) (hmore : PropertiesReadAs ps more) :
    PropertiesReadAs (p :: ps) (ns ++ more) := by
  refine .cons (fun x => (hv.mem_iff x).trans (hp x)) ?_ hmore
  rw [Node.walk_eq, hchildren, List.flatMap_singleton]
  exact hv.sublist_walk

theorem ElementsReadAs.readAs_array {s s' : Span} {es : List Expr} {parts : List PatternPart}
    (h : ElementsReadAs es (parts.map Node.ofPart)) :
    (Expr.array s es).ReadAs [.target (.pattern s' parts)] := by
  refine ⟨fun x => ?_, ?_⟩
  · rw [List.flatMap_singleton, Node.tops_eq (by simp), Node.children, h.mem_iff]
    constructor
    · rintro ⟨e, he, hx⟩
      exact .element he hx
    · intro hx
      cases hx with
      | element he hx => exact ⟨_, he, hx⟩
  · rw [List.flatMap_singleton, Node.walk_eq]
    exact h.sublist

theorem PropertiesReadAs.readAs_object {s s' : Span} {ps : List Property}
    {parts : List PatternPart} (h : PropertiesReadAs ps (parts.map Node.ofPart)) :
    (Expr.object s ps).ReadAs [.target (.pattern s' parts)] := by
  refine ⟨fun x => ?_, ?_⟩
  · rw [List.flatMap_singleton, Node.tops_eq (by simp), Node.children, h.mem_iff]
    constructor
    · rintro ⟨p, hp, hx⟩
      exact .property hp hx
    · intro hx
      cases hx with
      | property hp hx => exact ⟨_, hp, hx⟩
  · rw [List.flatMap_singleton, Node.walk_eq]
    exact h.sublist

/-- An element with a default value. -/
theorem Expr.readAs_assign {s : Span} {t : Target} {v : Expr} :
    (Expr.assign s t v).ReadAs [.target t, .expr v] := by
  refine ⟨fun x => ?_, List.Sublist.refl _⟩
  simp only [List.flatMap_cons, List.flatMap_nil, List.append_nil, Node.tops_expr, List.mem_append,
    List.mem_singleton]
  constructor
  · rintro (hx | rfl)
    · exact .defaultTarget hx
    · exact .defaultValue
  · intro hx
    cases hx with
    | defaultTarget hx => exact Or.inl hx
    | defaultValue => exact Or.inr rfl

theorem Expr.ReadAs.spread {s : Span} {e : Expr} {ns : List Node} (h : e.ReadAs ns) :
    (Expr.spread s e).ReadAs ns := by
  refine ⟨fun x => (h.mem_iff x).trans ⟨.rest, fun hx => ?_⟩, ?_⟩
  · cases hx with
    | rest hx => exact hx
  · rw [Node.below, Node.children, List.flatMap_singleton]
    exact h.sublist_walk

/-- A property with a key, from the nodes of its value. -/
theorem Expr.ReadAs.keyed {v : Expr} {ns : List Node} (h : v.ReadAs ns) (k : Option Expr)
    (x : Expr) :
    x ∈ (Node.exprs k.toList ++ ns).flatMap Node.tops ↔ (Property.keyed k v).Holds x := by
  rw [List.flatMap_append, Node.flatMap_tops_exprs, List.mem_append, h.mem_iff]
  constructor
  · rintro (hx | hx)
    · rw [Option.mem_toList.mp hx]
      exact .key
    · exact .keyed hx
  · intro hx
    cases hx with
    | key => exact Or.inl (by simp)
    | keyed hx => exact Or.inr hx

mutual

/-- What `Expr.target?` keeps of an expression that is written to is what the expression holds. -/
theorem Expr.readAs_of_target {sealed : List Nat} {e : Expr} {r : TargetReading}
    (h : e.target? sealed = some r) : e.ReadAs [.target r.target] := by
  unfold Expr.target? at h
  split at h
  · obtain ⟨parts, hparts, rfl⟩ := Option.map_eq_some_iff.mp h
    exact (readAs_of_elements hparts).readAs_array
  · obtain ⟨parts, hparts, rfl⟩ := Option.map_eq_some_iff.mp h
    exact (readAs_of_properties hparts).readAs_object
  · exact Expr.readAs_of_placeReading h

theorem Expr.readAs_of_elementPart {sealed : List Nat} {e : Expr} {r : PatternReading}
    (h : e.elementPart? sealed = some r) : e.ReadAs r.nodes := by
  unfold Expr.elementPart? at h
  split at h
  · cases h
    exact Expr.readAs_assign
  · obtain ⟨parts, hparts, rfl⟩ := Option.map_eq_some_iff.mp h
    exact (readAs_of_elements hparts).readAs_array
  · obtain ⟨parts, hparts, rfl⟩ := Option.map_eq_some_iff.mp h
    exact (readAs_of_properties hparts).readAs_object
  · obtain ⟨place, hplace, rfl⟩ := Option.map_eq_some_iff.mp h
    exact Expr.readAs_of_placeReading hplace

theorem readAs_of_elements {sealed : List Nat} {es : List Expr} {r : PatternReading}
    (h : elementParts? sealed es = some r) : ElementsReadAs es r.nodes := by
  unfold elementParts? at h
  split at h
  · cases h
    exact .nil
  · next s e rest =>
    split_ifs at h with hlast
    obtain rfl : rest = [] := by
      simp only [Bool.and_eq_true, List.isEmpty_iff] at hlast
      exact hlast.1
    obtain ⟨t, ht, rfl⟩ := Option.map_eq_some_iff.mp h
    exact .cons (Expr.readAs_of_target ht).spread .nil
  · next e rest _ =>
    split at h
    · next r' more hr hmore =>
      cases h
      rw [PatternReading.nodes_append]
      exact .cons (Expr.readAs_of_elementPart hr) (readAs_of_elements hmore)
    · cases h

theorem readAs_of_properties {sealed : List Nat} {ps : List Property} {r : PatternReading}
    (h : propertyParts? sealed ps = some r) : PropertiesReadAs ps r.nodes := by
  unfold propertyParts? at h
  split at h
  · cases h
    exact .nil
  · next e rest =>
    split_ifs at h with hlast
    obtain rfl : rest = [] := by
      simp only [Bool.and_eq_true, List.isEmpty_iff] at hlast
      exact hlast.1
    obtain ⟨t, ht, rfl⟩ := Option.map_eq_some_iff.mp h
    exact .cons_value (Expr.readAs_of_placeReading ht) (fun x => ⟨.rest, fun | .rest hx => hx⟩) rfl
      .nil
  · next key name v rest =>
    split at h
    · next r' more hr hmore =>
      cases h
      have hv := Expr.readAs_of_elementPart hr
      rw [PatternReading.nodes_append]
      exact .cons_value hv (fun x => ⟨.named, fun | .named hx => hx⟩) rfl
        (readAs_of_properties hmore)
    · cases h
  · next s text v rest =>
    split at h
    · next r' more hr hmore =>
      cases h
      rw [PatternReading.nodes_append]
      exact .cons_value (Expr.readAs_of_elementPart hr)
        (fun x => ⟨.quoted, fun | .quoted hx => hx⟩) rfl (readAs_of_properties hmore)
    · cases h
  · next k v rest =>
    split at h
    · next r' more hr hmore =>
      cases h
      have hv := Expr.readAs_of_elementPart hr
      have hnodes : (PatternReading.mk (k.toList.map PatternPart.value ++ r'.parts)
          r'.defaults).nodes = Node.exprs k.toList ++ r'.nodes := by
        simp [PatternReading.nodes, Node.exprs, Node.ofPart]
      have hwalk : (Node.property (.keyed k v)).walk =
          (Node.exprs k.toList).flatMap Node.walk ++ (Node.expr v).walk := by
        simp [Node.walk_eq (.property (.keyed k v)), Node.own, Node.children]
      rw [PatternReading.nodes_append, hnodes]
      refine .cons (hv.keyed k) ?_ (readAs_of_properties hmore)
      rw [hwalk, List.flatMap_append]
      exact (List.Sublist.refl _).append hv.sublist_walk
    · cases h

end

end ComponentLint.Script
