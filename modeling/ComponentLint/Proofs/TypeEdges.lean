import ComponentLint.Proofs.UnionTexts

/-!
# How the text of a type begins and ends

Only the beginning and the end of a text tell which kind of type it is. Here is what the printed form
of a type has there: no blank, no bracket the wrong way round, and brackets at both ends unless the
type is a name, so that a bar inside of it does no harm (`bracketEnds_member`). A function type ends
like its result, which is found behind all of its parameters (`text_eq_front`).
-/

namespace ComponentLint.Types

/-- A text that begins and ends with a character that may begin and end a type. -/
structure TextEnds (s : List Char) : Prop where
  head : ∃ c r, s = c :: r ∧ Text.isBlank c = false ∧ closes c = false
  last : ∃ r c, s = r ++ [c] ∧ Text.isBlank c = false ∧ opens c = false

namespace TextEnds

theorem ne_nil {s : List Char} (h : TextEnds s) : s ≠ [] := by
  obtain ⟨c, r, rfl, -⟩ := h.head
  exact List.cons_ne_nil c r

theorem trimmed {s : List Char} (h : TextEnds s) : Text.Trimmed s where
  head := by
    obtain ⟨c, r, rfl, hc, -⟩ := h.head
    rintro c' ⟨⟩
    exact hc
  last := by
    obtain ⟨r, c, rfl, hc, -⟩ := h.last
    intro c' hc'
    rw [List.getLast?_concat] at hc'
    obtain rfl := Option.mem_some.mp hc'
    exact hc

/-- What stands in the middle of a text does not matter. -/
theorem around {s t : List Char} (hs : TextEnds s) (m : List Char) (ht : TextEnds t) :
    TextEnds (s ++ (m ++ t)) where
  head := by
    obtain ⟨c, r, rfl, hc, hcl⟩ := hs.head
    exact ⟨c, r ++ (m ++ t), rfl, hc, hcl⟩
  last := by
    obtain ⟨r, c, rfl, hc, ho⟩ := ht.last
    exact ⟨s ++ (m ++ r), c, by simp, hc, ho⟩

theorem of_plain {s : List Char} (hne : s ≠ []) (hs : s.all isPlain = true) : TextEnds s := by
  have hplain : ∀ c ∈ s, Text.isBlank c = false ∧ closes c = false ∧ opens c = false := by
    intro c hc
    have h := List.all_eq_true.mp hs c hc
    simp only [isPlain, Bool.not_eq_true', Bool.or_eq_false_iff] at h
    exact ⟨h.1.1.1.1, h.1.1.2, h.1.1.1.2⟩
  constructor
  · obtain ⟨c, r, rfl⟩ := List.exists_cons_of_ne_nil hne
    obtain ⟨hblank, hcl, -⟩ := hplain c List.mem_cons_self
    exact ⟨c, r, rfl, hblank, hcl⟩
  · obtain ⟨r, c, rfl⟩ := (List.eq_nil_or_concat s).resolve_left hne
    obtain ⟨hblank, -, ho⟩ := hplain c (by simp)
    exact ⟨r, c, by simp, hblank, ho⟩

theorem enclosed {o c : Char} (ho : opens o = true) (hc : closes c = true) (s : List Char) :
    TextEnds (o :: s ++ [c]) where
  head := ⟨o, s ++ [c], rfl, isBlank_of_opens ho, closes_of_opens ho⟩
  last := by
    refine ⟨o :: s, c, rfl, isBlank_of_closes hc, ?_⟩
    by_contra hopens
    rw [closes_of_opens (by simpa using hopens)] at hc
    cases hc

theorem inParens {s : List Char} (h : TextEnds s) (needed : Bool) : TextEnds (inParens needed s) := by
  cases needed with
  | false => exact h
  | true => exact enclosed (by decide) (by decide) s

theorem intercalate {texts : List (List Char)} (hne : texts ≠ []) (h : ∀ s ∈ texts, TextEnds s)
    (separator : List Char) : TextEnds (separator.intercalate texts) := by
  induction texts with
  | nil => exact absurd rfl hne
  | cons s texts ih =>
    cases texts with
    | nil => simpa using h s List.mem_cons_self
    | cons s' texts =>
      rw [List.intercalate_cons_cons, List.append_assoc]
      exact (h s List.mem_cons_self).around separator
        (ih (List.cons_ne_nil _ _) fun x hx => h x (List.mem_cons_of_mem s hx))

end TextEnds

namespace TypeExpr

theorem textEnds (t : TypeExpr) : TextEnds t.text := by
  induction t using TypeExpr.induct with
  | _ t ih =>
    have hempty : TextEnds ['[', ']'] := TextEnds.enclosed (by decide) (by decide) []
    have hreadonly : TextEnds "readonly".toList := TextEnds.of_plain (by decide) (by decide)
    cases t with
    | name n => exact TextEnds.of_plain n.ne_nil n.plain
    | generic n first others =>
      rw [text]
      exact (TextEnds.of_plain n.ne_nil n.plain).around [] (.enclosed (by decide) (by decide) _)
    | array e =>
      rw [text_array]
      exact ((ih e List.mem_cons_self).inParens _).around [] hempty
    | readonlyArray e =>
      rw [text_readonlyArray]
      exact hreadonly.around (' ' :: e.operand) hempty
    | tuple es =>
      rw [text]
      exact .enclosed (by decide) (by decide) _
    | readonlyTuple es =>
      rw [text]
      exact hreadonly.around [' '] (.enclosed (by decide) (by decide) _)
    | function ps r =>
      rw [text]
      exact (TextEnds.enclosed (by decide) (by decide) _).around arrow (ih r (by simp [parts]))
    | object fs =>
      rw [text]
      exact .enclosed (by decide) (by decide) _
    | union first second others =>
      rw [text_union]
      refine TextEnds.intercalate (by simp) (fun s hs => ?_) bar
      obtain ⟨t', ht', rfl⟩ := List.mem_map.mp hs
      exact (ih t' ht').inParens _

theorem textEnds_member (t : TypeExpr) : TextEnds t.member := t.textEnds.inParens _

/-! ## Brackets at the ends -/

theorem member_of_closed {t : TypeExpr} (h : t.isOpen = false) : t.member = t.text := by
  rw [member, h]
  rfl

theorem member_of_open {t : TypeExpr} (h : t.isOpen = true) : t.member = '(' :: t.text ++ [')'] := by
  rw [member, h]
  rfl

/-- In front of the brackets of an array a type stands in parentheses or as it is. -/
theorem operand_cases (e : TypeExpr) :
    ((e.isOpen || e.isReadonly) = true ∧ e.operand = '(' :: e.text ++ [')']) ∨
      ((e.isOpen || e.isReadonly) = false ∧ e.isOpen = false ∧ e.operand = e.member) := by
  cases h : e.isOpen || e.isReadonly with
  | true =>
    refine Or.inl ⟨rfl, ?_⟩
    rw [operand, h]
    rfl
  | false =>
    have hopen := (Bool.or_eq_false_iff.mp h).1
    refine Or.inr ⟨rfl, hopen, ?_⟩
    rw [operand, h, member, hopen]

theorem notMem_name (n : TypeName) {c : Char} (hc : isPlain c = false) : c ∉ n.text := by
  intro h
  rw [List.all_eq_true.mp n.plain c h] at hc
  cases hc

theorem bar_notMem_name (n : TypeName) : '|' ∉ n.text := notMem_name n (by decide)

theorem opening_text (t : TypeExpr) (h : t.isOpen = false) (hname : ∀ n, t ≠ .name n) :
    Opening t.text := by
  induction t using TypeExpr.induct with
  | _ t ih =>
    have hempty : Opening ['[', ']'] := .of_opens (by decide) _
    -- A name in front of the brackets has none itself, so these are the first.
    have hoperand : ∀ e ∈ t.parts, Opening (e.operand ++ ['[', ']']) := by
      intro e he
      rcases e.operand_cases with ⟨-, hoperand⟩ | ⟨-, hclosed, hoperand⟩
      · rw [hoperand]
        exact .of_opens (by decide) _
      · rw [hoperand, member_of_closed hclosed]
        by_cases hn : ∃ n, e = .name n
        · obtain ⟨n, rfl⟩ := hn
          exact hempty.behind (bar_notMem_name n)
        · exact (ih e he hclosed fun n hn' => hn ⟨n, hn'⟩).append _
    cases t with
    | name n => exact absurd rfl (hname n)
    | generic n first others =>
      rw [text]
      exact (Opening.of_opens (by decide) _).behind (bar_notMem_name n)
    | array e =>
      rw [text_array]
      exact hoperand e List.mem_cons_self
    | readonlyArray e =>
      rw [text_readonlyArray]
      exact (hoperand e List.mem_cons_self).behind (by decide)
    | tuple es =>
      rw [text]
      exact .of_opens (by decide) _
    | readonlyTuple es =>
      rw [text]
      exact (Opening.of_opens (by decide) _).behind (by decide)
    | function ps r => cases h
    | object fs =>
      rw [text]
      exact .of_opens (by decide) _
    | union first second others => cases h

theorem closing_text (t : TypeExpr) (h : t.isOpen = false) (hname : ∀ n, t ≠ .name n) :
    Closing t.text := by
  have hempty : Closing ['[', ']'] := .of_closes (by decide) ['[']
  cases t with
  | name n => exact absurd rfl (hname n)
  | generic n first others =>
    rw [text]
    exact (Closing.of_closes (by decide) _).behind _
  | array e =>
    rw [text_array]
    exact hempty.behind _
  | readonlyArray e =>
    rw [text_readonlyArray]
    exact (hempty.behind _).behind _
  | tuple es =>
    rw [text]
    exact .of_closes (by decide) _
  | readonlyTuple es =>
    rw [text]
    exact (Closing.of_closes (by decide) _).behind _
  | function ps r => cases h
  | object fs =>
    rw [text]
    exact .of_closes (by decide) _
  | union first second others => cases h

/-- A member of a union has brackets at both ends unless it is a name. -/
theorem bracketEnds_member (t : TypeExpr) (hname : ∀ n, t ≠ .name n) : BracketEnds t.member := by
  cases hopen : t.isOpen with
  | false =>
    rw [member_of_closed hopen]
    exact ⟨t.opening_text hopen hname, t.closing_text hopen hname⟩
  | true =>
    rw [member_of_open hopen]
    exact ⟨.of_opens (by decide) _, .of_closes (by decide) _⟩

end TypeExpr

/-! ## Depth -/

/-- A text that does not leave a bracket open. The scan may even leave more brackets than there are,
since it takes the end of an arrow for one. -/
def Lowers (s : List Char) : Prop := ∀ d, depthOver d s ≤ d

theorem composes_lowers : Composes Lowers where
  nil := fun d => Nat.le_refl d
  append := by
    intro s t hs ht d
    rw [depthOver_append]
    exact (ht _).trans (hs d)
  inert := by
    intro c ho hc _ d
    simp [depthAfter_of_inert ho hc]
  enclosed := by
    intro o c s ho hc hs d
    have hinner := hs (d + 1)
    simp only [List.cons_append, depthOver_cons, depthOver_append, depthOver_nil,
      depthAfter_of_opens ho, depthAfter_of_closes hc]
    omega

theorem lowers_arrow : Lowers ['=', '>'] := by
  intro d
  have hsign : depthAfter d '=' = d := depthAfter_of_inert rfl rfl d
  have hend : depthAfter d '>' = d - 1 := depthAfter_of_closes rfl d
  simp [hsign, hend]

theorem Lowers.depthOver_zero {s : List Char} (h : Lowers s) : depthOver 0 s = 0 :=
  Nat.le_zero.mp (h 0)

/-! ## Functions -/

namespace TypeExpr

/-- What stands before the result of a function type, with the parameters of all functions that are
results themselves. -/
def front : TypeExpr → List Char
  | .function ps r =>
    ('(' :: comma.intercalate (TypeField.texts ps) ++ [')']) ++ (arrow ++ r.front)
  | _ => []

/-- What a function type comes to behind all of its arrows. -/
def result : TypeExpr → TypeExpr
  | .function _ r => r.result
  | t => t

theorem text_eq_front (t : TypeExpr) : t.text = t.front ++ t.result.text := by
  induction t using TypeExpr.induct with
  | _ t ih =>
    cases t with
    | function ps r =>
      rw [text, front, result, ih r (by simp [parts])]
      simp only [List.append_assoc]
    | _ => rfl

theorem result_ne_function (t : TypeExpr) (ps : List TypeField) (r : TypeExpr) :
    t.result ≠ .function ps r := by
  induction t using TypeExpr.induct with
  | _ t ih =>
    cases t with
    | function ps' r' => exact ih r' (by simp [parts])
    | _ =>
      intro h
      cases h

end TypeExpr

theorem Composes.front {P : List Char → Prop} (h : Composes P) (harrow : P ['=', '>'])
    (t : TypeExpr) : P t.front := by
  induction t using TypeExpr.induct with
  | _ t ih =>
    cases t with
    | function ps r =>
      rw [TypeExpr.front]
      refine h.append (h.enclosed (by decide) (by decide) (h.fields (h.inert_text (by decide)) ?_))
        (h.append (h.arrow harrow) (ih r (by simp [TypeExpr.parts])))
      exact fun s _ => h.text s (Or.inl harrow)
    | _ => exact h.nil

namespace TypeExpr

theorem front_cons (ps : List TypeField) (r : TypeExpr) :
    ∃ s, (function ps r).front = '(' :: s := by
  rw [front]
  exact ⟨_, rfl⟩

theorem closing_front (ps : List TypeField) (r : TypeExpr) : Closing (function ps r).front := by
  induction r using TypeExpr.induct generalizing ps with
  | _ r ih =>
    have hend : Closing [' ', '=', '>'] := .of_closes (by decide) [' ', '=']
    have harrow : Closing arrow := hend.append (x := [' ']) (by decide)
    rw [front]
    refine Closing.behind ?_ _
    cases r with
    | function ps' r' => exact (ih r' (by simp [parts]) ps').behind _
    | _ => simpa [front] using harrow

/-- A function type with a member of a union for its result has brackets at both ends. -/
theorem bracketEnds_front (ps : List TypeField) (r m : TypeExpr) :
    BracketEnds ((function ps r).front ++ m.member) := by
  refine ⟨?_, ?_⟩
  · obtain ⟨s, hs⟩ := front_cons ps r
    rw [hs]
    exact .of_opens (by decide) _
  · by_cases hn : ∃ n, m = .name n
    · obtain ⟨n, rfl⟩ := hn
      exact (closing_front ps r).append (bar_notMem_name n)
    · exact (m.bracketEnds_member fun n hn' => hn ⟨n, hn'⟩).closing.behind _

theorem textEnds_front (ps : List TypeField) (r m : TypeExpr) :
    TextEnds ((function ps r).front ++ m.member) where
  head := by
    obtain ⟨s, hs⟩ := front_cons ps r
    rw [hs]
    exact ⟨'(', s ++ m.member, rfl, by decide, by decide⟩
  last := by
    obtain ⟨s, c, hs, hc, ho⟩ := m.textEnds_member.last
    exact ⟨(function ps r).front ++ s, c, by rw [hs, List.append_assoc], hc, ho⟩

end TypeExpr

/-! ## Bars -/

theorem beq_bar_of_bracket {c : Char} (h : opens c = true ∨ closes c = true) :
    (c == '|') = false := by
  rw [beq_eq_false_iff_ne]
  exact (ne_bar_of_bracket h).symm

/-- A text that leaves the depth as it was and shows no bar in brackets. -/
def Level (s : List Char) : Prop := ∀ d, depthOver d s = d ∧ showsBar (d + 1) s = false

theorem composes_level : Composes Level where
  nil := fun d => ⟨rfl, rfl⟩
  append := by
    intro s t hs ht d
    rw [depthOver_append, showsBar_append, (hs d).1, (hs d).2, (hs (d + 1)).1]
    exact ⟨(ht d).1, (ht d).2⟩
  inert := by
    intro c ho hc _ d
    simp [depthAfter_of_inert ho hc]
  enclosed := by
    intro o c s ho hc hs d
    simp [depthAfter_of_opens ho, depthAfter_of_closes hc, (hs _).1, (hs _).2,
      beq_bar_of_bracket (Or.inl ho), beq_bar_of_bracket (Or.inr hc)]

/-- Brackets around such a text hide all bars. -/
theorem Level.showsBar_enclosed {o c : Char} {s : List Char} (hs : Level s) (ho : opens o = true)
    (hc : closes c = true) : showsBar 0 (o :: s ++ [c]) = false := by
  simp [beq_bar_of_bracket (Or.inl ho), beq_bar_of_bracket (Or.inr hc), depthAfter_of_opens ho,
    (hs 1).1, (hs 0).2]

namespace TypeExpr

/-- Without arrows the scan sees no bar in a member of a union. -/
theorem showsBar_member {t : TypeExpr} (h : t.ArrowFree) : showsBar 0 t.member = false := by
  have happend : ∀ {s s'}, showsBar 0 s = false → Level s → showsBar 0 s' = false →
      showsBar 0 (s ++ s') = false := by
    intro s s' hs hlevel hs'
    rw [showsBar_append, hs, (hlevel 0).1, hs', Bool.or_false]
  have hword : Level readonlyWord := composes_level.inert_text (by decide)
  induction t using TypeExpr.induct with
  | _ t ih =>
    have hparts : ∀ s ∈ t.parts, Level s.text :=
      fun s hs => composes_level.text s (Or.inr (h.of_mem_parts hs))
    have hoperand : ∀ e ∈ t.parts, showsBar 0 (e.operand ++ ['[', ']']) = false := by
      intro e he
      refine happend ?_ (composes_level.inParens _ (hparts e he)) (by decide)
      rcases e.operand_cases with ⟨-, hoperand⟩ | ⟨-, -, hoperand⟩
      · rw [hoperand]
        exact (hparts e he).showsBar_enclosed (by decide) (by decide)
      · rw [hoperand]
        exact ih e he (h.of_mem_parts he)
    cases t with
    | name n => exact showsBar_of_notMem (bar_notMem_name n) 0
    | generic n first others =>
      have harguments : Level (comma.intercalate (texts (first :: others))) :=
        composes_level.sequence hparts
      rw [member_of_closed rfl, text]
      exact happend (showsBar_of_notMem (bar_notMem_name n) 0) (composes_level.name n)
        (harguments.showsBar_enclosed (by decide) (by decide))
    | array e =>
      rw [member_of_closed rfl, text_array]
      exact hoperand e List.mem_cons_self
    | readonlyArray e =>
      rw [member_of_closed rfl, text_readonlyArray]
      exact happend (by decide) hword (hoperand e List.mem_cons_self)
    | tuple es =>
      rw [member_of_closed rfl, text]
      exact (composes_level.sequence hparts).showsBar_enclosed (by decide) (by decide)
    | readonlyTuple es =>
      rw [member_of_closed rfl, text]
      exact happend (by decide) hword
        ((composes_level.sequence hparts).showsBar_enclosed (by decide) (by decide))
    | object fs =>
      have hfields : Level (semicolon.intercalate (TypeField.texts fs)) :=
        composes_level.fields (composes_level.inert_text (by decide)) hparts
      rw [member_of_closed rfl, text]
      exact hfields.showsBar_enclosed (by decide) (by decide)
    | function | union =>
      rw [member_of_open rfl]
      exact (composes_level.text _ (Or.inr h)).showsBar_enclosed (by decide) (by decide)

end TypeExpr

end ComponentLint.Types
