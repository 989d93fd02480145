import ComponentLint.Proofs.BracketScan

/-!
# Types and how they are written

The types that are built from names, generic applications, arrays, tuples, function types, object
types and unions, with the text that a printer of such types writes. Parentheses stand where the
grammar needs them and nowhere else. What the scans over a type's text do is read off the parts of
the type: a property of texts that is kept by appending and by brackets around a text holds for
every type (`Composes.text`).
-/

namespace ComponentLint.Types

/-! ## Types -/

/-- The characters that names are made of. They have no meaning of their own in a type. -/
def isPlain (c : Char) : Bool :=
  !(Text.isBlank c || opens c || closes c || c == '|' || c == '=')

/-- A name of a type, a parameter or a member. -/
structure TypeName where
  text : List Char
  ne_nil : text ≠ []
  plain : text.all isPlain = true

mutual

/-- A type. -/
inductive TypeExpr where
  | name (n : TypeName)
  | generic (n : TypeName) (first : TypeExpr) (others : List TypeExpr)
  | array (element : TypeExpr)
  | readonlyArray (element : TypeExpr)
  | tuple (elements : List TypeExpr)
  | readonlyTuple (elements : List TypeExpr)
  | function (parameters : List TypeField) (result : TypeExpr)
  | object (members : List TypeField)
  | union (first second : TypeExpr) (others : List TypeExpr)

/-- A parameter or member with its type. -/
inductive TypeField where
  | mk (name : TypeName) (type : TypeExpr)

end

/-- The type of a parameter or member. -/
def TypeField.type : TypeField → TypeExpr
  | .mk _ t => t

namespace TypeExpr

/-- Function types and unions, which have to stand in parentheses as members of a union. -/
def isOpen : TypeExpr → Bool
  | .function _ _ | .union _ _ _ => true
  | _ => false

/-- Types that begin with `readonly`. -/
def isReadonly : TypeExpr → Bool
  | .readonlyArray _ | .readonlyTuple _ => true
  | _ => false

/-- The types that stand directly in a type. -/
def parts : TypeExpr → List TypeExpr
  | .name _ => []
  | .generic _ first others => first :: others
  | .array e | .readonlyArray e => [e]
  | .tuple es | .readonlyTuple es => es
  | .function ps r => ps.map TypeField.type ++ [r]
  | .object fs => fs.map TypeField.type
  | .union first second others => first :: second :: others

end TypeExpr

/-! ## Texts -/

/-- The word in front of arrays and tuples that cannot be changed. -/
def readonlyWord : List Char := "readonly ".toList

/-- What stands between types in brackets. -/
def comma : List Char := ", ".toList

/-- What stands between the members of an object type. -/
def semicolon : List Char := "; ".toList

/-- What stands between a name and its type. -/
def colon : List Char := ": ".toList

/-- What stands between the parameters and the result of a function type. -/
def arrow : List Char := " => ".toList

/-- What stands between the members of a union. -/
def bar : List Char := " | ".toList

/-- A text in parentheses if they are needed. -/
def inParens (needed : Bool) (s : List Char) : List Char :=
  if needed then '(' :: s ++ [')'] else s

mutual

/-- The text of a type. -/
def TypeExpr.text : TypeExpr → List Char
  | .name n => n.text
  | .generic n first others =>
    n.text ++ ('<' :: comma.intercalate (first.text :: TypeExpr.texts others) ++ ['>'])
  | .array e => inParens (e.isOpen || e.isReadonly) e.text ++ ['[', ']']
  | .readonlyArray e =>
    readonlyWord ++ (inParens (e.isOpen || e.isReadonly) e.text ++ ['[', ']'])
  | .tuple es => '[' :: comma.intercalate (TypeExpr.texts es) ++ [']']
  | .readonlyTuple es => readonlyWord ++ ('[' :: comma.intercalate (TypeExpr.texts es) ++ [']'])
  | .function ps r =>
    ('(' :: comma.intercalate (TypeField.texts ps) ++ [')']) ++ (arrow ++ r.text)
  | .object fs => '\x7b' :: semicolon.intercalate (TypeField.texts fs) ++ ['\x7d']
  | .union first second others =>
    bar.intercalate (inParens first.isOpen first.text ::
      inParens second.isOpen second.text :: TypeExpr.memberTexts others)

/-- The texts of some types. -/
def TypeExpr.texts : List TypeExpr → List (List Char)
  | [] => []
  | t :: ts => t.text :: TypeExpr.texts ts

/-- The texts of some types as members of a union. -/
def TypeExpr.memberTexts : List TypeExpr → List (List Char)
  | [] => []
  | t :: ts => inParens t.isOpen t.text :: TypeExpr.memberTexts ts

/-- The text of a parameter or member. -/
def TypeField.text : TypeField → List Char
  | .mk n t => n.text ++ (colon ++ t.text)

/-- The texts of some parameters or members. -/
def TypeField.texts : List TypeField → List (List Char)
  | [] => []
  | f :: fs => f.text :: TypeField.texts fs

end

namespace TypeExpr

/-- The text of a type as a member of a union. -/
def member (t : TypeExpr) : List Char := inParens t.isOpen t.text

/-- The text of a type in front of the brackets of an array. -/
def operand (t : TypeExpr) : List Char := inParens (t.isOpen || t.isReadonly) t.text

theorem text_array (e : TypeExpr) : (array e).text = e.operand ++ ['[', ']'] := by
  rw [text, operand]

theorem text_readonlyArray (e : TypeExpr) :
    (readonlyArray e).text = readonlyWord ++ (e.operand ++ ['[', ']']) := by
  rw [text, operand]

theorem texts_eq_map (ts : List TypeExpr) : texts ts = ts.map text := by
  induction ts with
  | nil => rfl
  | cons t ts ih => rw [texts, ih, List.map_cons]

theorem memberTexts_eq_map (ts : List TypeExpr) : memberTexts ts = ts.map member := by
  induction ts with
  | nil => rfl
  | cons t ts ih => rw [memberTexts, ih, List.map_cons, member]

theorem fieldTexts_eq_map (fs : List TypeField) : TypeField.texts fs = fs.map TypeField.text := by
  induction fs with
  | nil => rfl
  | cons f fs ih => rw [TypeField.texts, ih, List.map_cons]

theorem text_union (first second : TypeExpr) (others : List TypeExpr) :
    (union first second others).text =
      bar.intercalate ((first :: second :: others).map member) := by
  rw [text, memberTexts_eq_map]
  rfl

theorem sizeOf_lt_of_mem_fields {fs : List TypeField} {s : TypeExpr}
    (h : s ∈ fs.map TypeField.type) : sizeOf s < sizeOf fs := by
  obtain ⟨⟨n, t⟩, hf, rfl⟩ := List.mem_map.mp h
  have hlt := List.sizeOf_lt_of_mem hf
  simp only [TypeField.mk.sizeOf_spec] at hlt
  rw [TypeField.type]
  omega

theorem sizeOf_lt_of_mem_parts {t s : TypeExpr} (h : s ∈ t.parts) : sizeOf s < sizeOf t := by
  cases t with
  | name n => cases h
  | generic n first others =>
    rcases List.mem_cons.mp h with rfl | h
    · simp only [generic.sizeOf_spec]
      omega
    · have hlt := List.sizeOf_lt_of_mem h
      simp only [generic.sizeOf_spec]
      omega
  | array e =>
    obtain rfl := List.mem_singleton.mp h
    simp
  | readonlyArray e =>
    obtain rfl := List.mem_singleton.mp h
    simp
  | tuple es =>
    have hlt : sizeOf s < sizeOf es := List.sizeOf_lt_of_mem h
    simp only [tuple.sizeOf_spec]
    omega
  | readonlyTuple es =>
    have hlt : sizeOf s < sizeOf es := List.sizeOf_lt_of_mem h
    simp only [readonlyTuple.sizeOf_spec]
    omega
  | function ps r =>
    simp only [function.sizeOf_spec]
    rcases List.mem_append.mp h with h | h
    · have hlt := sizeOf_lt_of_mem_fields h
      omega
    · obtain rfl := List.mem_singleton.mp h
      omega
  | object fs =>
    have hlt := sizeOf_lt_of_mem_fields h
    simp only [object.sizeOf_spec]
    omega
  | union first second others =>
    simp only [union.sizeOf_spec]
    rcases List.mem_cons.mp h with rfl | h
    · omega
    · rcases List.mem_cons.mp h with rfl | h
      · omega
      · have hlt := List.sizeOf_lt_of_mem h
        omega

/-- Induction over types: what holds of a type if it holds of its parts holds of every type. -/
theorem induct {P : TypeExpr → Prop} (h : ∀ t, (∀ s ∈ t.parts, P s) → P t) (t : TypeExpr) : P t :=
  h t fun s hs =>
    have := sizeOf_lt_of_mem_parts hs
    induct h s
termination_by sizeOf t

/-- There is no function type in a type. -/
inductive ArrowFree : TypeExpr → Prop
  | intro {t : TypeExpr} (hhere : ∀ ps r, t ≠ .function ps r) (hparts : ∀ s ∈ t.parts, ArrowFree s) :
      ArrowFree t

theorem ArrowFree.of_mem_parts {t s : TypeExpr} (h : ArrowFree t) (hs : s ∈ t.parts) :
    ArrowFree s := by
  cases h with
  | intro _ hparts => exact hparts s hs

end TypeExpr

/-! ## Properties of texts -/

/-- The characters that none of the scans take note of, bars excepted. -/
def isInert (c : Char) : Bool := !(opens c || closes c || c == '=')

/-- A property that is kept by appending texts and by brackets around a text. -/
structure Composes (P : List Char → Prop) : Prop where
  nil : P []
  append : ∀ {s t}, P s → P t → P (s ++ t)
  inert : ∀ {c}, opens c = false → closes c = false → c ≠ '=' → P [c]
  enclosed : ∀ {o c s}, opens o = true → closes c = true → P s → P (o :: s ++ [c])

namespace Composes

variable {P : List Char → Prop}

theorem inert_text (h : Composes P) {s : List Char} (hs : s.all isInert = true) : P s := by
  induction s with
  | nil => exact h.nil
  | cons c s ih =>
    rw [List.all_cons, Bool.and_eq_true] at hs
    obtain ⟨hinert, hs⟩ := hs
    simp only [isInert, Bool.not_eq_true', Bool.or_eq_false_iff, beq_eq_false_iff_ne] at hinert
    exact h.append (h.inert hinert.1.1 hinert.1.2 hinert.2) (ih hs)

theorem name (h : Composes P) (n : TypeName) : P n.text := by
  refine h.inert_text (List.all_eq_true.mpr fun c hc => ?_)
  have hplain := List.all_eq_true.mp n.plain c hc
  simp only [isPlain, Bool.not_eq_true', Bool.or_eq_false_iff] at hplain
  simp [isInert, hplain.1.1.1.2, hplain.1.1.2, hplain.2]

theorem intercalate (h : Composes P) {separator : List Char} (hseparator : P separator)
    {texts : List (List Char)} (htexts : ∀ s ∈ texts, P s) : P (separator.intercalate texts) := by
  induction texts with
  | nil => exact h.nil
  | cons s texts ih =>
    cases texts with
    | nil => simpa using htexts s List.mem_cons_self
    | cons s' texts =>
      rw [List.intercalate_cons_cons]
      exact h.append (h.append (htexts s List.mem_cons_self) hseparator)
        (ih fun x hx => htexts x (List.mem_cons_of_mem s hx))

theorem inParens (h : Composes P) (needed : Bool) {s : List Char} (hs : P s) :
    P (inParens needed s) := by
  cases needed with
  | false => exact hs
  | true => exact h.enclosed (by decide) (by decide) hs

theorem field (h : Composes P) {f : TypeField} (hf : P f.type.text) : P f.text := by
  obtain ⟨n, t⟩ := f
  rw [TypeField.text]
  exact h.append (h.name n) (h.append (h.inert_text (by decide)) hf)

theorem sequence (h : Composes P) {ts : List TypeExpr} (hts : ∀ s ∈ ts, P s.text) :
    P (comma.intercalate (TypeExpr.texts ts)) := by
  rw [TypeExpr.texts_eq_map]
  refine h.intercalate (h.inert_text (by decide)) fun s hs => ?_
  obtain ⟨t, ht, rfl⟩ := List.mem_map.mp hs
  exact hts t ht

theorem fields (h : Composes P) {separator : List Char} (hseparator : P separator)
    {fs : List TypeField} (hfs : ∀ s ∈ fs.map TypeField.type, P s.text) :
    P (separator.intercalate (TypeField.texts fs)) := by
  rw [TypeExpr.fieldTexts_eq_map]
  refine h.intercalate hseparator fun s hs => ?_
  obtain ⟨f, hf, rfl⟩ := List.mem_map.mp hs
  exact h.field (hfs f.type (List.mem_map_of_mem hf))

theorem arrow (h : Composes P) (harrow : P ['=', '>']) : P arrow :=
  h.append (h.inert (c := ' ') (by decide) (by decide) (by decide))
    (h.append harrow (h.inert (c := ' ') (by decide) (by decide) (by decide)))

/-- Such a property holds for the text of a type if it holds for arrows or there are none. -/
theorem text (h : Composes P) (t : TypeExpr) (harrow : P ['=', '>'] ∨ t.ArrowFree) :
    P t.text := by
  induction t using TypeExpr.induct with
  | _ t ih =>
    have hparts : ∀ s ∈ t.parts, P s.text := by
      intro s hs
      exact ih s hs (harrow.imp_right fun hfree => hfree.of_mem_parts hs)
    have hreadonly : P readonlyWord := h.inert_text (by decide)
    have hempty : P ['[', ']'] := h.enclosed (s := []) (by decide) (by decide) h.nil
    cases t with
    | name n => exact h.name n
    | generic n first others =>
      have harguments : P (comma.intercalate (TypeExpr.texts (first :: others))) :=
        h.sequence hparts
      rw [TypeExpr.text]
      exact h.append (h.name n) (h.enclosed (by decide) (by decide) harguments)
    | array e =>
      rw [TypeExpr.text_array]
      exact h.append (h.inParens _ (hparts e List.mem_cons_self)) hempty
    | readonlyArray e =>
      rw [TypeExpr.text_readonlyArray]
      exact h.append hreadonly (h.append (h.inParens _ (hparts e List.mem_cons_self)) hempty)
    | tuple es =>
      rw [TypeExpr.text]
      exact h.enclosed (by decide) (by decide) (h.sequence hparts)
    | readonlyTuple es =>
      rw [TypeExpr.text]
      exact h.append hreadonly (h.enclosed (by decide) (by decide) (h.sequence hparts))
    | function ps r =>
      have harrow : P ['=', '>'] := by
        rcases harrow with harrow | ⟨hhere, -⟩
        · exact harrow
        · exact absurd rfl (hhere ps r)
      have hps : ∀ s ∈ ps.map TypeField.type, P s.text :=
        fun s hs => hparts s (List.mem_append_left _ hs)
      rw [TypeExpr.text]
      exact h.append (h.enclosed (by decide) (by decide) (h.fields (h.inert_text (by decide)) hps))
        (h.append (h.arrow harrow) (hparts r (by simp [TypeExpr.parts])))
    | object fs =>
      rw [TypeExpr.text]
      exact h.enclosed (by decide) (by decide) (h.fields (h.inert_text (by decide)) hparts)
    | union first second others =>
      rw [TypeExpr.text_union]
      refine h.intercalate (h.inert_text (by decide)) fun s hs => ?_
      obtain ⟨t', ht', rfl⟩ := List.mem_map.mp hs
      exact h.inParens _ (hparts t' ht')

end Composes

end ComponentLint.Types
