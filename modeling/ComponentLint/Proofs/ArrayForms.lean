import ComponentLint.Proofs.TypeEdges

/-!
# Forms of types and the ends of their texts

Which types are arrays or tuples by their outermost form (`TypeExpr.isArrayForm`), and which texts
look like one by their two ends (`SeemsArray`). The text of a member of a union looks like an array
if it is one, except for tuples with `readonly` (`TypeExpr.seemsArray_member_iff`). The text of a
whole union looks like one if its first and its last member say so together
(`TypeExpr.seemsArray_union_iff`).
-/

namespace ComponentLint.Types

/-- The kinds of types that are arrays. -/
def Kind.isArray : Kind → Bool
  | .array | .readonlyArray | .tuple => true
  | _ => false

namespace TypeExpr

/-! ## Forms of types -/

/-- The members of a union; any other type is its own only member. -/
def members : TypeExpr → List TypeExpr
  | .union first second others => first :: second :: others
  | t => [t]

/-- The types of missing values. -/
def isMissing : TypeExpr → Bool
  | .name n => Types.isMissing n.text
  | _ => false

/-- The members that are not missing values. -/
def remaining (t : TypeExpr) : List TypeExpr := t.members.filter (!·.isMissing)

/-- `Array<…>` and `ReadonlyArray<…>`. -/
def isGenericArray : TypeExpr → Bool
  | .generic n _ _ => n.text == "Array".toList || n.text == "ReadonlyArray".toList
  | _ => false

/-- `Array` without arguments. -/
def isBareArray : TypeExpr → Bool
  | .name n => n.text == "Array".toList
  | _ => false

/-- Tuples without `readonly`. -/
def isTuple : TypeExpr → Bool
  | .tuple _ => true
  | _ => false

/-- Arrays and tuples, with `readonly` or without. -/
def endsSquare : TypeExpr → Bool
  | .array _ | .readonlyArray _ | .tuple _ | .readonlyTuple _ => true
  | _ => false

/-- Arrays, and tuples without elements. -/
def endsEmpty : TypeExpr → Bool
  | .array _ | .readonlyArray _ => true
  | .tuple es | .readonlyTuple es => es.isEmpty
  | _ => false

/-- The types whose outermost form is that of an array or a tuple. -/
def isArrayForm (t : TypeExpr) : Bool := t.endsSquare || t.isGenericArray || t.isBareArray

/-- The types that are known for arrays or tuples by themselves. -/
def isRecognised (t : TypeExpr) : Bool :=
  t.endsEmpty || t.isTuple || t.isGenericArray || t.isBareArray

/-- The type that the text of a type begins with. -/
def head : TypeExpr → TypeExpr
  | .array e => if e.isOpen || e.isReadonly then .array e else e.head
  | t => t

/-- A text that begins with the first type and ends with the last looks like an array. -/
def EdgesPass (first last : TypeExpr) : Prop :=
  last.endsEmpty = true ∨ first.head.isGenericArray = true ∨
    (first.head.isTuple = true ∧ last.endsSquare = true)

end TypeExpr

/-! ## The two ends of a text -/

/-- A text that looks like an array or a tuple. -/
def SeemsArray (s : List Char) : Prop :=
  ['[', ']'] <:+ s ∨ ("Array<".toList <+: s ∨ "ReadonlyArray<".toList <+: s) ∨
    s = "Array".toList ∨ (['['] <+: s ∧ [']'] <:+ s)

theorem isArray_kindOf_iff (s : List Char) : (kindOf s).isArray = true ↔ SeemsArray s := by
  have hends : Text.endsWith s "[]".toList = true ↔ ['[', ']'] <:+ s := Text.endsWith_iff
  unfold kindOf
  split_ifs with hreadonly harray htuple hprimitive
  · simp only [Kind.isArray, true_iff]
    simp only [Bool.or_eq_true, Bool.and_eq_true] at hreadonly
    rcases hreadonly with ⟨-, h⟩ | h
    · exact Or.inl (hends.mp h)
    · exact Or.inr (Or.inl (Or.inr (Text.beginsWith_iff.mp h)))
  · simp only [Kind.isArray, true_iff]
    simp only [Bool.or_eq_true, beq_iff_eq] at harray
    rcases harray with (h | h) | h
    · exact Or.inl (hends.mp h)
    · exact Or.inr (Or.inl (Or.inl (Text.beginsWith_iff.mp h)))
    · exact Or.inr (Or.inr (Or.inl h))
  · simp only [Kind.isArray, true_iff]
    rw [Bool.and_eq_true] at htuple
    exact Or.inr (Or.inr (Or.inr
      ⟨Text.beginsWith_iff.mp htuple.1, Text.endsWith_iff.mp htuple.2⟩))
  all_goals
    simp only [Kind.isArray, Bool.false_eq_true, false_iff]
    simp only [Bool.or_eq_true, Bool.and_eq_true, beq_iff_eq, hends, Text.beginsWith_iff,
      Text.endsWith_iff, not_or] at hreadonly harray htuple
    rintro (h | (h | h) | h | h)
    · exact harray.1.1 h
    · exact harray.1.2 h
    · exact hreadonly.2 h
    · exact harray.2 h
    · exact htuple h

/-- What follows a character that does not occur in a beginning has no part in it. -/
theorem prefix_append_cons_iff {w m s : List Char} {c : Char} (hc : c ∉ w) :
    w <+: m ++ c :: s ↔ w <+: m := by
  constructor
  · intro h
    rcases Nat.le_total w.length m.length with hle | hle
    · exact List.prefix_of_prefix_length_le h (List.prefix_append m _) hle
    · have hm : m <+: w := List.prefix_of_prefix_length_le (List.prefix_append m _) h hle
      obtain ⟨r, rfl⟩ := hm
      rw [List.prefix_append_right_inj] at h
      cases r with
      | nil => simp
      | cons e r =>
        rw [List.cons_prefix_cons] at h
        exact absurd (by simp [h.1]) hc
  · exact fun h => h.trans (List.prefix_append m _)

theorem suffix_append_iff {w m : List Char} (x : List Char) (hle : w.length ≤ m.length) :
    w <:+ x ++ m ↔ w <:+ m :=
  ⟨fun h => List.suffix_of_suffix_length_le h (List.suffix_append x m) hle,
    fun h => h.trans (List.suffix_append x m)⟩

theorem concat_suffix_concat_iff {w x : List Char} {a c : Char} :
    w ++ [a] <:+ x ++ [c] ↔ a = c ∧ w <:+ x := by
  rw [← List.reverse_prefix, List.reverse_concat, List.reverse_concat, List.cons_prefix_cons,
    List.reverse_prefix]

namespace TextEnds

variable {s : List Char}

theorem square_suffix_append (h : TextEnds s) (x : List Char) : [']'] <:+ x ++ s ↔ [']'] <:+ s :=
  suffix_append_iff x (List.length_pos_iff.mpr h.ne_nil)

/-- The brackets of an array stand in one text, since no text begins with the second. -/
theorem brackets_suffix_append (h : TextEnds s) (x : List Char) :
    ['[', ']'] <:+ x ++ s ↔ ['[', ']'] <:+ s := by
  obtain ⟨c, r, rfl, -, hc⟩ := h.head
  cases r with
  | nil =>
    have hne : ']' ≠ c := by
      rintro rfl
      cases hc
    have hno : ∀ x : List Char, ¬ ['[', ']'] <:+ x ++ [c] := by
      intro x hsuffix
      exact hne (concat_suffix_concat_iff (w := ['[']).mp hsuffix).1
    exact ⟨fun h => absurd h (hno x), fun h => absurd h (hno [])⟩
  | cons e r => exact suffix_append_iff x (by simp)

/-- A text in brackets ends like an array only if there is nothing in the brackets. -/
theorem brackets_suffix_enclosed (h : s = [] ∨ TextEnds s) (x : List Char) :
    ['[', ']'] <:+ x ++ ('[' :: s ++ [']']) ↔ s = [] := by
  rw [← List.append_assoc]
  have hlast : ['[', ']'] <:+ x ++ '[' :: s ++ [']'] ↔ [] ++ ['['] <:+ x ++ '[' :: s := by
    rw [show ['[', ']'] = ['['] ++ [']'] from rfl, concat_suffix_concat_iff]
    simp
  rw [hlast]
  rcases h with rfl | h
  · simp
  · obtain ⟨r, c, rfl, -, hc⟩ := h.last
    rw [← List.cons_append, ← List.append_assoc, concat_suffix_concat_iff]
    constructor
    · rintro ⟨rfl, -⟩
      cases hc
    · intro hnil
      simp at hnil

end TextEnds

namespace TypeExpr

/-! ## The two ends of a type -/

theorem square_suffix_iff (t : TypeExpr) : [']'] <:+ t.member ↔ t.endsSquare = true := by
  have hlast : ∀ {s : List Char} {c : Char}, [']'] <:+ s ++ [c] ↔ ']' = c := by
    intro s c
    rw [← List.nil_append [']'], concat_suffix_concat_iff]
    simp
  cases t with
  | name n =>
    refine iff_of_false (fun h => ?_) Bool.false_ne_true
    exact notMem_name n (by decide) (h.subset (List.mem_singleton_self ']'))
  | generic n first others =>
    rw [member_of_closed rfl, text, ← List.append_assoc, hlast]
    exact iff_of_false (by decide) Bool.false_ne_true
  | array e =>
    rw [member_of_closed rfl, text]
    exact iff_of_true (List.suffix_append_of_suffix (by decide)) rfl
  | readonlyArray e =>
    rw [member_of_closed rfl, text, ← List.append_assoc]
    exact iff_of_true (List.suffix_append_of_suffix (by decide)) rfl
  | tuple es =>
    rw [member_of_closed rfl, text, hlast]
    exact iff_of_true rfl rfl
  | readonlyTuple es =>
    rw [member_of_closed rfl, text, ← List.append_assoc, hlast]
    exact iff_of_true rfl rfl
  | object fs =>
    rw [member_of_closed rfl, text, hlast]
    exact iff_of_false (by decide) Bool.false_ne_true
  | function | union =>
    rw [member_of_open rfl, hlast]
    exact iff_of_false (by decide) Bool.false_ne_true

theorem sequence_cases (es : List TypeExpr) :
    (es.isEmpty = true ∧ comma.intercalate (texts es) = []) ∨
      (es.isEmpty = false ∧ TextEnds (comma.intercalate (texts es))) := by
  cases es with
  | nil => exact Or.inl ⟨rfl, rfl⟩
  | cons e es =>
    refine Or.inr ⟨rfl, ?_⟩
    rw [texts_eq_map]
    refine TextEnds.intercalate (by simp) (fun s hs => ?_) comma
    obtain ⟨e', -, rfl⟩ := List.mem_map.mp hs
    exact e'.textEnds

theorem brackets_suffix_tuple_iff (es : List TypeExpr) (x : List Char) :
    ['[', ']'] <:+ x ++ ('[' :: comma.intercalate (texts es) ++ [']']) ↔ es.isEmpty = true := by
  rcases sequence_cases es with ⟨hes, hnil⟩ | ⟨hes, hends⟩
  · rw [TextEnds.brackets_suffix_enclosed (Or.inl hnil)]
    exact iff_of_true hnil hes
  · rw [TextEnds.brackets_suffix_enclosed (Or.inr hends), hes]
    exact iff_of_false hends.ne_nil Bool.false_ne_true

theorem brackets_suffix_iff (t : TypeExpr) : ['[', ']'] <:+ t.member ↔ t.endsEmpty = true := by
  have hsquare : ['[', ']'] <:+ t.member → t.endsSquare = true := by
    intro h
    exact t.square_suffix_iff.mp (List.IsSuffix.trans (by decide) h)
  cases t with
  | array e =>
    rw [member_of_closed rfl, text]
    exact iff_of_true (List.suffix_append _ _) rfl
  | readonlyArray e =>
    rw [member_of_closed rfl, text, ← List.append_assoc]
    exact iff_of_true (List.suffix_append _ _) rfl
  | tuple es =>
    rw [member_of_closed rfl, text]
    exact brackets_suffix_tuple_iff es []
  | readonlyTuple es =>
    rw [member_of_closed rfl, text]
    exact brackets_suffix_tuple_iff es readonlyWord
  | _ => exact iff_of_false (fun h => by cases hsquare h) (by simp [endsEmpty])

theorem not_prefix_of_not_plain {k s : List Char} {o : Char} (hne : k ≠ [])
    (hk : k.all isPlain = true) (ho : isPlain o = false) : ¬ k ++ ['<'] <+: o :: s := by
  obtain ⟨c, k, rfl⟩ := List.exists_cons_of_ne_nil hne
  rw [List.cons_append, List.cons_prefix_cons]
  rintro ⟨rfl, -⟩
  rw [List.all_eq_true.mp hk c List.mem_cons_self] at ho
  cases ho

/-- A word in front of an angle bracket is all of the name that stands there. -/
theorem prefix_generic_iff {k m s : List Char} (hk : '<' ∉ k) (hm : '<' ∉ m) :
    k ++ ['<'] <+: m ++ '<' :: s ↔ k = m := by
  constructor
  · rintro ⟨z, hz⟩
    rw [List.append_assoc] at hz
    rcases List.append_eq_append_iff.mp hz with ⟨r, rfl, hr⟩ | ⟨r, rfl, hr⟩
    · cases r with
      | nil => simp
      | cons c r =>
        obtain ⟨rfl, -⟩ := List.cons.inj hr
        exact absurd (by simp) hm
    · cases r with
      | nil => simp
      | cons c r =>
        obtain ⟨rfl, -⟩ := List.cons.inj hr
        exact absurd (by simp) hk
  · rintro rfl
    exact ⟨s, by simp⟩

theorem word_prefix_iff {k : List Char} (hne : k ≠ []) (hk : k.all isPlain = true)
    (t : TypeExpr) :
    k ++ ['<'] <+: t.member ↔ ∃ n first others, t.head = .generic n first others ∧ n.text = k := by
  have hnotMem : ∀ c, isPlain c = false → c ∉ k := by
    intro c hc h
    rw [List.all_eq_true.mp hk c h] at hc
    cases hc
  have hbracket : ∀ {o s}, isPlain o = false → ¬ k ++ ['<'] <+: o :: s :=
    not_prefix_of_not_plain hne hk
  have hreadonly : ∀ s, ¬ k ++ ['<'] <+: readonlyWord ++ s := by
    intro s h
    have hblank : ' ' ∉ k ++ ['<'] := by simpa using hnotMem ' ' (by decide)
    have hword : k ++ ['<'] <+: "readonly".toList := (prefix_append_cons_iff hblank).mp h
    have hangle : '<' ∈ "readonly".toList := hword.subset (by simp)
    exact absurd hangle (by decide)
  induction t using TypeExpr.induct with
  | _ t ih =>
    cases t with
    | name n =>
      refine iff_of_false (fun h => ?_) (by simp [head])
      have hangle : '<' ∈ n.text := h.subset (by simp)
      exact notMem_name n (by decide) hangle
    | generic n first others =>
      rw [member_of_closed rfl, text, List.cons_append,
        prefix_generic_iff (hnotMem '<' (by decide)) (notMem_name n (by decide))]
      simp [head, eq_comm]
    | array e =>
      rw [member_of_closed rfl, text_array, head]
      rcases e.operand_cases with ⟨hparens, hoperand⟩ | ⟨hparens, -, hoperand⟩
      · rw [hparens, hoperand]
        exact iff_of_false (hbracket (o := '(') (by decide)) (by simp)
      · have hsquare : '[' ∉ k ++ ['<'] := by simpa using hnotMem '[' (by decide)
        rw [hparens, hoperand, prefix_append_cons_iff hsquare, if_neg Bool.false_ne_true]
        exact ih e List.mem_cons_self
    | readonlyArray e =>
      rw [member_of_closed rfl, text]
      exact iff_of_false (hreadonly _) (by simp [head])
    | tuple es =>
      rw [member_of_closed rfl, text]
      exact iff_of_false (hbracket (by decide)) (by simp [head])
    | readonlyTuple es =>
      rw [member_of_closed rfl, text]
      exact iff_of_false (hreadonly _) (by simp [head])
    | object fs =>
      rw [member_of_closed rfl, text]
      exact iff_of_false (hbracket (by decide)) (by simp [head])
    | function | union =>
      rw [member_of_open rfl]
      exact iff_of_false (hbracket (by decide)) (by simp [head])

theorem generic_prefix_iff (t : TypeExpr) :
    ("Array<".toList <+: t.member ∨ "ReadonlyArray<".toList <+: t.member) ↔
      t.head.isGenericArray = true := by
  have harray := word_prefix_iff (k := "Array".toList) (by decide) (by decide) t
  have hreadonly := word_prefix_iff (k := "ReadonlyArray".toList) (by decide) (by decide) t
  have hwords : "Array".toList ++ ['<'] = "Array<".toList ∧
      "ReadonlyArray".toList ++ ['<'] = "ReadonlyArray<".toList := by decide
  rw [hwords.1] at harray
  rw [hwords.2] at hreadonly
  rw [harray, hreadonly]
  constructor
  · rintro (⟨n, first, others, hhead, hn⟩ | ⟨n, first, others, hhead, hn⟩) <;>
      simp [hhead, isGenericArray, hn]
  · intro h
    cases hhead : t.head with
    | generic n first others =>
      rw [hhead, isGenericArray, Bool.or_eq_true, beq_iff_eq, beq_iff_eq] at h
      rcases h with h | h
      · exact Or.inl ⟨n, first, others, rfl, h⟩
      · exact Or.inr ⟨n, first, others, rfl, h⟩
    | _ =>
      rw [hhead] at h
      cases h

theorem square_prefix_iff (t : TypeExpr) : ['['] <+: t.member ↔ t.head.isTuple = true := by
  have hfirst : ∀ {c s}, c ≠ '[' → ¬ ['['] <+: c :: s := by
    intro c s hc h
    exact hc (List.cons_prefix_cons.mp h).1.symm
  have hname : ∀ (n : TypeName) (s : List Char), ¬ ['['] <+: n.text ++ s := by
    intro n s h
    obtain ⟨c, r, hn⟩ := List.exists_cons_of_ne_nil n.ne_nil
    rw [hn, List.cons_append, List.cons_prefix_cons] at h
    have hplain := List.all_eq_true.mp n.plain c (by simp [hn])
    rw [← h.1] at hplain
    cases hplain
  induction t using TypeExpr.induct with
  | _ t ih =>
    cases t with
    | name n =>
      have hmember : (TypeExpr.name n).member = n.text ++ [] := by
        rw [List.append_nil]
        rfl
      rw [hmember]
      exact iff_of_false (hname n []) Bool.false_ne_true
    | generic n first others =>
      rw [member_of_closed rfl, text]
      exact iff_of_false (hname n _) Bool.false_ne_true
    | array e =>
      rw [member_of_closed rfl, text_array, head]
      rcases e.operand_cases with ⟨hparens, hoperand⟩ | ⟨hparens, -, hoperand⟩
      · rw [hparens, hoperand]
        exact iff_of_false (hfirst (c := '(') (by decide)) Bool.false_ne_true
      · have helement : ['['] <+: e.member ↔ e.head.isTuple = true := ih e List.mem_cons_self
        rw [hparens, hoperand, if_neg Bool.false_ne_true, ← helement]
        obtain ⟨c, r, hmember, -⟩ := e.textEnds_member.head
        rw [hmember, List.cons_append, List.cons_prefix_cons, List.cons_prefix_cons]
        simp
    | readonlyArray | readonlyTuple =>
      rw [member_of_closed rfl, text]
      exact iff_of_false (hfirst (c := 'r') (by decide)) Bool.false_ne_true
    | tuple es =>
      rw [member_of_closed rfl, text]
      exact iff_of_true (List.prefix_append ['['] _) rfl
    | object fs =>
      rw [member_of_closed rfl, text]
      exact iff_of_false (hfirst (by decide)) Bool.false_ne_true
    | function | union =>
      rw [member_of_open rfl]
      exact iff_of_false (hfirst (by decide)) Bool.false_ne_true

theorem bare_iff (t : TypeExpr) : t.member = "Array".toList ↔ t.isBareArray = true := by
  by_cases hname : ∃ n, t = .name n
  · obtain ⟨n, rfl⟩ := hname
    rw [member_of_closed rfl, text, isBareArray, beq_iff_eq]
  · have hends := t.bracketEnds_member fun n hn => hname ⟨n, hn⟩
    refine iff_of_false (fun h => ?_) ?_
    · obtain ⟨a, o, b, hmember, ho, -⟩ := hends.opening
      have hplain : "Array".toList.all (!opens ·) = true := by decide
      rw [← h, hmember] at hplain
      have hnot := List.all_eq_true.mp hplain o (by simp)
      rw [ho] at hnot
      cases hnot
    · cases t with
      | name n => exact absurd ⟨n, rfl⟩ hname
      | _ => exact Bool.false_ne_true

/-- A member of a union looks like an array if it is known for one. -/
theorem seemsArray_member_iff (t : TypeExpr) : SeemsArray t.member ↔ t.isRecognised = true := by
  rw [SeemsArray, brackets_suffix_iff, generic_prefix_iff, bare_iff, square_prefix_iff,
    square_suffix_iff]
  cases t <;> simp [isRecognised, endsEmpty, isTuple, isGenericArray, isBareArray, endsSquare, head]

theorem exists_append_last (t : TypeExpr) (ts : List TypeExpr) :
    ∃ x, bar.intercalate ((t :: ts).map member) = x ++ (ts.getLastD t).member := by
  induction ts generalizing t with
  | nil => exact ⟨[], by simp⟩
  | cons t' ts ih =>
    obtain ⟨x, hx⟩ := ih t'
    refine ⟨t.member ++ bar ++ x, ?_⟩
    rw [List.map_cons, List.map_cons, List.intercalate_cons_cons, ← List.map_cons, hx,
      List.getLastD_cons, List.append_assoc (t.member ++ bar)]

/-- The text of a union looks like an array if its two ends do. -/
theorem seemsArray_union_iff (first second : TypeExpr) (others : List TypeExpr) :
    SeemsArray (union first second others).text ↔ EdgesPass first (others.getLastD second) := by
  obtain ⟨x, hx⟩ := exists_append_last first (second :: others)
  rw [← text_union, List.getLastD_cons] at hx
  have hlast := (others.getLastD second).textEnds_member
  obtain ⟨s, hs⟩ : ∃ s, (union first second others).text = first.member ++ ' ' :: s := by
    rw [text_union, List.map_cons, List.map_cons, List.intercalate_cons_cons, List.append_assoc]
    exact ⟨_, rfl⟩
  have hsquare : [']'] <:+ (union first second others).text ↔
      (others.getLastD second).endsSquare = true := by
    rw [hx, hlast.square_suffix_append, square_suffix_iff]
  have hbrackets : ['[', ']'] <:+ (union first second others).text ↔
      (others.getLastD second).endsEmpty = true := by
    rw [hx, hlast.brackets_suffix_append, brackets_suffix_iff]
  have hbare : (union first second others).text ≠ "Array".toList := by
    intro h
    have hblank : ' ' ∈ "Array".toList := by
      rw [← h, hs]
      simp
    exact absurd hblank (by decide)
  have hprefix : ∀ w : List Char, ' ' ∉ w →
      (w <+: (union first second others).text ↔ w <+: first.member) := by
    intro w hw
    rw [hs]
    exact prefix_append_cons_iff hw
  rw [SeemsArray, EdgesPass, hbrackets, hsquare, hprefix _ (by decide), hprefix _ (by decide),
    hprefix _ (by decide), generic_prefix_iff, square_prefix_iff]
  simp only [hbare, false_or]

/-- A text in front of which a parenthesis stands looks like an array only by its end. -/
theorem seemsArray_paren_iff (s : List Char) :
    SeemsArray ('(' :: s) ↔ ['[', ']'] <:+ '(' :: s := by
  have hfirst : ∀ c w, c ≠ '(' → ¬ c :: w <+: '(' :: s := by
    intro c w hc h
    exact hc (List.cons_prefix_cons.mp h).1
  have harray : ¬ "Array<".toList <+: '(' :: s := hfirst 'A' _ (by decide)
  have hreadonly : ¬ "ReadonlyArray<".toList <+: '(' :: s := hfirst 'R' _ (by decide)
  have hbare : '(' :: s ≠ "Array".toList := by
    intro h
    have hc : '(' = 'A' := (List.cons.inj h).1
    exact absurd hc (by decide)
  have hsquare : ¬ ['['] <+: '(' :: s := hfirst '[' _ (by decide)
  simp only [SeemsArray, harray, hreadonly, hbare, hsquare, false_and, or_false]

end TypeExpr

end ComponentLint.Types
