import ComponentLint.Proofs.ArrayForms

/-!
# Which types pass as arrays

A type should pass as an array if one member of its union remains without the missing values and the
outermost form of that member is an array or a tuple. What does pass, for the printed form of any
type, is said by `TypeExpr.PassesAsArray`. The two agree on types without functions of which one
member remains, except for tuples with `readonly`. They differ where the text misleads: several
members decide by the two ends of their text, a function by the end of its result, and an arrow may
hide the end of a member.
-/

namespace ComponentLint.Types

namespace TypeExpr

/-- The one remaining member of a type, if the scan sees no bar in it. -/
def Decides (t m : TypeExpr) : Prop := t.remaining = [m] ∧ showsBar 0 m.member = false

/-- The types that pass as arrays. -/
inductive PassesAsArray : TypeExpr → Prop
  /-- A type that is no union decides by itself. -/
  | closed {t : TypeExpr} (hopen : t.isOpen = false) (h : t.isRecognised = true) : PassesAsArray t
  /-- One member of a union decides. -/
  | member {first second : TypeExpr} {others : List TypeExpr} {m : TypeExpr}
      (hdecides : Decides (.union first second others) m) (h : m.isRecognised = true) :
      PassesAsArray (.union first second others)
  /-- No member of a union decides. -/
  | edges {first second : TypeExpr} {others : List TypeExpr}
      (hnone : ∀ m, ¬ Decides (.union first second others) m)
      (h : EdgesPass first (others.getLastD second)) : PassesAsArray (.union first second others)
  /-- A function type passes if its text ends like an array. -/
  | result {ps : List TypeField} {r m : TypeExpr} {others : List TypeExpr}
      (hmembers : r.result.members = m :: others) (h : (others.getLastD m).endsEmpty = true) :
      PassesAsArray (.function ps r)
  /-- So it does if only missing values follow on such an end. -/
  | firstResult {ps : List TypeField} {r m : TypeExpr} {others : List TypeExpr}
      (hmembers : r.result.members = m :: others) (hothers : ∀ o ∈ others, o.isMissing = true)
      (hbar : showsBar 0 ((function ps r).front ++ m.member) = false)
      (h : m.endsEmpty = true) : PassesAsArray (.function ps r)

/-! ## The part that decides -/

theorem members_of_closed {t : TypeExpr} (h : t.isOpen = false) : t.members = [t] := by
  cases t with
  | function | union => cases h
  | _ => rfl

theorem text_of_members (t : TypeExpr) (h : ∀ ps r, t ≠ .function ps r) :
    t.text = bar.intercalate (t.members.map member) := by
  cases t with
  | function ps r => exact absurd rfl (h ps r)
  | union first second others => exact text_union first second others
  | _ =>
    rw [members_of_closed rfl, List.map_singleton, List.intercalate_singleton, member_of_closed rfl]

theorem mem_members_of_remaining {t m : TypeExpr} (h : t.remaining = [m]) :
    m ∈ t.members ∧ m.isMissing = false := by
  have hm : m ∈ t.remaining := by simp [h]
  simpa using List.mem_filter.mp hm

theorem depthOver_member (t : TypeExpr) : depthOver 0 t.member = 0 :=
  (composes_lowers.inParens _ (composes_lowers.text t (Or.inl lowers_arrow))).depthOver_zero

/-- A missing value is no member. Any other type is one, or several if the scan sees a bar in it. -/
theorem presentMembers_cases (t : TypeExpr) :
    (t.isMissing = true ∧ presentMembers t.member = []) ∨
      (t.isMissing = false ∧ showsBar 0 t.member = false ∧ presentMembers t.member = [t.member]) ∨
      (t.isMissing = false ∧ showsBar 0 t.member = true ∧
        2 ≤ (presentMembers t.member).length) := by
  by_cases hname : ∃ n, t = .name n
  · obtain ⟨n, rfl⟩ := hname
    have hbar : showsBar 0 n.text = false := showsBar_of_notMem (bar_notMem_name n) 0
    have hmembers : unionMembers n.text = [n.text] := by
      have hends := TextEnds.of_plain n.ne_nil n.plain
      rw [unionMembers_of_not_showsBar hbar, Text.trim_of_trimmed hends.trimmed]
      simp [n.ne_nil]
    have hmember : (TypeExpr.name n).member = n.text := rfl
    rw [hmember, presentMembers, hmembers]
    cases hmissing : Types.isMissing n.text with
    | true => exact Or.inl ⟨hmissing, by simp [hmissing]⟩
    | false => exact Or.inr (Or.inl ⟨hmissing, hbar, by simp [hmissing]⟩)
  · have hmissing : t.isMissing = false := by
      cases t with
      | name n => exact absurd ⟨n, rfl⟩ hname
      | _ => rfl
    have hends := t.bracketEnds_member fun n hn => hname ⟨n, hn⟩
    rcases hends.present_cases t.textEnds_member.trimmed with ⟨hbar, h⟩ | ⟨hbar, h⟩
    · exact Or.inr (Or.inl ⟨hmissing, hbar, h⟩)
    · exact Or.inr (Or.inr ⟨hmissing, hbar, h⟩)

/-- The members that the scan finds in the members of a type. -/
def found (ts : List TypeExpr) : List (List Char) := ts.flatMap fun t => presentMembers t.member

theorem found_cons (t : TypeExpr) (ts : List TypeExpr) :
    found (t :: ts) = presentMembers t.member ++ found ts := List.flatMap_cons

theorem found_filter (ts : List TypeExpr) : found (ts.filter (!·.isMissing)) = found ts := by
  induction ts with
  | nil => rfl
  | cons t ts ih =>
    rw [found_cons, List.filter_cons]
    rcases t.presentMembers_cases with ⟨hmissing, h⟩ | ⟨hmissing, -⟩ | ⟨hmissing, -⟩
    · simp [hmissing, h, ih]
    · simp [hmissing, found_cons, ih]
    · simp [hmissing, found_cons, ih]

theorem length_le_found (ts : List TypeExpr) :
    (ts.filter (!·.isMissing)).length ≤ (found ts).length := by
  induction ts with
  | nil => exact Nat.le_refl 0
  | cons t ts ih =>
    rw [found_cons, List.length_append, List.filter_cons]
    rcases t.presentMembers_cases with ⟨hmissing, h⟩ | ⟨hmissing, -, h⟩ | ⟨hmissing, -, h⟩
    · simpa [hmissing, h] using ih
    · simp only [hmissing, h, Bool.not_false, if_true, List.length_cons, List.length_nil]
      omega
    · simp only [hmissing, Bool.not_false, if_true, List.length_cons]
      omega

theorem presentMembers_text (t : TypeExpr) (h : ∀ ps r, t ≠ .function ps r) :
    presentMembers t.text = found t.remaining := by
  rw [text_of_members t h, presentMembers_intercalate, List.flatMap_map, remaining, found_filter]
  · rfl
  · intro s hs
    obtain ⟨t', -, rfl⟩ := List.mem_map.mp hs
    exact t'.depthOver_member

theorem decisive_of_decides {t m : TypeExpr} (h : ∀ ps r, t ≠ .function ps r)
    (hdecides : Decides t m) : decisive t.text = m.member := by
  obtain ⟨hone, hbar⟩ := hdecides
  obtain ⟨-, hmissing⟩ := mem_members_of_remaining hone
  refine decisive_of_singleton ?_
  rw [presentMembers_text t h, hone, found_cons]
  rcases m.presentMembers_cases with ⟨hmissing', -⟩ | ⟨-, -, h⟩ | ⟨-, hbar', -⟩
  · rw [hmissing] at hmissing'
    cases hmissing'
  · rw [h]
    rfl
  · rw [hbar] at hbar'
    cases hbar'

theorem decisive_of_not_decides {t : TypeExpr} (h : ∀ ps r, t ≠ .function ps r)
    (hnone : ∀ m, ¬ Decides t m) : decisive t.text = t.text := by
  refine decisive_of_length_ne fun hone => ?_
  rw [presentMembers_text t h] at hone
  -- Only one text is found, so at most one member remains, and the scan sees no bar in it.
  have hle : t.remaining.length ≤ 1 := by
    rw [← hone, remaining, found_filter]
    exact length_le_found t.members
  cases hremaining : t.remaining with
  | nil =>
    rw [hremaining] at hone
    cases hone
  | cons m ms =>
    rw [hremaining, List.length_cons] at hle
    obtain rfl : ms = [] := List.length_eq_zero_iff.mp (by omega)
    rw [hremaining, found_cons, found, List.flatMap_nil, List.append_nil] at hone
    rcases m.presentMembers_cases with ⟨-, hnothing⟩ | ⟨-, hbar, -⟩ | ⟨-, -, hmany⟩
    · rw [hnothing] at hone
      cases hone
    · exact hnone m ⟨hremaining, hbar⟩
    · omega

section Functions

variable {ps : List TypeField} {r m : TypeExpr} {others : List TypeExpr}

theorem text_function (hmembers : r.result.members = m :: others) :
    (function ps r).text =
      bar.intercalate (((function ps r).front ++ m.member) :: others.map member) := by
  have hresult : (function ps r).result = r.result := by rw [result]
  have happend : ∀ (x s : List Char) (ss : List (List Char)),
      x ++ bar.intercalate (s :: ss) = bar.intercalate ((x ++ s) :: ss) := by
    intro x s ss
    cases ss with
    | nil => simp
    | cons s' ss => simp only [List.intercalate_cons_cons, List.append_assoc]
  rw [text_eq_front, hresult, text_of_members _ r.result_ne_function, hmembers, List.map_cons,
    happend]

theorem presentMembers_function (hmembers : r.result.members = m :: others) :
    presentMembers (function ps r).text =
      presentMembers ((function ps r).front ++ m.member) ++ found others := by
  rw [text_function hmembers, presentMembers_intercalate, List.flatMap_cons, List.flatMap_map]
  · rfl
  · refine List.forall_mem_cons.mpr ⟨?_, fun s hs => ?_⟩
    · have hfront := composes_lowers.front lowers_arrow (function ps r)
      rw [depthOver_append, hfront.depthOver_zero, depthOver_member]
    · obtain ⟨o, -, rfl⟩ := List.mem_map.mp hs
      exact o.depthOver_member

/-- Missing values behind the first member of the result are taken for members of a union that the
function is one of. -/
theorem decisive_function_first (hmembers : r.result.members = m :: others)
    (hothers : ∀ o ∈ others, o.isMissing = true)
    (hbar : showsBar 0 ((function ps r).front ++ m.member) = false) :
    decisive (function ps r).text = (function ps r).front ++ m.member := by
  refine decisive_of_singleton ?_
  have hnone : found others = [] := by
    have hfilter : others.filter (!·.isMissing) = [] := by simpa using hothers
    rw [← found_filter, hfilter]
    rfl
  rw [presentMembers_function hmembers, hnone, List.append_nil]
  rcases (bracketEnds_front ps r m).present_cases (textEnds_front ps r m).trimmed with
    ⟨-, h⟩ | ⟨hbar', -⟩
  · exact h
  · rw [hbar] at hbar'
    cases hbar'

theorem decisive_function_whole (hmembers : r.result.members = m :: others)
    (h : ¬ ((∀ o ∈ others, o.isMissing = true) ∧
      showsBar 0 ((function ps r).front ++ m.member) = false)) :
    decisive (function ps r).text = (function ps r).text := by
  refine decisive_of_length_ne ?_
  rw [presentMembers_function hmembers, List.length_append]
  rcases (bracketEnds_front ps r m).present_cases (textEnds_front ps r m).trimmed with
    ⟨hbar, hone⟩ | ⟨-, hmany⟩
  · have hsome : others.filter (!·.isMissing) ≠ [] := by
      intro hfilter
      exact h ⟨by simpa using hfilter, hbar⟩
    have hle := length_le_found others
    have hpos := List.length_pos_iff.mpr hsome
    rw [hone, List.length_singleton]
    omega
  · omega

/-- The text of a function type looks like an array if it ends like one. -/
theorem seemsArray_function_iff (hmembers : r.result.members = m :: others) :
    SeemsArray (function ps r).text ↔ (others.getLastD m).endsEmpty = true := by
  obtain ⟨s, hs⟩ := front_cons ps r
  obtain ⟨x, hx⟩ := exists_append_last m others
  have hresult : (function ps r).result = r.result := by rw [result]
  have htext : (function ps r).text =
      (function ps r).front ++ x ++ (others.getLastD m).member := by
    rw [text_eq_front, hresult, text_of_members _ r.result_ne_function, hmembers, hx,
      List.append_assoc]
  have hparen : SeemsArray (function ps r).text ↔ ['[', ']'] <:+ (function ps r).text := by
    rw [htext, hs, List.cons_append, List.cons_append, seemsArray_paren_iff]
  rw [hparen, htext, (textEnds_member _).brackets_suffix_append, brackets_suffix_iff]

theorem seemsArray_front_iff (ps : List TypeField) (r m : TypeExpr) :
    SeemsArray ((function ps r).front ++ m.member) ↔ m.endsEmpty = true := by
  obtain ⟨s, hs⟩ := front_cons ps r
  rw [hs, List.cons_append, seemsArray_paren_iff, ← List.cons_append,
    m.textEnds_member.brackets_suffix_append, brackets_suffix_iff]

theorem endsEmpty_of_last (hothers : ∀ o ∈ others, o.isMissing = true)
    (h : (others.getLastD m).endsEmpty = true) : m.endsEmpty = true := by
  rcases List.eq_nil_or_concat others with rfl | ⟨os, o, rfl⟩
  · exact h
  · have hmissing := hothers o (by simp)
    rw [List.concat_eq_append, List.getLastD_concat] at h
    cases o with
    | name n => cases h
    | _ => cases hmissing

end Functions

/-! ## Verdicts -/

theorem isArray_classify_iff (t : TypeExpr) :
    (classify t.text).kind.isArray = true ↔ SeemsArray (decisive t.text) := by
  rw [classify, Text.trim_of_trimmed t.textEnds.trimmed]
  exact isArray_kindOf_iff _

theorem isArray_iff_of_decides {t m : TypeExpr} (h : ∀ ps r, t ≠ .function ps r)
    (hdecides : Decides t m) : (classify t.text).kind.isArray = true ↔ m.isRecognised = true := by
  rw [isArray_classify_iff, decisive_of_decides h hdecides, seemsArray_member_iff]

theorem isArray_closed_iff {t : TypeExpr} (hopen : t.isOpen = false) :
    (classify t.text).kind.isArray = true ↔ t.isRecognised = true := by
  have hfunction : ∀ ps r, t ≠ .function ps r := by
    rintro ps r rfl
    cases hopen
  by_cases hdecides : ∃ m, Decides t m
  · obtain ⟨m, hm⟩ := hdecides
    have hmem := (mem_members_of_remaining hm.1).1
    rw [members_of_closed hopen, List.mem_singleton] at hmem
    rw [isArray_iff_of_decides hfunction hm, hmem]
  · rw [isArray_classify_iff, decisive_of_not_decides hfunction (not_exists.mp hdecides),
      ← member_of_closed hopen, seemsArray_member_iff]

theorem Decides.unique {t m₁ m₂ : TypeExpr} (h₁ : Decides t m₁) (h₂ : Decides t m₂) : m₁ = m₂ := by
  have heq := h₁.1.symm.trans h₂.1
  exact (List.cons.inj heq).1

theorem isArray_union_iff (first second : TypeExpr) (others : List TypeExpr) :
    (classify (union first second others).text).kind.isArray = true ↔
      PassesAsArray (union first second others) := by
  have hfunction : ∀ ps r, union first second others ≠ function ps r := nofun
  by_cases hdecides : ∃ m, Decides (union first second others) m
  · obtain ⟨m, hm⟩ := hdecides
    rw [isArray_iff_of_decides hfunction hm]
    constructor
    · exact .member hm
    · intro h
      cases h with
      | closed hopen => cases hopen
      | member hm' h =>
        rw [hm.unique hm']
        exact h
      | edges hnone => exact absurd hm (hnone m)
  · have hnone := not_exists.mp hdecides
    rw [isArray_classify_iff, decisive_of_not_decides hfunction hnone, seemsArray_union_iff]
    constructor
    · exact .edges hnone
    · intro h
      cases h with
      | closed hopen => cases hopen
      | member hm => exact absurd hm (hnone _)
      | edges _ h => exact h

theorem isArray_function_iff (ps : List TypeField) (r : TypeExpr) :
    (classify (function ps r).text).kind.isArray = true ↔ PassesAsArray (function ps r) := by
  obtain ⟨m, others, hmembers⟩ : ∃ m others, r.result.members = m :: others := by
    cases r.result <;> exact ⟨_, _, rfl⟩
  rw [isArray_classify_iff]
  by_cases hfirst : (∀ o ∈ others, o.isMissing = true) ∧
      showsBar 0 ((function ps r).front ++ m.member) = false
  · -- The missing values fall away, and the first member of the result stands at the end.
    rw [decisive_function_first hmembers hfirst.1 hfirst.2, seemsArray_front_iff]
    constructor
    · exact .firstResult hmembers hfirst.1 hfirst.2
    · intro h
      cases h with
      | closed hopen => cases hopen
      | result hmembers' h =>
        cases hmembers.symm.trans hmembers'
        exact endsEmpty_of_last hfirst.1 h
      | firstResult hmembers' _ _ h =>
        cases hmembers.symm.trans hmembers'
        exact h
  · rw [decisive_function_whole hmembers hfirst, seemsArray_function_iff hmembers]
    constructor
    · exact .result hmembers
    · intro h
      cases h with
      | closed hopen => cases hopen
      | result hmembers' h =>
        cases hmembers.symm.trans hmembers'
        exact h
      | firstResult hmembers' hothers hbar _ =>
        cases hmembers.symm.trans hmembers'
        exact absurd ⟨hothers, hbar⟩ hfirst

theorem isArray_iff_passesAsArray (t : TypeExpr) :
    (classify t.text).kind.isArray = true ↔ PassesAsArray t := by
  cases t with
  | union first second others => exact isArray_union_iff first second others
  | function ps r => exact isArray_function_iff ps r
  | _ =>
    rw [isArray_closed_iff rfl]
    constructor
    · exact .closed rfl
    · intro h
      cases h with
      | closed _ h => exact h

/-! ## Types without functions -/

theorem ArrowFree.of_mem_members {t m : TypeExpr} (h : t.ArrowFree) (hm : m ∈ t.members) :
    m.ArrowFree := by
  cases t with
  | union first second others => exact h.of_mem_parts hm
  | _ =>
    obtain rfl := List.mem_singleton.mp hm
    exact h

theorem isRecognised_eq_isArrayForm {m : TypeExpr}
    (h : ∀ e es, m ≠ .readonlyTuple (e :: es)) : m.isRecognised = m.isArrayForm := by
  cases m with
  | readonlyTuple es =>
    cases es with
    | nil => rfl
    | cons e es => exact absurd rfl (h e es)
  | tuple es => simp [isRecognised, isArrayForm, isTuple, endsSquare]
  | _ => simp [isRecognised, isArrayForm, isTuple, endsSquare, endsEmpty]

/-- For every type: its printed form is classified as an array, a read-only array or a tuple exactly if
it passes as an array. Without functions, and if one member of its union remains that is no tuple with
`readonly` and elements, this is so exactly if that member has the form of an array. -/
theorem isArray_classify_text (t : TypeExpr) :
    ((classify t.text).kind.isArray = true ↔ t.PassesAsArray) ∧
    (t.ArrowFree → ∀ m, t.remaining = [m] → (∀ e es, m ≠ .readonlyTuple (e :: es)) →
      ((classify t.text).kind.isArray = true ↔ m.isArrayForm = true)) := by
  refine ⟨t.isArray_iff_passesAsArray, ?_⟩
  intro hfree m hm hreadonly
  have hfunction : ∀ ps r, t ≠ .function ps r := by
    rintro ps r rfl
    cases hfree with
    | intro hhere _ => exact hhere ps r rfl
  have hmem := (mem_members_of_remaining hm).1
  have hdecides : Decides t m := ⟨hm, showsBar_member (hfree.of_mem_members hmem)⟩
  rw [isArray_iff_of_decides hfunction hdecides, isRecognised_eq_isArrayForm hreadonly]

/-- A function that gives an array passes as an array, a tuple with `readonly` does not, several
members pass by the last of them, and an arrow hides the one member that remains. -/
theorem isArray_classify_text_misled :
    (∃ t : TypeExpr, t.text = "() => string[]".toList ∧ t.remaining = [t] ∧
      t.isArrayForm = false ∧ (classify t.text).kind.isArray = true) ∧
    (∃ t : TypeExpr, t.text = "readonly [string, number]".toList ∧ t.remaining = [t] ∧
      t.isArrayForm = true ∧ (classify t.text).kind.isArray = false) ∧
    (∃ t : TypeExpr, t.text = "string | number[]".toList ∧ t.remaining.length = 2 ∧
      (classify t.text).kind.isArray = true) ∧
    (∃ t : TypeExpr, t.text = "null | Array<() => A | B>".toList ∧
      t.remaining.map isArrayForm = [true] ∧ (classify t.text).kind.isArray = false) := by
  refine ⟨⟨.function [] (.array (.name ⟨"string".toList, by decide, by decide⟩)), ?_⟩,
    ⟨.readonlyTuple [.name ⟨"string".toList, by decide, by decide⟩,
      .name ⟨"number".toList, by decide, by decide⟩], ?_⟩,
    ⟨.union (.name ⟨"string".toList, by decide, by decide⟩)
      (.array (.name ⟨"number".toList, by decide, by decide⟩)) [], ?_⟩,
    ⟨.union (.name ⟨"null".toList, by decide, by decide⟩)
      (.generic ⟨"Array".toList, by decide, by decide⟩
        (.function [] (.union (.name ⟨['A'], by decide, by decide⟩)
          (.name ⟨['B'], by decide, by decide⟩) [])) []) [], ?_⟩⟩
  · exact ⟨by decide +kernel, rfl, rfl, by decide +kernel⟩
  · exact ⟨by decide +kernel, rfl, rfl, by decide +kernel⟩
  · exact ⟨by decide +kernel, rfl, by decide +kernel⟩
  · exact ⟨by decide +kernel, rfl, by decide +kernel⟩

end TypeExpr

end ComponentLint.Types
