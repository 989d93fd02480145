import ComponentLint.Proofs.BalancedTexts
import ComponentLint.Proofs.DeclaredTypes

/-!
# Annotations as they are laid out

Between a name and the end of the place that is searched stand a question mark if the name is
optional, a colon, a type and perhaps an initial value, with blanks between them (`LaidOut`). The
search finds exactly the type if its brackets are balanced without the `>` of its arrows, and if every
equals sign outside of brackets begins an arrow (`finds_laidOut_type`). For any text at all,
what the scan for an initial value leaves is a beginning of the text, and the scan leaves it alone.
-/

namespace ComponentLint.Types

/-! ## Arrows -/

/-- A text without the `>` that stand directly behind an equals sign. -/
def withoutArrows : List Char → List Char
  | '=' :: '>' :: rest => '=' :: withoutArrows rest
  | c :: rest => c :: withoutArrows rest
  | [] => []

/-- A text that can be told from what stands around it as a type: something between two blanks whose
brackets are balanced without the `>` of arrows, and whose equals signs outside of brackets belong to
arrows. -/
structure IsTypeText (type : List Char) : Prop where
  ne_nil : type ≠ []
  trimmed : Text.Trimmed type
  balanced : Balanced (withoutArrows type)
  equals : AtEach '=' (fun p q => surplus (withoutArrows p) = 0 → q.head? = some '>') type

instance (type : List Char) : Decidable (IsTypeText type) :=
  decidable_of_iff (type ≠ [] ∧ Text.Trimmed type ∧ Balanced (withoutArrows type) ∧
      AtEach '=' (fun p q => surplus (withoutArrows p) = 0 → q.head? = some '>') type)
    ⟨fun h => ⟨h.1, h.2.1, h.2.2.1, h.2.2.2⟩, fun h => ⟨h.ne_nil, h.trimmed, h.balanced, h.equals⟩⟩

/-- The text behind a name that is declared with a type. -/
inductive LaidOut (type : List Char) : List Char → Prop
  | mk {beforeMark mark beforeColon beforeType afterType : List Char} {value : Option (List Char)}
      (hbeforeMark : Text.AllBlank beforeMark) (hmark : mark = [] ∨ mark = ['?'])
      (hbeforeColon : Text.AllBlank beforeColon) (hbeforeType : Text.AllBlank beforeType)
      (hafterType : Text.AllBlank afterType) (hvalue : ∀ v ∈ value, v.head? ≠ some '>') :
      LaidOut type (beforeMark ++ (mark ++ (beforeColon ++
        ':' :: (beforeType ++ (type ++ (afterType ++ initialText value))))))

/-! ## The end of a type -/

theorem withoutArrows_cons {c : Char} {s : List Char} (h : c = '=' → s.head? ≠ some '>') :
    withoutArrows (c :: s) = c :: withoutArrows s := by
  rw [withoutArrows]
  rintro rest rfl rfl
  exact h rfl rfl

/-- A character is copied if it ends no arrow and is no sign of an initial value. -/
theorem cutFrom_of_copied {d : Nat} {f : Bool} {c : Char} {s : List Char}
    (harrow : ¬ (c == '>' && f) = true) (hsign : c = '=' → d = 0 → s.head? = some '>') :
    cutFrom d f (c :: s) = c :: cutFrom (depthAfter d c) (c == '=') s := by
  have hnot : ¬ (c == '=' && d == 0 && s.head? != some '>') = true := by
    simp only [Bool.and_eq_true, beq_iff_eq, bne_iff_ne]
    rintro ⟨⟨hc, hd⟩, hne⟩
    exact hne (hsign hc hd)
  rw [cutFrom, if_neg harrow, if_neg hnot]

/-- A text that the scan copies from the depth `d` on. -/
structure Readable (d : Nat) (s : List Char) : Prop where
  before : ∀ p, p <+: withoutArrows s → 0 ≤ (d : Int) + surplus p
  equals : AtEach '=' (fun p q => (d : Int) + surplus (withoutArrows p) = 0 →
    q.head? = some '>') s

theorem IsTypeText.readable {type : List Char} (h : IsTypeText type) : Readable 0 type where
  before := by
    intro p hp
    simpa using h.balanced.before p hp
  equals := by
    intro p q hpq hzero
    exact h.equals p q hpq (by simpa using hzero)

namespace Readable

variable {d : Nat} {c : Char} {s t : List Char}

/-- Behind an arrow the scan is as deep in brackets as before it. -/
theorem arrow (h : Readable d ('=' :: '>' :: s)) : Readable d s := by
  have hsign : surplus ['='] = 0 := by decide
  obtain ⟨hfirst, hrest⟩ := surplus_rest h.before
  have hdepth : depthAfter d '=' = d := by omega
  rw [hdepth] at hrest
  refine ⟨hrest, fun p q hpq hzero => ?_⟩
  refine h.equals.tail.tail p q hpq ?_
  rw [withoutArrows, surplus_cons, hsign]
  omega

/-- An equals sign that begins no arrow stands in brackets. -/
theorem depth_ne_zero (h : Readable d ('=' :: s)) (hs : s.head? ≠ some '>') : d ≠ 0 := by
  rintro rfl
  exact hs (h.equals [] s rfl (by simp [withoutArrows]))

theorem cons (h : Readable d (c :: s)) (hc : c = '=' → s.head? ≠ some '>') :
    Readable (depthAfter d c) s := by
  have hbefore := h.before
  rw [withoutArrows_cons hc] at hbefore
  obtain ⟨hfirst, hrest⟩ := surplus_rest hbefore
  refine ⟨hrest, fun p q hpq hzero => ?_⟩
  refine h.equals.tail p q hpq ?_
  have hp : c = '=' → p.head? ≠ some '>' := by
    intro heq hhead
    obtain ⟨r, rfl⟩ := List.head?_eq_some_iff.mp hhead
    exact hc heq (by rw [hpq]; rfl)
  rw [withoutArrows_cons hp, surplus_cons]
  omega

/-- The scan copies a character that begins no arrow. -/
theorem cutFrom_cons (h : Readable d (c :: s)) (hs : c = '=' → s.head? ≠ some '>')
    (ht : t.head? ≠ some '>') :
    cutFrom d false (c :: (s ++ t)) = c :: cutFrom (depthAfter d c) false (s ++ t) := by
  have hcopied : cutFrom d false (c :: (s ++ t)) =
      c :: cutFrom (depthAfter d c) (c == '=') (s ++ t) := by
    refine cutFrom_of_copied (by simp) ?_
    rintro rfl hd
    exact absurd hd (h.depth_ne_zero (hs rfl))
  rw [hcopied]
  by_cases heq : c = '='
  · have hnext : (s ++ t).head? ≠ some '>' := by
      cases s with
      | nil => exact ht
      | cons e s => exact hs heq
    rw [cutFrom_of_head?_ne hnext]
  · rw [beq_eq_false_iff_ne.mpr heq]

/-- The scan copies the text and goes on behind it at the depth that the brackets give. -/
theorem cutFrom_append (h : Readable d s) (ht : t.head? ≠ some '>') :
    ∃ d' : Nat, (d' : Int) = d + surplus (withoutArrows s) ∧
      cutFrom d false (s ++ t) = s ++ cutFrom d' false t := by
  -- An arrow is one step of the induction: its `>` closes nothing, and the scan knows it only by
  -- the equals sign that it has just read.
  fun_induction withoutArrows s generalizing d with
  | case1 rest ih =>
    have hsign : surplus ['='] = 0 := by decide
    obtain ⟨d', hd', hcut⟩ := ih h.arrow
    refine ⟨d', by rw [surplus_cons, hsign, hd']; omega, ?_⟩
    exact (passes_arrow d (rest ++ t)).trans (congrArg (['=', '>'] ++ ·) hcut)
  | case2 c rest hnot ih =>
    have hs : c = '=' → rest.head? ≠ some '>' := by
      intro heq hhead
      obtain ⟨r, rfl⟩ := List.head?_eq_some_iff.mp hhead
      exact hnot r heq rfl
    have hbefore := h.before
    rw [withoutArrows_cons hs] at hbefore
    obtain ⟨hfirst, -⟩ := surplus_rest hbefore
    obtain ⟨d', hd', hcut⟩ := ih (h.cons hs)
    refine ⟨d', by rw [surplus_cons, hd', hfirst]; omega, ?_⟩
    rw [List.cons_append, h.cutFrom_cons hs ht, hcut]
    rfl
  | case3 => exact ⟨d, by simp, rfl⟩

end Readable

/-- The scan copies the text of a type and is outside of brackets behind it. -/
theorem IsTypeText.cutFrom_append {type t : List Char} (h : IsTypeText type)
    (ht : t.head? ≠ some '>') : cutFrom 0 false (type ++ t) = type ++ cutFrom 0 false t := by
  obtain ⟨d, hd, hcut⟩ := h.readable.cutFrom_append ht
  rw [h.balanced.total] at hd
  obtain rfl : d = 0 := by omega
  exact hcut

/-! ## The annotation -/

section Annotation

variable {type : List Char}

/-- Behind a type, the scan goes over blanks and ends at the sign of an initial value. -/
theorem trim_cutAtInitializer {beforeType afterType : List Char} {value : Option (List Char)}
    (htype : IsTypeText type) (hbeforeType : Text.AllBlank beforeType)
    (hafterType : Text.AllBlank afterType) (hvalue : ∀ v ∈ value, v.head? ≠ some '>') :
    Text.trim (cutAtInitializer (beforeType ++ (type ++ (afterType ++ initialText value)))) =
      type := by
  have hend : cutFrom 0 false (initialText value) = [] := by
    cases value with
    | none => rfl
    | some v => exact cutFrom_sign (hvalue v rfl) 0
  have hfollow : (afterType ++ initialText value).head? ≠ some '>' := by
    intro hhead
    cases afterType with
    | nil => cases value <;> simp [initialText] at hhead
    | cons c s =>
      obtain rfl : c = '>' := Option.some.inj hhead
      exact absurd (hafterType '>' List.mem_cons_self) (by decide)
  have hcut : cutAtInitializer (beforeType ++ (type ++ (afterType ++ initialText value))) =
      beforeType ++ type ++ afterType := by
    rw [cutAtInitializer, passes_blanks hbeforeType, htype.cutFrom_append hfollow,
      passes_blanks hafterType, hend, List.append_nil, List.append_assoc]
  rw [hcut]
  exact Text.trim_blanks hbeforeType hafterType htype.trimmed

theorem fromColon_mark {beforeMark mark beforeColon rest : List Char}
    (hbeforeMark : Text.AllBlank beforeMark) (hmark : mark = [] ∨ mark = ['?'])
    (hbeforeColon : Text.AllBlank beforeColon) :
    fromColon (beforeMark ++ (mark ++ (beforeColon ++ ':' :: rest))) = ':' :: rest := by
  have hcolon : Text.trimStart (beforeColon ++ ':' :: rest) = ':' :: rest := by
    rw [Text.trimStart_append hbeforeColon, Text.trimStart_of_head (by decide)]
  rcases hmark with rfl | rfl
  · refine fromColon_of_head ?_ (by decide) (by decide)
    rw [Text.trimStart_append hbeforeMark, List.nil_append, hcolon]
  · have hquestion : Text.trimStart (beforeMark ++ ('?' :: (beforeColon ++ ':' :: rest))) =
        '?' :: (beforeColon ++ ':' :: rest) := by
      rw [Text.trimStart_append hbeforeMark, Text.trimStart_of_head (by decide)]
    rw [fromColon, List.singleton_append, hquestion]
    exact hcolon

theorem LaidOut.annotationAfter?_eq {text : List Char} (h : LaidOut type text)
    (htype : IsTypeText type) : annotationAfter? text = some type := by
  obtain ⟨hbeforeMark, hmark, hbeforeColon, hbeforeType, hafterType, hvalue⟩ := h
  have hsome : type.isEmpty = false := List.isEmpty_eq_false_iff.mpr htype.ne_nil
  rw [annotationAfter?_of_colon (fromColon_mark hbeforeMark hmark hbeforeColon),
    trim_cutAtInitializer htype hbeforeType hafterType hvalue, hsome]
  rfl

end Annotation

/-! ## Any text -/

/-- The scan only leaves out an end of the text. -/
theorem cutFrom_prefix_self (d : Nat) (f : Bool) (t : List Char) : cutFrom d f t <+: t := by
  induction t generalizing d f with
  | nil => exact List.prefix_rfl
  | cons c t ih =>
    rw [cutFrom]
    split_ifs with harrow hsign
    · exact (List.prefix_cons_inj c).mpr (ih d false)
    · exact List.nil_prefix
    · exact (List.prefix_cons_inj c).mpr (ih _ _)

/-- The `>` of an arrow is copied. -/
theorem head?_cutFrom {t : List Char} (h : t.head? = some '>') (d : Nat) (f : Bool) :
    (cutFrom d f t).head? = some '>' := by
  obtain ⟨r, rfl⟩ := List.head?_eq_some_iff.mp h
  cases f <;> simp [cutFrom]

/-- The scan copies all that it has left. -/
theorem cutFrom_cutFrom (d : Nat) (f : Bool) (t : List Char) :
    cutFrom d f (cutFrom d f t) = cutFrom d f t := by
  induction t generalizing d f with
  | nil => rfl
  | cons c t ih =>
    by_cases harrow : (c == '>' && f) = true
    · have hcut : ∀ s, cutFrom d f (c :: s) = c :: cutFrom d false s := by
        intro s
        rw [cutFrom, if_pos harrow]
      rw [hcut, hcut, ih]
    by_cases hsign : c = '=' → d = 0 → t.head? = some '>'
    · have hsign' : c = '=' → d = 0 →
          (cutFrom (depthAfter d c) (c == '=') t).head? = some '>' :=
        fun hc hd => head?_cutFrom (hsign hc hd) _ _
      rw [cutFrom_of_copied harrow hsign, cutFrom_of_copied harrow hsign', ih]
    · -- Nothing is left from the sign on.
      obtain ⟨rfl, rfl, hne⟩ : c = '=' ∧ d = 0 ∧ t.head? ≠ some '>' := by
        simpa only [Classical.not_imp] using hsign
      have hcut : cutFrom 0 f ('=' :: t) = [] := by simp [cutFrom, hne]
      rw [hcut]
      rfl

/-- The search finds exactly the type that a name is declared with, whatever follows the sign of the
initial value. What the scan leaves of any text is a beginning of it, and the scan leaves all of
that. -/
theorem finds_laidOut_type :
    (∀ {source type : List Char} {binder : Span} {stop : Nat}, IsTypeText type →
      LaidOut type (Span.text source ⟨binder.stop, stop⟩) →
      annotationBetween? source binder stop = some type) ∧
    ∀ t, cutAtInitializer t <+: t ∧
      cutAtInitializer (cutAtInitializer t) = cutAtInitializer t := by
  refine ⟨fun htype h => annotationBetween?_of_place (h.annotationAfter?_eq htype), fun t => ?_⟩
  exact ⟨cutFrom_prefix_self 0 false t, cutFrom_cutFrom 0 false t⟩

/-- Arrows and an equals sign in brackets belong to the type, and what is behind the sign of the initial
value may contain them all. -/
theorem finds_laidOut_type_arrow :
    annotationBetween? "let f : <T = C>(x: T[]) => D = (y) => y >= [1];".toList ⟨4, 5⟩ 46 =
      some "<T = C>(x: T[]) => D".toList := by
  have htype : IsTypeText "<T = C>(x: T[]) => D".toList := by decide +kernel
  have hlaid : LaidOut "<T = C>(x: T[]) => D".toList
      (Span.text "let f : <T = C>(x: T[]) => D = (y) => y >= [1];".toList ⟨5, 46⟩) :=
    @LaidOut.mk _ [' '] [] [] [' '] [' '] (some " (y) => y >= [1]".toList) (by decide) (Or.inl rfl)
      (by decide) (by decide) (by decide) (by simp)
  exact finds_laidOut_type.1 htype hlaid

end ComponentLint.Types
