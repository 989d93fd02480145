import ComponentLint.Proofs.AnnotationScan
import ComponentLint.Script.Lexer.Trivia
import ComponentLint.Types.Query

/-!
# Declared types

A query for a name reads the declared type off the source, between the name and its initial value.
`Annotation` says how that text is laid out as the grammar has it: blanks, line ends and comments may
stand between any two tokens, and a mark after the name. The query finds exactly the declared type if
the layout is made of blanks, the mark is no exclamation mark and the scan passes over the type; in
all other cases it does not (`annotationAfter?_eq_some_iff`).
-/

namespace ComponentLint.Types

open Script (Binding Binder Declaration Expr isGap isLineEnd)

/-! ## Layout -/

/-- Blanks, line ends and comments. -/
inductive IsTrivia : List Char → Prop
  | nil : IsTrivia []
  | blank {c : Char} {s : List Char} (h : isGap c = true ∨ isLineEnd c = true)
      (rest : IsTrivia s) : IsTrivia (c :: s)
  | line {body s : List Char} {e : Char} (hbody : ∀ c ∈ body, isLineEnd c = false)
      (he : isLineEnd e = true) (rest : IsTrivia s) : IsTrivia ('/' :: '/' :: (body ++ e :: s))
  | delimited {body s : List Char} (hbody : ¬ ['*', '/'] <:+: body ++ ['*'])
      (rest : IsTrivia s) : IsTrivia ('/' :: '*' :: (body ++ '*' :: '/' :: s))

/-- Whether something that stands between tokens can begin with a character. -/
def beginsTrivia (c : Char) : Bool := isGap c || isLineEnd c || c == '/'

/-- What may stand behind a declared name. -/
inductive Mark where
  | none
  /-- The question mark of an optional parameter. -/
  | optional
  /-- The exclamation mark of a variable that gets its value elsewhere. -/
  | definite
deriving DecidableEq

/-- The text of a mark. -/
def Mark.text : Mark → List Char
  | .none => []
  | .optional => ['?']
  | .definite => ['!']

/-- An initial value with the sign before it. -/
def initialText : Option (List Char) → List Char
  | none => []
  | some value => '=' :: value

/-- A text behind a declared name, as a declared type with what stands around it. -/
structure Annotation (text : List Char) where
  beforeMark : List Char
  mark : Mark
  beforeColon : List Char
  beforeType : List Char
  type : List Char
  afterType : List Char
  value : Option (List Char)
  text_eq : text = beforeMark ++ (mark.text ++ (beforeColon ++
    ':' :: (beforeType ++ (type ++ (afterType ++ initialText value)))))
  beforeMark_trivia : IsTrivia beforeMark
  beforeColon_trivia : IsTrivia beforeColon
  beforeType_trivia : IsTrivia beforeType
  afterType_trivia : IsTrivia afterType
  /-- A type begins and ends with a token. -/
  type_ne_nil : type ≠ []
  type_head : ∀ c ∈ type.head?, beginsTrivia c = false
  type_last : ∀ c ∈ type.getLast?, Text.isBlank c = false
  /-- No expression begins with a closing bracket. -/
  value_head : ∀ v ∈ value, v.head? ≠ some '>'

namespace Annotation

variable {text : List Char}

/-- A declaration is laid out with blanks only, and its name has no exclamation mark. -/
structure Spaced (a : Annotation text) : Prop where
  mark : a.mark ≠ .definite
  beforeMark : Text.AllBlank a.beforeMark
  beforeColon : Text.AllBlank a.beforeColon
  beforeType : Text.AllBlank a.beforeType
  afterType : Text.AllBlank a.afterType

/-- The scan passes over the declared type, and sees that the sign of an initial value stands outside
of its brackets. -/
structure Seen (a : Annotation text) : Prop where
  type : cutAtInitializer a.type = a.type
  sign : a.value.isSome → cutAtInitializer (a.type ++ ['=']) = a.type

end Annotation

/-! ## Between tokens -/

theorem beginsTrivia_of_isBlank {c : Char} (h : Text.isBlank c = true) :
    beginsTrivia c = true := by
  by_cases hend : isLineEnd c = true
  · simp [beginsTrivia, hend]
  have hne : ∀ e : Char, isLineEnd e = true → c.toNat ≠ e.toNat := by
    intro e he hc
    rw [Char.toNat_inj.mp hc] at hend
    exact hend he
  have h₁ : c.toNat ≠ 0x0A := hne '\n' rfl
  have h₂ : c.toNat ≠ 0x0D := hne '\r' rfl
  have h₃ : c.toNat ≠ 0x2028 := hne '\u2028' rfl
  have h₄ : c.toNat ≠ 0x2029 := hne '\u2029' rfl
  have hgap : isGap c = true := by
    simp only [Text.isBlank, Bool.or_eq_true, Bool.and_eq_true, decide_eq_true_eq, beq_iff_eq] at h
    simp only [isGap, Bool.or_eq_true, Bool.and_eq_true, decide_eq_true_eq, beq_iff_eq]
    omega
  simp [beginsTrivia, hgap]

theorem inert_of_beginsTrivia {c : Char} (h : beginsTrivia c = true) :
    opens c = false ∧ closes c = false ∧ c ≠ '=' := by
  refine ⟨?_, ?_, ?_⟩
  · by_contra hopens
    simp only [opens, Bool.not_eq_false, Bool.or_eq_true, beq_iff_eq] at hopens
    rcases hopens with ((rfl | rfl) | rfl) | rfl <;> cases h
  · by_contra hcloses
    simp only [closes, Bool.not_eq_false, Bool.or_eq_true, beq_iff_eq] at hcloses
    rcases hcloses with ((rfl | rfl) | rfl) | rfl <;> cases h
  · rintro rfl
    cases h

/-- What stands between tokens is blank, or a character in it is no blank. -/
theorem IsTrivia.blank_or {s : List Char} (h : IsTrivia s) :
    Text.AllBlank s ∨ ∃ b c r, s = b ++ c :: r ∧ Text.AllBlank b ∧
      Text.isBlank c = false ∧ beginsTrivia c = true := by
  induction h with
  | nil => exact Or.inl (by simp [Text.AllBlank])
  | @blank c s h rest ih =>
    cases hblank : Text.isBlank c with
    | false =>
      refine Or.inr ⟨[], c, s, rfl, by simp [Text.AllBlank], hblank, ?_⟩
      rcases h with h | h <;> simp [beginsTrivia, h]
    | true =>
      rcases ih with hall | ⟨b, c', r, rfl, hb, hc', hbegins⟩
      · exact Or.inl (List.forall_mem_cons.mpr ⟨hblank, hall⟩)
      · exact Or.inr ⟨c :: b, c', r, rfl, List.forall_mem_cons.mpr ⟨hblank, hb⟩, hc', hbegins⟩
  | line | delimited =>
    exact Or.inr ⟨[], '/', _, rfl, by simp [Text.AllBlank], by decide, by decide⟩

theorem IsTrivia.head {s : List Char} (h : IsTrivia s) : ∀ c ∈ s.head?, beginsTrivia c = true := by
  cases h with
  | nil => exact nofun
  | blank h =>
    rintro c ⟨⟩
    rcases h with h | h <;> simp [beginsTrivia, h]
  | line | delimited =>
    rintro c ⟨⟩
    decide

theorem trimStart_trivia {s : List Char} (h : IsTrivia s) (t : List Char) :
    (Text.AllBlank s ∧ Text.trimStart (s ++ t) = Text.trimStart t) ∨
      (¬ Text.AllBlank s ∧ ∃ c r, Text.trimStart (s ++ t) = c :: r ∧
        Text.isBlank c = false ∧ beginsTrivia c = true) := by
  rcases h.blank_or with hall | ⟨b, c, r, rfl, hb, hc, hbegins⟩
  · exact Or.inl ⟨hall, Text.trimStart_append hall t⟩
  · refine Or.inr ⟨Text.not_allBlank (by simp) hc, c, r ++ t, ?_, hc, hbegins⟩
    rw [List.append_assoc, Text.trimStart_append hb, List.cons_append, Text.trimStart_of_head hc]

/-- The scan for the end of an annotation copies what stands between tokens up to the first character
that is no blank. -/
theorem IsTrivia.blank_or_copied {s : List Char} (h : IsTrivia s) :
    Text.AllBlank s ∨ ¬ Text.AllBlank s ∧ ∃ b c, Text.AllBlank b ∧ Text.isBlank c = false ∧
      beginsTrivia c = true ∧ ∀ d t, ∃ r, cutFrom d false (s ++ t) = b ++ c :: r := by
  rcases h.blank_or with hall | ⟨b, c, r, rfl, hb, hc, hbegins⟩
  · exact Or.inl hall
  · refine Or.inr ⟨Text.not_allBlank (by simp) hc, b, c, hb, hc, hbegins,
      fun d t => ⟨cutFrom d false (r ++ t), ?_⟩⟩
    obtain ⟨ho, hcl, he⟩ := inert_of_beginsTrivia hbegins
    rw [List.append_assoc, passes_blanks hb, List.cons_append]
    exact congrArg (b ++ ·) (composes_passes.inert ho hcl he d _)

/-! ## The colon -/

/-- The text where the scan expects the colon. -/
def fromColon (text : List Char) : List Char :=
  Text.trimStart (dropQuestion (Text.trimStart text))

theorem annotationAfter?_of_colon {text rest : List Char} (h : fromColon text = ':' :: rest) :
    annotationAfter? text = if (Text.trim (cutAtInitializer rest)).isEmpty then none
      else some (Text.trim (cutAtInitializer rest)) := by
  rw [fromColon] at h
  rw [annotationAfter?, h]
  rfl

theorem annotationAfter?_of_no_colon {text : List Char} (h : (fromColon text).head? ≠ some ':') :
    annotationAfter? text = none := by
  rw [fromColon] at h
  unfold annotationAfter?
  split
  · next hcolon =>
    rw [hcolon] at h
    exact absurd rfl h
  · rfl

theorem dropQuestion_of_ne {c : Char} (h : c ≠ '?') (s : List Char) :
    dropQuestion (c :: s) = c :: s := by
  unfold dropQuestion
  split
  · next heq =>
    obtain rfl := (List.cons.inj heq).1
    exact absurd rfl h
  · rfl

/-- Anything but a question mark in front of the colon hides it. -/
theorem fromColon_of_head {text r : List Char} {c : Char} (h : Text.trimStart text = c :: r)
    (hc : Text.isBlank c = false) (hquestion : c ≠ '?') : fromColon text = c :: r := by
  rw [fromColon, h, dropQuestion_of_ne hquestion, Text.trimStart_of_head hc]

theorem ne_of_beginsTrivia {c : Char} (h : beginsTrivia c = true) : c ≠ '?' ∧ c ≠ ':' := by
  refine ⟨?_, ?_⟩
  · rintro rfl
    cases h
  · rintro rfl
    cases h

namespace Annotation

variable {text : List Char}

/-- What stands behind the colon. -/
def rest (a : Annotation text) : List Char :=
  a.beforeType ++ (a.type ++ (a.afterType ++ initialText a.value))

/-- The scan finds the colon behind blanks and a question mark, and behind nothing else. -/
theorem fromColon_cases (a : Annotation text) :
    (fromColon text = ':' :: a.rest ∧
      a.mark ≠ .definite ∧ Text.AllBlank a.beforeMark ∧ Text.AllBlank a.beforeColon) ∨
    ((fromColon text).head? ≠ some ':' ∧
      ¬ (a.mark ≠ .definite ∧ Text.AllBlank a.beforeMark ∧ Text.AllBlank a.beforeColon)) := by
  have htext : text = a.beforeMark ++ (a.mark.text ++ (a.beforeColon ++ ':' :: a.rest)) := a.text_eq
  have hhidden : ∀ {c r}, Text.trimStart text = c :: r → Text.isBlank c = false →
      beginsTrivia c = true → (fromColon text).head? ≠ some ':' := by
    intro c r h hc hbegins
    obtain ⟨hquestion, hcolon⟩ := ne_of_beginsTrivia hbegins
    rw [fromColon_of_head h hc hquestion]
    simpa using hcolon
  have hfirst := trimStart_trivia a.beforeMark_trivia (a.mark.text ++ (a.beforeColon ++ ':' :: a.rest))
  have hsecond := trimStart_trivia a.beforeColon_trivia (':' :: a.rest)
  rw [← htext] at hfirst
  rcases hfirst with ⟨hmark, htrim⟩ | ⟨hmark, c, r, htrim, hc, hbegins⟩
  · cases hm : a.mark with
    | definite =>
      rw [hm] at htrim
      have hsign : fromColon text = '!' :: (a.beforeColon ++ ':' :: a.rest) :=
        fromColon_of_head htrim (by decide) (by decide)
      refine Or.inr ⟨?_, fun h => h.1 rfl⟩
      rw [hsign]
      simp
    | none =>
      rw [hm] at htrim
      rcases hsecond with ⟨hcolon, htrim'⟩ | ⟨hcolon, c, r, htrim', hc, hbegins⟩
      · have hfound : fromColon text = ':' :: a.rest :=
          fromColon_of_head (htrim.trans htrim') (by decide) (by decide)
        exact Or.inl ⟨hfound, by decide, hmark, hcolon⟩
      · exact Or.inr ⟨hhidden (htrim.trans htrim') hc hbegins, fun h => hcolon h.2.2⟩
    | optional =>
      rw [hm] at htrim
      have hfrom : fromColon text = Text.trimStart (a.beforeColon ++ ':' :: a.rest) := by
        rw [fromColon, htrim]
        rfl
      rw [hfrom]
      rcases hsecond with ⟨hcolon, htrim'⟩ | ⟨hcolon, c, r, htrim', hc, hbegins⟩
      · exact Or.inl ⟨htrim'.trans (Text.trimStart_of_head (by decide)), by decide, hmark, hcolon⟩
      · refine Or.inr ⟨?_, fun h => hcolon h.2.2⟩
        rw [htrim']
        simpa using (ne_of_beginsTrivia hbegins).2
  · exact Or.inr ⟨hhidden htrim hc hbegins, fun h => hmark h.2.1⟩

/-! ## The type -/

theorem type_trimmed (a : Annotation text) : Text.Trimmed a.type where
  head := by
    intro c hc
    by_contra hblank
    have hbegins := beginsTrivia_of_isBlank (c := c) (by simpa using hblank)
    rw [a.type_head c hc] at hbegins
    cases hbegins
  last := a.type_last

/-- What stands before the type is blank if the scan finds the type behind the colon. -/
theorem beforeType_blank (a : Annotation text)
    (h : Text.trim (cutAtInitializer a.rest) = a.type) : Text.AllBlank a.beforeType := by
  rcases a.beforeType_trivia.blank_or_copied with hall | ⟨-, b, c, hb, hc, hbegins, hcopied⟩
  · exact hall
  · obtain ⟨r, hr⟩ := hcopied 0 (a.type ++ (a.afterType ++ initialText a.value))
    have hhead : a.type.head? = some c := by
      rw [← h, cutAtInitializer, rest, hr, Text.head?_trim hb hc]
    rw [a.type_head c hhead] at hbegins
    cases hbegins

theorem head?_behind_type_ne (a : Annotation text) :
    (a.afterType ++ initialText a.value).head? ≠ some '>' := by
  intro h
  cases hafter : a.afterType with
  | nil =>
    rw [hafter, List.nil_append] at h
    cases hvalue : a.value <;> simp [hvalue, initialText] at h
  | cons c s =>
    have hhead : beginsTrivia c = true := by
      have htrivia := a.afterType_trivia
      rw [hafter] at htrivia
      exact htrivia.head c rfl
    rw [hafter] at h
    obtain rfl : c = '>' := Option.some.inj h
    cases hhead

/-- Behind a type, the scan goes over nothing but blanks if there are only blanks, and it ends at the
sign of an initial value if that stands outside of brackets. -/
theorem cut_behind_type_blank_iff (a : Annotation text) (d : Nat) :
    Text.AllBlank (cutFrom d false (a.afterType ++ initialText a.value)) ↔
      Text.AllBlank a.afterType ∧ (a.value.isSome → d = 0) := by
  rcases a.afterType_trivia.blank_or_copied with hall | ⟨hnot, b, c, hb, hc, -, hcopied⟩
  · rw [passes_blanks hall]
    cases hvalue : a.value with
    | none => simp [initialText, cutFrom, hall]
    | some v =>
      rw [initialText, cutFrom_sign (a.value_head v hvalue)]
      split_ifs with hd
      · simp [hd, hall]
      · refine ⟨fun h => absurd h ?_, fun h => absurd (h.2 rfl) hd⟩
        exact Text.not_allBlank (c := '=') (by simp) (by decide)
  · obtain ⟨r, hr⟩ := hcopied d (initialText a.value)
    refine ⟨fun h => absurd h ?_, fun h => absurd h.1 hnot⟩
    rw [hr]
    exact Text.not_allBlank (by simp) hc

theorem trim_cut_rest_of_blank (a : Annotation text) (hb : Text.AllBlank a.beforeType) :
    Text.trim (cutAtInitializer a.rest) = a.type ↔ Text.AllBlank a.afterType ∧ a.Seen := by
  have hfollow := a.head?_behind_type_ne
  have hcut : cutAtInitializer a.rest = a.beforeType ++
      cutFrom 0 false (a.type ++ (a.afterType ++ initialText a.value)) := passes_blanks hb 0 _
  rw [hcut]
  rcases cutFrom_append 0 false a.type with ⟨d, hwhole⟩ | ⟨p, hp, hpart⟩
  · -- The scan goes on behind the type at the depth `d`.
    have hsign : cutAtInitializer (a.type ++ ['=']) = a.type ↔ d = 0 := by
      rw [cutAtInitializer, hwhole ['='] (by simp), cutFrom_sign (by simp),
        List.append_right_eq_self]
      simp
    have htype : cutAtInitializer a.type = a.type := by
      simpa [cutAtInitializer, cutFrom] using hwhole [] (by simp)
    rw [hwhole _ hfollow, ← List.append_assoc,
      Text.trim_eq_iff hb a.type_trimmed a.type_ne_nil, a.cut_behind_type_blank_iff]
    constructor
    · rintro ⟨hafter, hd⟩
      exact ⟨hafter, htype, fun h => hsign.mpr (hd h)⟩
    · rintro ⟨hafter, hseen⟩
      exact ⟨hafter, fun h => hsign.mp (hseen.sign h)⟩
  · -- The scan ends inside of the type, so what it finds is too short.
    have htype : cutAtInitializer a.type = p := by
      simpa [cutAtInitializer] using hpart [] (by simp)
    rw [hpart _ hfollow]
    constructor
    · intro h
      have hle := Text.length_trim_le hb p
      rw [h] at hle
      omega
    · rintro ⟨-, hseen⟩
      rw [htype.symm.trans hseen.type] at hp
      omega

/-- Behind the colon, the scan finds the declared type if blanks stand around it and it is seen. -/
theorem trim_cut_rest_iff (a : Annotation text) :
    Text.trim (cutAtInitializer a.rest) = a.type ↔
      Text.AllBlank a.beforeType ∧ Text.AllBlank a.afterType ∧ a.Seen := by
  constructor
  · intro h
    have hb := a.beforeType_blank h
    exact ⟨hb, (a.trim_cut_rest_of_blank hb).mp h⟩
  · rintro ⟨hb, h⟩
    exact (a.trim_cut_rest_of_blank hb).mpr h

end Annotation

/-- The scan finds the declared type if the declaration is laid out with blanks, its name has no
exclamation mark and the type is passed over. In no other case is it the declared type that is
found. -/
theorem annotationAfter?_eq_some_iff {text : List Char} (a : Annotation text) :
    annotationAfter? text = some a.type ↔ a.Spaced ∧ a.Seen := by
  rcases a.fromColon_cases with ⟨hcolon, hmark, hbefore, hbeforeColon⟩ | ⟨hcolon, hnot⟩
  · rw [annotationAfter?_of_colon hcolon]
    have hiff : (if (Text.trim (cutAtInitializer a.rest)).isEmpty then none
        else some (Text.trim (cutAtInitializer a.rest))) = some a.type ↔
        Text.trim (cutAtInitializer a.rest) = a.type := by
      split_ifs with hempty
      · have hne := a.type_ne_nil
        rw [List.isEmpty_iff] at hempty
        simpa [hempty] using hne
      · exact Option.some_inj
    rw [hiff, a.trim_cut_rest_iff]
    constructor
    · rintro ⟨hbeforeType, hafterType, hseen⟩
      exact ⟨⟨hmark, hbefore, hbeforeColon, hbeforeType, hafterType⟩, hseen⟩
    · rintro ⟨hspaced, hseen⟩
      exact ⟨hspaced.beforeType, hspaced.afterType, hseen⟩
  · rw [annotationAfter?_of_no_colon hcolon]
    refine ⟨nofun, fun h => absurd ⟨h.1.mark, h.1.beforeMark, h.1.beforeColon⟩ hnot⟩

/-! ## Names -/

/-- The part of the source behind a declared name that is searched for its type: up to the initial
value of a variable, or all that is left of a parameter. -/
def typePlace? : Declaration → Option Span
  | .variable binding binder =>
    match binding.pattern with
    | .single _ =>
      some ⟨binder.span.stop, (binding.value.map (·.span.start)).getD binding.span.stop⟩
    | _ => none
  | .parameter binding binder =>
    match binding.pattern with
    | .single _ => some ⟨binder.span.stop, binding.span.stop⟩
    | _ => none
  | .other => none

theorem annotationBetween?_of_place {source annotation : List Char} {binder : Span} {stop : Nat}
    (h : annotationAfter? (Span.text source ⟨binder.stop, stop⟩) = some annotation) :
    annotationBetween? source binder stop = some annotation := by
  have hlt : ¬ stop ≤ binder.stop := by
    intro hle
    have hempty : Span.text source ⟨binder.stop, stop⟩ = [] := by
      unfold Span.text Span.cut?
      split_ifs with hge
      · obtain rfl : binder.stop = stop := Nat.le_antisymm hge hle
        cases hdrop : dropBytes source binder.stop <;> simp [takeBytes]
      · rfl
    rw [hempty] at h
    cases h
  rw [annotationBetween?, if_neg hlt, h]

theorem evidence_of_place {source annotation : List Char} {name : String}
    {declaration : Declaration} {place : Span} (hplace : typePlace? declaration = some place)
    (h : annotationAfter? (place.text source) = some annotation) :
    evidence source name (some declaration) = .settled (.ok (classify annotation)) := by
  rcases declaration with ⟨binding, binder⟩ | ⟨binding, binder⟩ | _
  · cases hpattern : binding.pattern with
    | single b =>
      simp only [typePlace?, hpattern, Option.some.injEq] at hplace
      rw [← hplace] at h
      simp only [evidence, hpattern, annotationBetween?_of_place h]
    | destructured | rest => simp [typePlace?, hpattern] at hplace
  · cases hpattern : binding.pattern with
    | single b =>
      simp only [typePlace?, hpattern, Option.some.injEq] at hplace
      rw [← hplace] at h
      simp only [evidence, hpattern, annotationBetween?_of_place h]
    | destructured | rest => simp [typePlace?, hpattern] at hplace
  · cases hplace

/-- The query passes over every type that is built from names, whatever brackets and arrows are
nested in it. -/
theorem Annotation.seen_of_text {text : List Char} (a : Annotation text) {t : TypeExpr}
    (h : a.type = t.text) : a.Seen where
  type := by
    rw [h]
    simpa [cutAtInitializer, cutFrom] using passes_text t 0 []
  sign := by
    intro _
    rw [h, cutAtInitializer, passes_text, cutFrom_sign (by simp)]
    simp

/-- For every name that is declared with a type, as a variable or as a parameter: the search of the
source finds exactly that type if and only if there are only blanks around it, the name has no
exclamation mark and the scan passes over the type, as it does over all types built from names. If so,
the name has the declared type. -/
theorem typeOf_declared {source : List Char} {resolver : Resolver} {e : Expr} {span place : Span}
    {name : String} {declaration : Declaration} (he : e.bare = .name span name)
    (hdeclared : resolver name span.start = some declaration)
    (hplace : typePlace? declaration = some place) (a : Annotation (place.text source)) :
    (annotationAfter? (place.text source) = some a.type ↔ a.Spaced ∧ a.Seen) ∧
    (a.Spaced → a.Seen → typeOf source resolver e = .ok (classify a.type)) ∧
    (∀ t : TypeExpr, a.type = t.text → a.Spaced →
      typeOf source resolver e = .ok (classify t.text)) := by
  have hfound : a.Spaced → a.Seen → typeOf source resolver e = .ok (classify a.type) := by
    intro hspaced hseen
    have hannotation := (annotationAfter?_eq_some_iff a).mpr ⟨hspaced, hseen⟩
    have hevidence : evidence source name (some declaration) = .settled (.ok (classify a.type)) :=
      evidence_of_place hplace hannotation
    simp only [typeOf, typeWithin, he, hdeclared, hevidence]
  refine ⟨annotationAfter?_eq_some_iff a, hfound, ?_⟩
  intro t ht hspaced
  rw [← ht]
  exact hfound hspaced (a.seen_of_text ht)

/-- The variable that `let xs: A[] = v;` declares. -/
theorem typeOf_declared_array :
    typeOf "let xs: A[] = v;".toList
      (fun _ _ => some (.variable (.mk ⟨4, 15⟩ (.single ⟨"xs", ⟨4, 6⟩⟩) [] (some (.name ⟨14, 15⟩ "v")))
        ⟨"xs", ⟨4, 6⟩⟩))
      (.name ⟨17, 19⟩ "xs") = .ok ⟨.array, "A[]".toList⟩ := by
  let a : Annotation (Span.text "let xs: A[] = v;".toList ⟨6, 14⟩) :=
    { beforeMark := []
      mark := .none
      beforeColon := []
      beforeType := [' ']
      type := ['A', '[', ']']
      afterType := [' ']
      value := some [' ']
      text_eq := by rfl
      beforeMark_trivia := .nil
      beforeColon_trivia := .nil
      beforeType_trivia := .blank (by decide) .nil
      afterType_trivia := .blank (by decide) .nil
      type_ne_nil := by decide
      type_head := by simp; decide
      type_last := by simp; decide
      value_head := by simp }
  exact (typeOf_declared rfl rfl rfl a).2.1
    ⟨by decide, by simp [a, Text.AllBlank], by simp [a, Text.AllBlank],
      by simp [a, Text.AllBlank]; decide, by simp [a, Text.AllBlank]; decide⟩
    ⟨by rfl, by intro _; rfl⟩

/-- The declared type of `xs` is not found if the name has an exclamation mark. -/
theorem typeOf_definite_unresolved :
    (∃ a : Annotation (Span.text "let xs!: string[];\nxs;".toList ⟨6, 17⟩),
      a.type = "string[]".toList) ∧
    typeOf "let xs!: string[];\nxs;".toList
      (fun _ _ => some (.variable (.mk ⟨4, 17⟩ (.single ⟨"xs", ⟨4, 6⟩⟩) [] none) ⟨"xs", ⟨4, 6⟩⟩))
      (.name ⟨19, 21⟩ "xs") = .error (.unresolved "xs") ∧
    classify "string[]".toList = ⟨.array, "string[]".toList⟩ := by
  refine ⟨⟨{
      beforeMark := []
      mark := .definite
      beforeColon := []
      beforeType := [' ']
      type := "string[]".toList
      afterType := []
      value := none
      text_eq := by rfl
      beforeMark_trivia := .nil
      beforeColon_trivia := .nil
      beforeType_trivia := .blank (by decide) .nil
      afterType_trivia := .nil
      type_ne_nil := by decide
      type_head := by simp; decide
      type_last := by simp; decide
      value_head := by simp }, rfl⟩, rfl, rfl⟩

end ComponentLint.Types
