import ComponentLint.Proofs.Located
import ComponentLint.Proofs.Parentheses
import ComponentLint.Proofs.Places
import ComponentLint.Rule.EffectComments

/-!
# Which effects are reported

An effect is a call of `useEffect` whose first argument is a function with its statements in braces.
It is reported, once and at its place, unless a comment inside these braces says something. So more
comments never lead to more reports, and a comment on an inner effect speaks for all effects around
it.
-/

namespace ComponentLint.EffectComments

open Script (Comment Expr Node)

/-- What an effect calls: the name `useEffect`, or a member of that name. -/
inductive NamesEffect : Expr → Prop where
  | name (span) : NamesEffect (.name span "useEffect")
  | member (span object optional) : NamesEffect (.member span object "useEffect" optional)

/-- `IsEffect e span body`: the expression `e` is a call at `span` of what an effect calls, in any
number of parentheses, and its first argument is a function whose statements stand in the braces
`body`. -/
inductive IsEffect : Expr → Span → Span → Prop where
  | intro {span callee named types place fn more optional body} (hcallee : callee.Wraps named)
      (hnamed : NamesEffect named) (hbody : fn.braces = some body) :
      IsEffect (.call span callee types (.function place fn :: more) optional) span body

/-- `Says raw text`: a comment that is written as `raw` says `text`. What is no comment speaks for
itself. -/
inductive Says : List Char → List Char → Prop where
  | line (text) : Says ("//".toList ++ text) text
  | block (text) : Says ("/*".toList ++ text ++ "*/".toList) text
  | unclosed {text} (h : ¬ "*/".toList <:+ text) : Says ("/*".toList ++ text) text
  | plain {text} (hline : ¬ "//".toList <+: text) (hblock : ¬ "/*".toList <+: text) : Says text text

/-- A comment explains a body: it lies inside, and what it says is longer than ten UTF-16 units
without the blanks around it. -/
def Explains (source : List Char) (body : Span) (c : Comment) : Prop :=
  body.start ≤ c.span.start ∧ c.span.stop ≤ body.stop ∧
    ∃ text, Says (c.span.text source) text ∧ 10 < Text.units16 (Text.trim text)

theorem contents_of_block (text : List Char) :
    contents ("/*".toList ++ text) = (Text.dropBack? text "*/".toList).getD text := by
  have hline : Text.dropFront? ("/*".toList ++ text) "//".toList = none := by
    rw [Text.dropFront?_eq_none_iff]
    simp
  rw [contents, hline, Text.dropFront?_eq_some_iff.mpr rfl]

/-- The text of a comment without its delimiters is what the comment says. -/
theorem contents_eq_iff {raw text : List Char} : contents raw = text ↔ Says raw text := by
  constructor
  · rintro rfl
    cases hline : Text.dropFront? raw "//".toList with
    | some line =>
      rw [contents, hline, Text.dropFront?_eq_some_iff.mp hline]
      exact .line line
    | none =>
      cases hblock : Text.dropFront? raw "/*".toList with
      | some block =>
        rw [Text.dropFront?_eq_some_iff.mp hblock, contents_of_block]
        cases hback : Text.dropBack? block "*/".toList with
        | some text =>
          rw [Text.dropBack?_eq_some_iff.mp hback, ← List.append_assoc]
          exact .block text
        | none => exact .unclosed (Text.dropBack?_eq_none_iff.mp hback)
      | none =>
        rw [contents, hline, hblock]
        exact .plain (Text.dropFront?_eq_none_iff.mp hline) (Text.dropFront?_eq_none_iff.mp hblock)
  · intro h
    cases h with
    | line => rw [contents, Text.dropFront?_eq_some_iff.mpr rfl]
    | block =>
      rw [List.append_assoc, contents_of_block, Text.dropBack?_eq_some_iff.mpr rfl]
      rfl
    | unclosed hend =>
      rw [contents_of_block, Text.dropBack?_eq_none_iff.mpr hend]
      rfl
    | plain hline hblock =>
      rw [contents, Text.dropFront?_eq_none_iff.mpr hline, Text.dropFront?_eq_none_iff.mpr hblock]

theorem isExplained_iff {source : List Char} {comments : List Comment} {body : Span} :
    isExplained source comments body = true ↔ ∃ c ∈ comments, Explains source body c := by
  unfold isExplained isExplanation
  rw [List.any_eq_true]
  refine exists_congr fun c => and_congr_right fun _ => ?_
  rw [Bool.and_eq_true, Span.encloses, Bool.and_eq_true, decide_eq_true_eq, decide_eq_true_eq,
    decide_eq_true_eq, and_assoc]
  refine and_congr_right fun _ => and_congr_right fun _ => ?_
  constructor
  · intro h
    exact ⟨_, contents_eq_iff.mp rfl, h⟩
  · rintro ⟨text, hsays, h⟩
    rw [contents_eq_iff.mpr hsays]
    exact h

/-! ## One call -/

theorem isEffectFunction_iff {e : Expr} : isEffectFunction e = true ↔ NamesEffect e := by
  constructor
  · intro h
    unfold isEffectFunction at h
    split at h
    · next span text =>
      obtain rfl : text = "useEffect" := beq_iff_eq.mp h
      exact .name span
    · next span object property optional =>
      obtain rfl : property = "useEffect" := beq_iff_eq.mp h
      exact .member span object optional
    · cases h
  · rintro (_ | _)
    · rfl
    · rfl

theorem NamesEffect.bare_eq {e : Expr} (h : NamesEffect e) : e.bare = e := by
  cases h with
  | name => rfl
  | member => rfl

/-- What is called is the effect function, through parentheses. -/
theorem isEffectFunction_bare_iff {callee : Expr} :
    isEffectFunction callee.bare = true ↔ ∃ named, callee.Wraps named ∧ NamesEffect named := by
  rw [isEffectFunction_iff]
  constructor
  · intro h
    exact ⟨callee.bare, callee.wraps_bare, h⟩
  · rintro ⟨named, hwraps, hnamed⟩
    rw [(Expr.bare_eq_iff hnamed.bare_eq).mpr hwraps]
    exact hnamed

/-- The finding about an effect at a span. -/
def missing (span : Span) : Diagnostic :=
  (Diagnostic.ofTemplate rule span "missingComment" missingComment []).withSeverity .error

/-- An expression is reported exactly if it is an effect that no comment explains. -/
theorem checkCall_eq_some_iff {source : List Char} {comments : List Comment} {e : Expr}
    {d : Diagnostic} :
    checkCall source comments e = some d ↔ ∃ span body, IsEffect e span body ∧
      (∀ c ∈ comments, ¬ Explains source body c) ∧ d = missing span := by
  have hexplained : ∀ body, (¬ isExplained source comments body = true) ↔
      ∀ c ∈ comments, ¬ Explains source body c := by
    intro body
    rw [isExplained_iff]
    simp
  constructor
  · intro h
    unfold checkCall at h
    split at h
    · next span callee types arguments optional =>
      split_ifs at h with hcallee
      obtain ⟨named, hwraps, hnamed⟩ := isEffectFunction_bare_iff.mp hcallee
      obtain ⟨body, hbody, hd⟩ := Option.bind_eq_some_iff.mp h
      split_ifs at hd with hsilent
      unfold effectBody? at hbody
      split at hbody
      · next place fn more =>
        exact ⟨span, body, .intro hwraps hnamed hbody, (hexplained body).mp hsilent,
          (Option.some.inj hd).symm⟩
      · cases hbody
    · cases h
  · rintro ⟨span, body, heffect, hsilent, rfl⟩
    cases heffect with
    | intro hcallee hnamed hbody =>
      have heffects := isEffectFunction_bare_iff.mpr ⟨_, hcallee, hnamed⟩
      simp only [checkCall, heffects, if_true, effectBody?, hbody, Option.bind_some]
      rw [if_neg ((hexplained body).mpr hsilent), missing]

/-! ## All effects -/

/-- An effect with the braces `body` stands at a place of a file. -/
def EffectAt (file : SourceFile) (place : List Nat) (body : Span) : Prop :=
  ∃ e span, file.program.at? place = some (.expr e) ∧ IsEffect e span body

/-- What a finding says about a place: that there is an effect without a comment. -/
def Reports (file : SourceFile) (place : List Nat) (d : Diagnostic) : Prop :=
  ∃ e span body, file.program.at? place = some (.expr e) ∧ IsEffect e span body ∧
    d.span = span ∧ d.messageId = "missingComment"

theorem IsEffect.unique {e : Expr} {span span' body body' : Span} (h : IsEffect e span body)
    (h' : IsEffect e span' body') : body = body' := by
  cases h with
  | intro _ _ hbody =>
    cases h' with
    | intro _ _ hbody' => exact Option.some.inj (hbody.symm.trans hbody')

theorem EffectAt.unique {file : SourceFile} {place : List Nat} {body body' : Span}
    (h : EffectAt file place body) (h' : EffectAt file place body') : body = body' := by
  obtain ⟨e, span, he, heffect⟩ := h
  obtain ⟨e', span', he', heffect'⟩ := h'
  rw [he] at he'
  cases he'
  exact heffect.unique heffect'

/-- Something is found at a place exactly if an effect stands there that no comment explains. -/
theorem exists_checkCall_at_iff {file : SourceFile} {place : List Nat} :
    (∃ e d, file.program.at? place = some (.expr e) ∧
        checkCall file.source file.program.comments e = some d) ↔
      ∃ body, EffectAt file place body ∧
        ∀ c ∈ file.program.comments, ¬ Explains file.source body c := by
  constructor
  · rintro ⟨e, d, he, hd⟩
    obtain ⟨span, body, heffect, hsilent, -⟩ := checkCall_eq_some_iff.mp hd
    exact ⟨body, ⟨e, span, he, heffect⟩, hsilent⟩
  · rintro ⟨body, ⟨e, span, he, heffect⟩, hsilent⟩
    exact ⟨e, missing span, he, checkCall_eq_some_iff.mpr ⟨span, body, heffect, hsilent, rfl⟩⟩

/-- A comment that explains a body explains every body around it. -/
theorem Explains.around {source : List Char} {body around : Span} {c : Comment}
    (h : Explains source body c) (haround : around.encloses body = true) :
    Explains source around c := by
  obtain ⟨hstart, hstop, hsays⟩ := h
  rw [Span.encloses, Bool.and_eq_true, decide_eq_true_eq, decide_eq_true_eq] at haround
  exact ⟨Nat.le_trans haround.1 hstart, Nat.le_trans hstop haround.2, hsays⟩

/-- Among more comments an expression is reported only if it is among fewer. -/
theorem checkCall_of_subset {source : List Char} {comments more : List Comment}
    (hmore : comments ⊆ more) (e : Expr) (d : Diagnostic) (hd : checkCall source more e = some d) :
    checkCall source comments e = some d := by
  obtain ⟨span, body, heffect, hsilent, rfl⟩ := checkCall_eq_some_iff.mp hd
  exact checkCall_eq_some_iff.mpr ⟨span, body, heffect, fun c hc => hsilent c (hmore hc), rfl⟩

/-- Every effect that no comment explains is reported, once and at its span, and nothing else is. A
comment that explains an effect also explains every effect whose braces stand around it, so that
neither is reported; and more comments lead to no more reports. -/
theorem check_reports_unexplained_effects (file : SourceFile) :
    (∃ places : List (List Nat),
      places.Pairwise (· < ·) ∧
      (∀ place, place ∈ places ↔ ∃ body, EffectAt file place body ∧
        ∀ c ∈ file.program.comments, ¬ Explains file.source body c) ∧
      List.Forall₂ (Reports file) places (check file) ∧
      ∀ inner body outer around, EffectAt file inner body → EffectAt file outer around →
        around.encloses body = true →
        (∃ c ∈ file.program.comments, Explains file.source body c) →
        inner ∉ places ∧ outer ∉ places) ∧
    ∀ comments, file.program.comments ⊆ comments →
      (check { file with program.comments := comments }).Sublist (check file) := by
  obtain ⟨all, hall⟩ := (Node.program file.program).enumerates
  obtain ⟨places, hplaces⟩ := hall.filterMap (checkCall file.source file.program.comments)
  have hmem : ∀ place, place ∈ places ↔ ∃ body, EffectAt file place body ∧
      ∀ c ∈ file.program.comments, ¬ Explains file.source body c := by
    intro place
    rw [hplaces.mem_iff]
    simp only [Node.expr?_eq_some_iff]
    exact exists_checkCall_at_iff
  have hexplained : ∀ place body c, EffectAt file place body → c ∈ file.program.comments →
      Explains file.source body c → place ∉ places := by
    intro place body c heffect hc hexplains hplace
    obtain ⟨body', heffect', hsilent⟩ := (hmem place).mp hplace
    rw [heffect.unique heffect'] at hexplains
    exact hsilent c hc hexplains
  refine ⟨⟨places, hplaces.ascending, hmem, hplaces.located.imp fun place d => ?_, ?_⟩, ?_⟩
  · rintro ⟨e, he, hd⟩
    obtain ⟨span, body, heffect, -, rfl⟩ := checkCall_eq_some_iff.mp hd
    exact ⟨e, span, body, Node.expr?_eq_some_iff.mp he, heffect, rfl, rfl⟩
  · rintro inner body outer around hinner houter haround ⟨c, hc, hexplains⟩
    exact ⟨hexplained inner body c hinner hc hexplains,
      hexplained outer around c houter hc (hexplains.around haround)⟩
  · intro comments hmore
    exact filterMap_sublist_filterMap (checkCall_of_subset hmore) _

end ComponentLint.EffectComments
