import ComponentLint.Proofs.Targets
import ComponentLint.Script.Parser

/-!
# What is read as a target

The parser meets what is written to in four places: before a sign of assignment, before and behind
an increment or decrement, and in the head of a loop. In each of them the expression that has been
read so far is turned into a target and is not kept as an expression. `ReadsTargets` says so
of the productions, whatever the productions inside them read.
-/

namespace ComponentLint.Script

/-- `left.WrittenIn e`: the expression `e` writes to what has been read as the expression `left`. -/
inductive Expr.WrittenIn (left : Expr) : Expr → Prop where
  | assign {span t value} (h : left.ReadAs [.target t]) : WrittenIn left (.assign span t value)
  | update {span t value} (h : left.ReadAs [.target t]) : WrittenIn left (.update span t value)

/-- An increment or decrement. -/
def TokenKind.IsStep (kind : TokenKind) : Prop := kind = .punct "++" ∨ kind = .punct "--"

namespace Parser

/-- The productions that write turn what is written to into a target. -/
structure ReadsTargets (g : Grammar) : Prop where
  /-- Before a sign of assignment, which may begin with a closing angle bracket. -/
  assignment : ∀ {first returnType left e c s s₁ s' sign}, joinClose c s = .ok () s₁ →
    s₁.token.kind = .punct sign → (sign = "=" ∨ sign ∈ updateSigns) →
    assignmentRest g first returnType left c s = .ok e s' → left.WrittenIn e
  /-- Before an increment or decrement in the same line. -/
  stepAfter : ∀ {left e c s s₁ s'}, leftHandSide g c s = .ok left s₁ →
    s₁.token.afterNewline = false → s₁.token.kind.IsStep →
    postfixUpdate g c s = .ok e s' → left.WrittenIn e
  /-- Behind an increment or decrement. -/
  stepBefore : ∀ {operand e c s s₁ s₂ s'}, s.token.kind.IsStep → advance c s = .ok () s₁ →
    g .unary c s₁ = .ok operand s₂ → Parser.unary g c s = .ok e s' → operand.WrittenIn e
  /-- In the head of a loop over the values or keys of something. -/
  loop : ∀ {waits isOf head body c s s₁ s₂ s'}, isWordAfter "of" c s = .ok isOf s₁ →
    g.sequenceHere { c with inAllowed := false } s₁ = .ok head s₂ →
    (s₂.token.kind.word? = some "of" ∨ s₂.token.kind.word? = some "in") →
    expressionLoop g waits c s = .ok body s' →
    ∃ t more, body = .target t :: more ∧ head.ReadAs [.target t]

variable {α β : Type} {c : Context} {s s' : State} {g : Grammar}

/-! ## Steps -/

theorem bind_ok_iff {x : Parser α} {f : α → Parser β} {b : β} :
    (x >>= f) c s = .ok b s' ↔ ∃ a s₁, x c s = .ok a s₁ ∧ f a c s₁ = .ok b s' := by
  change EStateM.bind (x c) (fun a => f a c) s = .ok b s' ↔ _
  unfold EStateM.bind
  cases x c s with
  | ok a s₁ => simp
  | error e s₁ => simp

theorem pure_ok_iff {a b : α} : (pure a : Parser α) c s = .ok b s' ↔ a = b ∧ s = s' := by
  change EStateM.Result.ok a s = .ok b s' ↔ _
  simp

theorem bind_of_ok {x : Parser α} {f : α → Parser β} {a : α} {s₁ : State}
    (h : x c s = .ok a s₁) : (x >>= f) c s = f a c s₁ := by
  change EStateM.bind (x c) (fun a => f a c) s = _
  rw [EStateM.bind, h]

theorem kind_eq : kind c s = .ok s.token.kind s := rfl

theorem start_eq : start c s = .ok s.token.span.start s := rfl

theorem afterNewline_eq : afterNewline c s = .ok s.token.afterNewline s := rfl

theorem atPunct_eq (text : String) :
    atPunct text c s = .ok (s.token.kind == .punct text) s := rfl

theorem atWord_eq (text : String) :
    atWord text c s = .ok (s.token.kind.word? == some text) s := rfl

/-- A flaw changes nothing about the next token. -/
theorem token_of_expectThat {condition : Bool} {u : Unit}
    (h : expectThat condition c s = .ok u s') : s'.token = s.token := by
  cases condition with
  | false =>
    cases h
    rfl
  | true =>
    cases h
    rfl

/-! ## Targets -/

theorem readAs_of_placeOf {e : Expr} {t : Target} (h : placeOf e c s = .ok t s') :
    e.ReadAs [.target t] := by
  unfold placeOf at h
  cases hplace : e.place? with
  | none =>
    rw [hplace] at h
    cases h
  | some place =>
    rw [hplace] at h
    obtain ⟨rfl, -⟩ := pure_ok_iff.mp h
    exact Expr.readAs_of_place hplace

theorem readAs_of_targetOf {e : Expr} {t : Target} (h : targetOf e c s = .ok t s') :
    e.ReadAs [.target t] := by
  unfold targetOf at h
  obtain ⟨s₀, s₁, -, h⟩ := bind_ok_iff.mp h
  cases hr : e.target? s₀.sealedSpreads with
  | none =>
    rw [hr] at h
    cases h
  | some r =>
    rw [hr] at h
    obtain ⟨-, s₂, -, h⟩ := bind_ok_iff.mp h
    obtain ⟨rfl, -⟩ := pure_ok_iff.mp h
    exact Expr.readAs_of_target hr

/-! ## Productions -/

/-- What has been made of a target, a sign and the value behind it. -/
theorem exists_of_write {target : Parser Target} {sign : Parser Unit} {right : Parser Expr}
    {build : Span → Target → Expr → Expr} {first : Nat} {e : Expr}
    (h : (do
      let t ← target
      sign
      let value ← right
      return build (← spanFrom first) t value : Parser Expr) c s = .ok e s') :
    ∃ t value span s₁, target c s = .ok t s₁ ∧ e = build span t value := by
  obtain ⟨t, s₁, ht, h⟩ := bind_ok_iff.mp h
  obtain ⟨-, s₂, -, h⟩ := bind_ok_iff.mp h
  obtain ⟨value, s₃, -, h⟩ := bind_ok_iff.mp h
  obtain ⟨span, s₄, -, h⟩ := bind_ok_iff.mp h
  obtain ⟨rfl, -⟩ := pure_ok_iff.mp h
  exact ⟨t, value, span, s₁, ht, rfl⟩

theorem writtenIn_of_assignmentRest {first : Nat} {returnType : Bool} {left e : Expr} {s₁ : State}
    {sign : String} (hjoin : joinClose c s = .ok () s₁) (hsign : s₁.token.kind = .punct sign)
    (hmem : sign = "=" ∨ sign ∈ updateSigns)
    (h : assignmentRest g first returnType left c s = .ok e s') : left.WrittenIn e := by
  rw [assignmentRest, bind_of_ok hjoin, bind_of_ok kind_eq, hsign] at h
  rcases hmem with rfl | hmem
  · obtain ⟨t, value, span, s₂, ht, rfl⟩ := exists_of_write h
    exact .assign (readAs_of_targetOf ht)
  · have hother : sign ≠ "=" ∧ sign ≠ "?" :=
      (by decide : ∀ sign ∈ updateSigns, sign ≠ "=" ∧ sign ≠ "?") sign hmem
    have hcontains : updateSigns.contains sign = true := List.contains_iff_mem.mpr hmem
    simp only [hother.1, hother.2, imp_false, not_false_eq_true, hcontains, if_true] at h
    obtain ⟨t, value, span, s₂, ht, rfl⟩ := exists_of_write h
    exact .update (readAs_of_placeOf ht)

theorem writtenIn_of_postfixUpdate {left e : Expr} {s₁ : State}
    (hleft : leftHandSide g c s = .ok left s₁) (hline : s₁.token.afterNewline = false)
    (hstep : s₁.token.kind.IsStep) (h : postfixUpdate g c s = .ok e s') : left.WrittenIn e := by
  have hsign : (s₁.token.kind == .punct "++" || s₁.token.kind == .punct "--") = true := by
    simpa [TokenKind.IsStep] using hstep
  rw [postfixUpdate, bind_of_ok start_eq, bind_of_ok hleft, bind_of_ok afterNewline_eq, hline,
    if_neg Bool.false_ne_true, bind_of_ok (atPunct_eq _), bind_of_ok (atPunct_eq _),
    if_pos hsign] at h
  obtain ⟨t, s₂, ht, h⟩ := bind_ok_iff.mp h
  obtain ⟨-, s₃, -, h⟩ := bind_ok_iff.mp h
  obtain ⟨span, s₄, -, h⟩ := bind_ok_iff.mp h
  obtain ⟨rfl, -⟩ := pure_ok_iff.mp h
  exact .update (readAs_of_placeOf ht)

theorem writtenIn_of_unary {operand e : Expr} {s₁ s₂ : State} (hstep : s.token.kind.IsStep)
    (hadvance : advance c s = .ok () s₁) (hoperand : g .unary c s₁ = .ok operand s₂)
    (h : Parser.unary g c s = .ok e s') : operand.WrittenIn e := by
  rw [Parser.unary, bind_of_ok start_eq, bind_of_ok kind_eq] at h
  have hrun : (do
      advance
      let t ← placeOf (← g .unary)
      return .update (← spanFrom s.token.span.start) t none : Parser Expr) c s = .ok e s' := by
    rcases hstep with hsign | hsign
    · rw [hsign] at h
      exact h
    · rw [hsign] at h
      exact h
  rw [bind_of_ok hadvance, bind_of_ok hoperand] at hrun
  obtain ⟨t, s₃, ht, h⟩ := bind_ok_iff.mp hrun
  obtain ⟨span, s₄, -, h⟩ := bind_ok_iff.mp h
  obtain ⟨rfl, -⟩ := pure_ok_iff.mp h
  exact .update (readAs_of_placeOf ht)

theorem exists_target_of_iterationTail {t : Target} {body : List Stmt}
    (h : iterationTail g [.target t] c s = .ok body s') : ∃ more, body = .target t :: more := by
  have hrest : ∀ {range s₁}, (do
      expectPunct ")"
      let inside ← g.statement true
      return [.target t] ++ [part range, inside] : Parser (List Stmt)) c s₁ = .ok body s' →
      ∃ more, body = .target t :: more := by
    intro range s₁ h
    obtain ⟨-, s₂, -, h⟩ := bind_ok_iff.mp h
    obtain ⟨inside, s₃, -, h⟩ := bind_ok_iff.mp h
    obtain ⟨rfl, -⟩ := pure_ok_iff.mp h
    exact ⟨[part range, inside], rfl⟩
  unfold iterationTail at h
  obtain ⟨isOf, s₁, -, h⟩ := bind_ok_iff.mp h
  cases isOf with
  | true =>
    obtain ⟨range, s₂, -, h⟩ := bind_ok_iff.mp h
    exact hrest h
  | false =>
    obtain ⟨-, s₂, -, h⟩ := bind_ok_iff.mp h
    obtain ⟨range, s₃, -, h⟩ := bind_ok_iff.mp h
    exact hrest h

theorem exists_target_of_expressionLoop {waits isOf : Bool} {head : Expr} {body : List Stmt}
    {s₁ s₂ : State} (hafter : isWordAfter "of" c s = .ok isOf s₁)
    (hhead : g.sequenceHere { c with inAllowed := false } s₁ = .ok head s₂)
    (hword : s₂.token.kind.word? = some "of" ∨ s₂.token.kind.word? = some "in")
    (h : expressionLoop g waits c s = .ok body s') :
    ∃ t more, body = .target t :: more ∧ head.ReadAs [.target t] := by
  rw [expressionLoop, bind_of_ok (atWord_eq _), bind_of_ok kind_eq, bind_of_ok hafter] at h
  have hwithin : within (fun c => { c with inAllowed := false }) g.sequenceHere c s₁ =
      .ok head s₂ := hhead
  rw [bind_of_ok hwithin, bind_of_ok (atWord_eq _)] at h
  by_cases hof : s₂.token.kind.word? = some "of"
  · rw [if_pos (by simpa using hof)] at h
    obtain ⟨-, s₃, -, h⟩ := bind_ok_iff.mp h
    obtain ⟨t, s₄, ht, h⟩ := bind_ok_iff.mp h
    obtain ⟨more, rfl⟩ := exists_target_of_iterationTail h
    exact ⟨t, more, rfl, readAs_of_targetOf ht⟩
  · rw [if_neg (by simpa using hof)] at h
    obtain ⟨u, s₃, hflaw, h⟩ := bind_ok_iff.mp h
    have hin : s₃.token.kind.word? = some "in" := by
      rw [token_of_expectThat hflaw]
      exact hword.resolve_left hof
    rw [bind_of_ok (atWord_eq _), if_pos (by simpa using hin)] at h
    obtain ⟨t, s₄, ht, h⟩ := bind_ok_iff.mp h
    obtain ⟨more, rfl⟩ := exists_target_of_iterationTail h
    exact ⟨t, more, rfl, readAs_of_targetOf ht⟩

theorem readsTargets (g : Grammar) : ReadsTargets g where
  assignment := writtenIn_of_assignmentRest
  stepAfter := writtenIn_of_postfixUpdate
  stepBefore := writtenIn_of_unary
  loop := exists_target_of_expressionLoop

end Parser

end ComponentLint.Script
