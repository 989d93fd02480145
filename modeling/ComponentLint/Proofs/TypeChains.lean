import ComponentLint.Types.Query
import Mathlib.Tactic.Common

/-!
# Chains of initial values

The type of some expressions is that of another one: of the operand of `satisfies`, or of the initial
value of the variable that a name stands for. `Leads` says which one that is, for any assignment of
declarations to names. A type query follows at most eight such steps. If they end at an expression
that leads nowhere, the answer is the one for that expression; otherwise, and so in every cycle, the
query gives up.
-/

namespace ComponentLint.Types

open Script (Binding Binder Declaration Expr)

variable {source : List Char} {resolver : Resolver}

/-- The type of `e` is that of another expression: parentheses aside, `e` is a `satisfies` expression
with that operand, or the name of a variable with that initial value and no annotation in the text
between them. -/
inductive Leads (source : List Char) (resolver : Resolver) : Expr → Expr → Prop
  | operand {e operand : Expr} {span : Span} {parts : List Expr}
      (he : e.bare = .satisfies span operand parts) : Leads source resolver e operand
  | initial {e value : Expr} {span : Span} {text : String} {binding : Binding} {binder b : Binder}
      (he : e.bare = .name span text)
      (hdeclared : resolver text span.start = some (.variable binding binder))
      (hsingle : binding.pattern = .single b) (hvalue : binding.value = some value)
      (hplain : annotationBetween? source binder.span value.span.start = none) :
      Leads source resolver e value

/-- The type of `e` is not that of another expression. -/
def Terminal (source : List Char) (resolver : Resolver) (e : Expr) : Prop :=
  ∀ e', ¬ Leads source resolver e e'

/-- The steps of a chain, counted. -/
inductive Chain (source : List Char) (resolver : Resolver) : Nat → Expr → Expr → Prop
  | done (e : Expr) : Chain source resolver 0 e e
  | step {n : Nat} {e e' t : Expr} (h : Leads source resolver e e')
      (rest : Chain source resolver n e' t) : Chain source resolver (n + 1) e t

/-! ## One step -/

/-- Only the initial value of a variable without annotation is evidence that points further. -/
theorem evidence_eq_initial_iff {name : String} {declaration : Option Declaration} {value : Expr} :
    evidence source name declaration = .initial value ↔
      ∃ binding binder b, declaration = some (.variable binding binder) ∧
        binding.pattern = .single b ∧ binding.value = some value ∧
        annotationBetween? source binder.span value.span.start = none := by
  constructor
  · intro h
    unfold evidence at h
    split at h
    · cases h
    · next binding binder =>
      split at h
      · next b hsingle =>
        simp only at h
        split at h
        · cases h
        · next value' hplain hvalue =>
          obtain rfl : value' = value := Evidence.initial.inj h
          rw [hvalue] at hplain
          exact ⟨binding, binder, b, rfl, hsingle, hvalue, hplain⟩
        · cases h
      · cases h
    · split at h
      · split at h
        · cases h
        · cases h
      · cases h
    · cases h
  · rintro ⟨binding, binder, b, rfl, hsingle, hvalue, hplain⟩
    simp [evidence, hsingle, hvalue, hplain]

/-- No declaration settles a type by exceeding the depth. -/
theorem evidence_ne_depthExceeded {name : String} {declaration : Option Declaration} :
    evidence source name declaration ≠ .settled (.error .depthExceeded) := by
  intro h
  unfold evidence at h
  split at h
  · simp at h
  · split at h
    · simp only at h
      split at h <;> simp at h
    · simp at h
  · split at h
    · split at h <;> simp at h
    · simp at h
  · simp at h

/-- A step costs one unit of depth and parentheses cost none. -/
theorem typeWithin_of_leads {e e' : Expr} (h : Leads source resolver e e') (n : Nat) :
    typeWithin source resolver (n + 1) e = typeWithin source resolver n e' := by
  cases h with
  | operand he => simp only [typeWithin, he]
  | @initial span text binding binder b he hdeclared hsingle hvalue hplain =>
    have hevidence : evidence source text (resolver text span.start) = .initial e' :=
      evidence_eq_initial_iff.mpr ⟨binding, binder, b, hdeclared, hsingle, hvalue, hplain⟩
    simp only [typeWithin, he, hevidence]

theorem callType_ne_depthExceeded (callee : Expr) :
    callType callee ≠ .error .depthExceeded := by
  unfold callType
  split
  · simp
  · split_ifs <;> simp

/-- The answer for an expression that leads nowhere does not depend on the depth that is left. -/
theorem typeWithin_of_terminal {e : Expr} (h : Terminal source resolver e) (n : Nat) :
    typeWithin source resolver (n + 1) e = typeWithin source resolver 1 e ∧
      typeWithin source resolver (n + 1) e ≠ .error .depthExceeded := by
  unfold typeWithin
  cases hbare : e.bare with
  | satisfies span operand parts => exact absurd (.operand hbare) (h operand)
  | name span text =>
    simp only
    cases hevidence : evidence source text (resolver text span.start) with
    | settled result =>
      refine ⟨rfl, fun hresult => ?_⟩
      exact evidence_ne_depthExceeded (hevidence.trans (congrArg Evidence.settled hresult))
    | initial value =>
      obtain ⟨binding, binder, b, hdeclared, hsingle, hvalue, hplain⟩ :=
        evidence_eq_initial_iff.mp hevidence
      exact absurd (.initial hbare hdeclared hsingle hvalue hplain) (h value)
  | call span callee types arguments optional => exact ⟨rfl, callType_ne_depthExceeded _⟩
  | construct span callee types arguments =>
    refine ⟨rfl, ?_⟩
    cases hname : callee.name? <;> simp [hname]
  | _ => exact ⟨rfl, by simp⟩

/-! ## Whole chains -/

theorem Leads.unique {e e₁ e₂ : Expr} (h₁ : Leads source resolver e e₁)
    (h₂ : Leads source resolver e e₂) : e₁ = e₂ := by
  cases h₁ with
  | operand he₁ =>
    cases h₂ with
    | operand he₂ => cases he₁.symm.trans he₂; rfl
    | initial he₂ => cases he₁.symm.trans he₂
  | initial he₁ hdeclared₁ hsingle₁ hvalue₁ hplain₁ =>
    cases h₂ with
    | operand he₂ => cases he₁.symm.trans he₂
    | initial he₂ hdeclared₂ hsingle₂ hvalue₂ hplain₂ =>
      cases he₁.symm.trans he₂
      cases hdeclared₁.symm.trans hdeclared₂
      exact Option.some.inj (hvalue₁.symm.trans hvalue₂)

namespace Chain

theorem trans {n m : Nat} {e s t : Expr} (h : Chain source resolver n e s)
    (h' : Chain source resolver m s t) : Chain source resolver (m + n) e t := by
  induction h with
  | done e => exact h'
  | step hleads _ ih => exact .step hleads (ih h')

/-- A cycle can be gone around as often as one likes. -/
theorem repeated {k : Nat} {t : Expr} (h : Chain source resolver k t t) (times : Nat) :
    Chain source resolver (k * times) t t := by
  induction times with
  | zero => exact .done t
  | succ times ih => exact h.trans ih

/-- An expression on the way of a chain is no end of it. -/
theorem not_terminal_of_lt {n m : Nat} {e s t : Expr} (h : Chain source resolver n e t)
    (h' : Chain source resolver m e s) (hlt : m < n) : ¬ Terminal source resolver s := by
  induction h' generalizing n with
  | done e =>
    cases h with
    | done => omega
    | step hleads _ => exact fun hterminal => hterminal _ hleads
  | step hleads' _ ih =>
    cases h with
    | done => omega
    | step hleads rest =>
      rw [hleads.unique hleads'] at rest
      exact ih rest (by omega)

/-- A chain that runs into a cycle never ends. -/
theorem not_terminal_of_cycle {n k m : Nat} {e s t : Expr} (h : Chain source resolver n e t)
    (hcycle : Chain source resolver (k + 1) t t) (h' : Chain source resolver m e s) :
    ¬ Terminal source resolver s := by
  refine not_terminal_of_lt (h.trans (hcycle.repeated (m + 1))) h' ?_
  have hround : m + 1 ≤ (k + 1) * (m + 1) := Nat.le_mul_of_pos_left _ (by omega)
  omega

/-- Within the depth, the answer for the beginning of a chain is the one for its end. -/
theorem typeWithin_eq {n : Nat} {e t : Expr} (h : Chain source resolver n e t) (depth : Nat) :
    typeWithin source resolver (n + depth) e = typeWithin source resolver depth t := by
  induction h with
  | done e => rw [Nat.zero_add]
  | @step n e e' t hleads _ ih =>
    rw [Nat.add_right_comm, typeWithin_of_leads hleads, ih]

end Chain

/-- A query gives up if no end of the chain lies within the depth. -/
theorem typeWithin_eq_depthExceeded {depth : Nat} {e : Expr}
    (h : ∀ n < depth, ∀ t, Chain source resolver n e t → ¬ Terminal source resolver t) :
    typeWithin source resolver depth e = .error .depthExceeded := by
  induction depth generalizing e with
  | zero => rfl
  | succ depth ih =>
    have hfirst : ¬ Terminal source resolver e := h 0 (by omega) e (.done e)
    obtain ⟨e', hleads⟩ := not_forall_not.mp hfirst
    rw [typeWithin_of_leads hleads]
    exact ih fun n hn t hchain => h (n + 1) (by omega) t (.step hleads hchain)

/-- For every source, every assignment of declarations to names and every expression: if the chain of
operands and initial values that begins there ends within eight steps, the type of the expression is
that of the end, which is not for want of depth. In all other cases, every cycle among them, the
query reports that it has exceeded depth 8. -/
theorem typeOf_follows_chain (source : List Char) (resolver : Resolver) (e : Expr) :
    (∀ n ≤ 8, ∀ t, Chain source resolver n e t → Terminal source resolver t →
      typeOf source resolver e = typeOf source resolver t ∧
        typeOf source resolver t ≠ .error .depthExceeded) ∧
    ((∀ n ≤ 8, ∀ t, Chain source resolver n e t → ¬ Terminal source resolver t) →
      typeOf source resolver e = .error .depthExceeded) ∧
    (∀ n k t, Chain source resolver n e t → Chain source resolver (k + 1) t t →
      typeOf source resolver e = .error .depthExceeded) ∧
    Fault.depthExceeded.message = "type resolution exceeded depth 8" := by
  have hgivesUp : (∀ n ≤ 8, ∀ t, Chain source resolver n e t → ¬ Terminal source resolver t) →
      typeOf source resolver e = .error .depthExceeded := by
    intro h
    exact typeWithin_eq_depthExceeded fun n hn => h n (Nat.le_of_lt_succ hn)
  refine ⟨?_, hgivesUp, ?_, by decide⟩
  · intro n hn t hchain hterminal
    obtain ⟨hlast, hfound⟩ := typeWithin_of_terminal hterminal (maxDepth - n)
    have hbudget : maxDepth + 1 = n + (maxDepth - n + 1) := by
      have hmax : maxDepth = 8 := rfl
      omega
    have hend := typeWithin_of_terminal hterminal maxDepth
    refine ⟨?_, hend.2⟩
    calc typeOf source resolver e
        = typeWithin source resolver (n + (maxDepth - n + 1)) e := by rw [typeOf, hbudget]
      _ = typeWithin source resolver (maxDepth - n + 1) t := hchain.typeWithin_eq _
      _ = typeWithin source resolver 1 t := hlast
      _ = typeOf source resolver t := hend.1.symm
  · intro n k t hchain hcycle
    exact hgivesUp fun m _ s hs => hchain.not_terminal_of_cycle hcycle hs

end ComponentLint.Types
