import ComponentLint.Script.Shape

/-!
# Parentheses

An expression in parentheses is the same expression for a question that looks through them. What
such a question sees is `Expr.bare`: the one expression without parentheses that is reached by
taking them off (`Expr.bare_eq_iff`).
-/

namespace ComponentLint.Script.Expr

/-- `e.Wraps x`: the expression `e` is `x` in any number of parentheses. -/
inductive Wraps : Expr → Expr → Prop where
  | none {x} : Wraps x x
  | paren {span e x} (h : Wraps e x) : Wraps (.paren span e) x

theorem wraps_bare (e : Expr) : e.Wraps e.bare := by
  fun_induction bare e with
  | case1 span inner ih => exact .paren ih
  | case2 e _ => exact .none

theorem bare_of_wraps {e x : Expr} (h : e.Wraps x) : e.bare = x.bare := by
  induction h with
  | none => rfl
  | paren _ ih => exact ih

/-- What stands in the parentheses around an expression is what it wraps and is in none itself. -/
theorem bare_eq_iff {e x : Expr} (hx : x.bare = x) : e.bare = x ↔ e.Wraps x := by
  constructor
  · rintro rfl
    exact wraps_bare e
  · intro h
    rw [bare_of_wraps h, hx]

/-- `e.CallsByName function`: the expression is a call, and what it calls is the name `function` in
any number of parentheses. -/
inductive CallsByName (function : String) : Expr → Prop where
  | intro {span callee types arguments optional place} (h : callee.Wraps (.name place function)) :
      CallsByName function (.call span callee types arguments optional)

theorem calls_iff {function : String} {e : Expr} :
    e.calls function = true ↔ CallsByName function e := by
  unfold calls calleeName?
  constructor
  · intro h
    split at h
    · next span callee types arguments optional =>
      have hname : callee.bare.name? = some function := beq_iff_eq.mp h
      unfold name? at hname
      split at hname
      · next place text hbare =>
        obtain rfl := Option.some.inj hname
        exact .intro ((bare_eq_iff rfl).mp hbare)
      · cases hname
    · cases h
  · rintro ⟨h⟩
    rw [beq_iff_eq]
    simp only
    rw [bare_of_wraps h]
    rfl

end ComponentLint.Script.Expr
