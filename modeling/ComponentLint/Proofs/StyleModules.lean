import ComponentLint.Proofs.Parentheses
import ComponentLint.Rule.SourceFile
import Mathlib.Data.List.Basic

/-!
# Style modules and what factories make

Two questions that all rules on styles ask: whether a file is a style module, which the end of its
path tells, and whether the value of a declarator is made by a factory, which is called by its name.
-/

namespace ComponentLint

/-- Slashes for backslashes make no difference for an end without either. -/
theorem Path.suffix_shown_iff {back : List Char} (hslash : '/' ∉ back) (hbackslash : '\\' ∉ back)
    {path : String} : back <:+ (Path.shown path).toList ↔ back <:+ path.toList := by
  rw [Path.shown, String.toList_ofList, List.suffix_map_iff]
  constructor
  · rintro ⟨l, hl, rfl⟩
    have hsame : l.map (fun c => if c = '\\' then '/' else c) = l.map id := by
      refine List.map_congr_left fun c hc => if_neg fun hc' => ?_
      exact hslash (List.mem_map.mpr ⟨c, hc, if_pos hc'⟩)
    rwa [hsame, List.map_id]
  · intro h
    have hsame : back.map (fun c => if c = '\\' then '/' else c) = back.map id :=
      List.map_congr_left fun c hc => if_neg (ne_of_mem_of_not_mem hc hbackslash)
    exact ⟨back, h, by rw [hsame, List.map_id]⟩

theorem SourceFile.isStyleModule_iff {file : SourceFile} :
    file.isStyleModule = true ↔ ".css.ts".toList <:+ file.path.toList := by
  rw [SourceFile.isStyleModule, SourceFile.isStylePath, SourceFile.styleModuleEnd,
    Text.endsWith_iff]
  exact Path.suffix_shown_iff (by decide) (by decide)

namespace Script.Binding

/-- The initial value of a declarator is a call of the function by its name. -/
def MadeBy (function : String) (b : Binding) : Prop :=
  ∃ v, b.value = some v ∧ v.CallsByName function

theorem initializedBy_iff {function : String} {b : Binding} :
    b.initializedBy function = true ↔ b.MadeBy function := by
  simp only [initializedBy, Option.any_eq_true, Expr.calls_iff, MadeBy]

end Script.Binding

end ComponentLint
