import ComponentLint.Run
import Mathlib.Data.List.Forall2

/-!
# The rules of a configuration

A configuration that is accepted gives one rule for each of its entries that is not off, in the order
of the entries. The name of that rule is what follows the last slash of the key, so two keys give the
same rule if they differ only before it.
-/

namespace ComponentLint

/-- Reading the members of a list one by one succeeds if each of them can be read. -/
theorem mapM_eq_ok_iff {α β ε : Type} {f : α → Except ε β} {l : List α} {m : List β} :
    l.mapM f = .ok m ↔ List.Forall₂ (fun a b => f a = .ok b) l m := by
  induction l generalizing m with
  | nil => cases m <;> simp [pure, Except.pure]
  | cons a l ih =>
    rw [List.mapM_cons]
    cases ha : f a with
    | error e => cases m <;> simp [bind, Except.bind, ha]
    | ok b =>
      cases hl : l.mapM f with
      | error e => cases m <;> simp [bind, Except.bind, ha, ← ih, hl]
      | ok bs => cases m <;> simp [bind, Except.bind, pure, Except.pure, ha, ← ih, hl]

theorem map_eq_ok_iff {α β ε : Type} {f : α → β} {x : Except ε α} {b : β} :
    x.map f = .ok b ↔ ∃ a, x = .ok a ∧ f a = b := by
  cases x with
  | error e => simp [Except.map]
  | ok a => simp [Except.map]

/-! ## Creating rules -/

namespace RuleKind

/-- Options do not turn a rule into one of another convention. -/
theorem kind_of_create {kind : RuleKind} {options : Option Json} {rule : Rule}
    (h : kind.create options = .ok rule) : rule.kind = kind := by
  have hrejected : ∀ kind r, rejectOptions kind r options = .ok rule → rule = r := by
    intro kind r hr
    unfold rejectOptions at hr
    split at hr
    · exact (Except.ok.inj hr).symm
    · exact (Except.ok.inj hr).symm
    · cases hr
  have hlimit : ∀ n : Option Int, styleNamesRule n = .ok rule → rule.kind = .styleNames := by
    intro n hn
    unfold styleNamesRule at hn
    split at hn
    · rw [← Except.ok.inj hn]
      rfl
    · split_ifs at hn
      rw [← Except.ok.inj hn]
      rfl
  cases kind with
  | containerNames => exact hrejected _ _ h ▸ rfl
  | childSelectors => exact hrejected _ _ h ▸ rfl
  | arrayAccess => exact hrejected _ _ h ▸ rfl
  | effectComments => exact hrejected _ _ h ▸ rfl
  | styleNames =>
    unfold create at h
    cases hread : readOptions .styleNames none limitRecord.read options with
    | error e =>
      rw [hread] at h
      cases h
    | ok n =>
      rw [hread] at h
      exact hlimit n h
  | styleImports =>
    obtain ⟨o, -, rfl⟩ := map_eq_ok_iff.mp h
    rfl
  | layoutName =>
    obtain ⟨files, -, rfl⟩ := map_eq_ok_iff.mp h
    rfl
  | pageName =>
    obtain ⟨files, -, rfl⟩ := map_eq_ok_iff.mp h
    rfl

/-- A key stands for the rule whose name follows its last slash. -/
theorem name_of_find? {key : String} {kind : RuleKind} (h : find? key = some kind) :
    kind.name.toList = Text.afterLast '/' key.toList := by
  have hname := List.find?_some h
  exact beq_iff_eq.mp hname

end RuleKind

/-! ## Entries -/

/-- The entries of a configuration that are not off. -/
def Config.enabled (config : Config) : List (String × Setting) :=
  config.rules.filter (·.2.level != .off)

namespace RuleSet

/-- An entry gives no rule if it is off, and otherwise the rule that its key stands for. -/
theorem names_of_ofEntry {entry : String × Setting} {c? : Option ConfiguredRule}
    (h : ofEntry entry.1 entry.2 = .ok c?) :
    c?.toList.map (·.rule.name.toList) =
      if entry.2.level != .off then [Text.afterLast '/' entry.1.toList] else [] := by
  obtain ⟨key, setting⟩ := entry
  unfold ofEntry at h
  split at h
  · cases h
  · next kind hkind =>
    split at h
    · next hoff =>
      cases h
      cases hlevel : setting.level <;> simp_all [Level.severity?]
    · next severity hseverity =>
      obtain ⟨rule, hrule, rfl⟩ := map_eq_ok_iff.mp h
      have hname : rule.name = kind.name := congrArg RuleKind.name (RuleKind.kind_of_create hrule)
      have hon : (setting.level != .off) = true := by
        cases hlevel : setting.level <;> simp_all [Level.severity?]
      simp [hon, hname, RuleKind.name_of_find? hkind]

/-- Entries that are read one by one give the names that the keys of the enabled ones stand for. -/
theorem names_of_entries {entries : List (String × Setting)} {found : List (Option ConfiguredRule)}
    (h : List.Forall₂ (fun entry c? => ofEntry entry.1 entry.2 = .ok c?) entries found) :
    (found.filterMap id).map (·.rule.name.toList) =
      (entries.filter (·.2.level != .off)).map fun entry => Text.afterLast '/' entry.1.toList := by
  induction h with
  | nil => rfl
  | @cons entry c? entries found hentry _ ih =>
    have hname := names_of_ofEntry hentry
    rw [List.filter_cons]
    cases c? with
    | none =>
      split_ifs at hname ⊢
      · cases hname
      · exact ih
    | some c =>
      split_ifs at hname ⊢
      · rw [List.map_cons, ← ih]
        exact congrArg (· ++ _) hname
      · cases hname

theorem ofConfig_eq_ok_iff {config : Config} {set : RuleSet} :
    ofConfig config = .ok set ↔ ∃ found,
      (config.rules.mapM fun (key, setting) => ofEntry key setting) = .ok found ∧
        set = ⟨found.filterMap id, config.typeAware⟩ := by
  unfold ofConfig
  cases config.rules.mapM fun (key, setting) => ofEntry key setting with
  | error e => simp [bind, Except.bind]
  | ok found => simp [bind, Except.bind, pure, Except.pure, eq_comm]

/-- The rules of a configuration have the names that the keys of its enabled entries stand for. -/
theorem ruleNames_of_ofConfig {config : Config} {set : RuleSet} (h : ofConfig config = .ok set) :
    set.ruleNames.map String.toList =
      config.enabled.map fun entry => Text.afterLast '/' entry.1.toList := by
  obtain ⟨found, hfound, rfl⟩ := ofConfig_eq_ok_iff.mp h
  rw [ruleNames, List.map_map]
  exact names_of_entries (mapM_eq_ok_iff.mp hfound)

end RuleSet

end ComponentLint
