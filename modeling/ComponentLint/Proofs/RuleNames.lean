import ComponentLint.Proofs.AccessReports
import ComponentLint.Proofs.SharedContext
import Mathlib.Data.List.Basic

/-!
# Findings carry the name of their rule

Every finding is made from a template under the name of the rule that made it, and neither a
severity nor a fix changes that name. The eight names differ, so that a finding can be traced back
to its rule.
-/

namespace ComponentLint

open Script (Expr Property)

namespace Diagnostic

@[simp] theorem rule_ofTemplate (rule : String) (span : Span) (id : String) (t : Template)
    (pairs : List (String × String)) : (ofTemplate rule span id t pairs).rule = rule := rfl

@[simp] theorem rule_withSeverity (d : Diagnostic) (s : Severity) :
    (d.withSeverity s).rule = d.rule := rfl

@[simp] theorem rule_withFix (d : Diagnostic) (f : Fix) : (d.withFix f).rule = d.rule := rfl

end Diagnostic

theorem ContainerNames.rule_of_mem_check {file : SourceFile} {d : Diagnostic}
    (h : d ∈ check file) : d.rule = rule := by
  unfold check at h
  split at h
  · obtain ⟨b, -, hb⟩ := List.mem_filterMap.mp h
    obtain ⟨binder, -, hd⟩ := Option.bind_eq_some_iff.mp hb
    unfold checkName at hd
    split_ifs at hd
    · unfold checkContainer at hd
      split_ifs at hd
      rw [← Option.some.inj hd]
      rfl
    · rw [← Option.some.inj hd]
      rfl
    · obtain ⟨banned, -, hend⟩ := List.exists_of_findSome?_eq_some hd
      obtain ⟨suggestion, -, rfl⟩ := Option.map_eq_some_iff.mp hend
      rfl
  · simp at h

theorem ChildSelectors.rule_of_mem_check {file : SourceFile} {d : Diagnostic}
    (h : d ∈ check file) : d.rule = rule := by
  have hselector : ∀ p : Property, checkSelector p = some d → d.rule = rule := by
    intro p hp
    unfold checkSelector at hp
    split at hp
    · split_ifs at hp
      rw [← Option.some.inj hp]
      rfl
    · cases hp
  unfold check at h
  split at h
  · obtain ⟨e, -, he⟩ := List.mem_flatMap.mp h
    unfold checkCall at he
    split at he
    · split_ifs at he
      · obtain ⟨p, -, hp⟩ := List.mem_filterMap.mp he
        exact hselector p hp
      · simp at he
    · simp at he
  · simp at h

theorem StyleNames.rule_of_mem_check {max : Nat} {file : SourceFile} {d : Diagnostic}
    (h : d ∈ check max file) : d.rule = rule := by
  unfold check at h
  split at h
  · obtain ⟨b, -, hb⟩ := List.mem_filterMap.mp h
    unfold checkName at hb
    simp only at hb
    split_ifs at hb
    rw [← Option.some.inj hb]
    rfl
  · simp at h

theorem ComponentNames.rule_of_mem_check {r : Requirement} {files : List String}
    {file : SourceFile} {d : Diagnostic} (h : d ∈ check r files file) : d.rule = r.rule := by
  unfold check at h
  simp only at h
  split_ifs at h
  · simp at h
  · rw [List.mem_singleton] at h
    rw [h]
    unfold complaint
    simp only
    split
    · rfl
    · rfl
  · simp at h

theorem ArrayAccess.rule_of_mem_check {file : SourceFile} {d : Diagnostic}
    (h : d ∈ check file) : d.rule = rule := by
  rw [check_eq] at h
  obtain ⟨e, -, he⟩ := List.mem_filterMap.mp h
  obtain ⟨span, receiver, key, optional, rfl⟩ := eq_index_of_checkAccess he
  obtain ⟨-, index, -, rfl⟩ := checkAccess_index_iff.mp he
  rfl

theorem EffectComments.rule_of_mem_check {file : SourceFile} {d : Diagnostic}
    (h : d ∈ check file) : d.rule = rule := by
  obtain ⟨e, -, he⟩ := List.mem_filterMap.mp h
  unfold checkCall at he
  split at he
  · split_ifs at he
    obtain ⟨body, -, hbody⟩ := Option.bind_eq_some_iff.mp he
    split_ifs at hbody
    rw [← Option.some.inj hbody]
    rfl
  · cases he

namespace StyleImports

theorem rule_report (span : Span) (id : String) (t : Template) (pairs : List (String × String)) :
    (report span id t pairs).rule = rule := rfl

theorem rule_of_complaint {p : StylePattern} {i : Import} {d : Diagnostic}
    (h : complaint? p i = some d) : d.rule = rule := by
  unfold complaint? at h
  simp only at h
  split_ifs at h
  · rw [← Option.some.inj h]
    exact rule_report ..
  · split at h
    · rw [← Option.some.inj h]
      exact rule_report ..
    · split_ifs at h
      rw [← Option.some.inj h]
      exact rule_report ..

theorem rule_of_mem_complaints {p : StylePattern} {imports : List Import} {d : Diagnostic}
    (h : d ∈ complaints p imports) : d.rule = rule := by
  induction imports with
  | nil => simp [complaints] at h
  | cons i rest ih =>
    rw [complaints] at h
    split at h
    · simp at h
    · next d' hd' =>
      rcases List.mem_cons.mp h with rfl | hrest
      · exact rule_of_complaint hd'
      · exact ih hrest

theorem rule_of_mem_findings {p : StylePattern} {wanted : Bool} {file : SourceFile}
    {d : Diagnostic} (h : d ∈ findings p wanted file) : d.rule = rule := by
  unfold findings at h
  split at h
  · split_ifs at h
    · rw [List.mem_singleton] at h
      rw [h]
      rfl
    · simp at h
  · exact rule_of_mem_complaints h

theorem rule_of_mem_verdict {options : Options} {siblings : Siblings} {file : SourceFile}
    {found : List Diagnostic} (hv : verdict options siblings file = .ok found) {d : Diagnostic}
    (h : d ∈ found) : d.rule = rule := by
  unfold verdict at hv
  split at hv
  · cases hv
    simp at h
  · split at hv
    · cases hv
      exact rule_of_mem_findings h
    · split at hv
      · cases hv
        exact rule_of_mem_findings h
      · cases hv

end StyleImports

/-- Whatever a rule finds carries its name. -/
theorem Rule.rule_of_mem_check {r : Rule} {siblings : Siblings} {file : SourceFile}
    {found : List Diagnostic} (hr : r.check siblings file = .ok found) {d : Diagnostic}
    (h : d ∈ found) : d.rule = r.name := by
  rw [check_eq_verdict] at hr
  cases r with
  | styleImports options => exact StyleImports.rule_of_mem_verdict hr h
  | containerNames => exact ContainerNames.rule_of_mem_check (Except.ok.inj hr ▸ h)
  | childSelectors => exact ChildSelectors.rule_of_mem_check (Except.ok.inj hr ▸ h)
  | styleNames max => exact StyleNames.rule_of_mem_check (Except.ok.inj hr ▸ h)
  | layoutName files => exact ComponentNames.rule_of_mem_check (Except.ok.inj hr ▸ h)
  | pageName files => exact ComponentNames.rule_of_mem_check (Except.ok.inj hr ▸ h)
  | arrayAccess => exact ArrayAccess.rule_of_mem_check (Except.ok.inj hr ▸ h)
  | effectComments => exact EffectComments.rule_of_mem_check (Except.ok.inj hr ▸ h)

/-- Every convention is registered. -/
theorem RuleKind.mem_all (kind : RuleKind) : kind ∈ all := by
  cases kind <;> decide

/-- No two conventions share a name. -/
theorem RuleKind.nodup_names : (all.map name).Nodup := by decide

end ComponentLint
