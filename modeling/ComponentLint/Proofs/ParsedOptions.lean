import ComponentLint.Config.Reader
import ComponentLint.Proofs.JsonShapes

/-!
# Options in the text of a configuration

The options that stand in the text of a configuration are values that JSON texts give: readers of
settings, rules and fields yield nothing else (`Config.proper_of_parse`).
-/

namespace ComponentLint

open Json (Proper)

/-- The options of a setting, if it has any, are a value that a text can give. -/
def Setting.Proper (setting : Setting) : Prop := ∀ v, setting.options = some v → v.Proper

/-- The settings of some rules are proper. -/
def ProperRules (rules : List (String × Setting)) : Prop := ∀ entry ∈ rules, entry.2.Proper

namespace Config

theorem eq_ok_of_ofText {α : Type} {result : Except JsonFault α} {a : α}
    (h : ofText result = .ok a) : result = .ok a := by
  cases result with
  | error fault => cases h
  | ok b => rw [Except.ok.inj h]

theorem proper_of_ofJson? {v : Json} {setting : Setting} (hv : v.Proper)
    (h : Setting.ofJson? v = some setting) : setting.Proper := by
  unfold Setting.ofJson? at h
  split at h
  · obtain ⟨level, -, rfl⟩ := Option.map_eq_some_iff.mp h
    exact nofun
  · next level options =>
    obtain ⟨_, -, rfl⟩ := Option.map_eq_some_iff.mp h
    intro w hw
    obtain rfl : options = w := Option.some.inj hw
    cases hv with
    | array helements => exact helements options (by simp)
  · obtain ⟨level, -, rfl⟩ := Option.map_eq_some_iff.mp h
    exact nofun

theorem proper_of_readSetting {fuel : Nat} {s rest : List Char} {setting : Setting}
    (h : readSetting fuel s = .ok (setting, rest)) : setting.Proper := by
  unfold readSetting at h
  obtain ⟨⟨v, afterValue⟩, hv, h⟩ := bind_eq_ok_iff.mp h
  simp only at h
  split at h
  · next found hfound =>
    cases h
    exact proper_of_ofJson? (Json.yields_value _ _ _ _ _ (eq_ok_of_ofText hv)) hfound
  · cases h

theorem properRules_putRule {key : String} {setting : Setting} {rules : List (String × Setting)}
    (hsetting : setting.Proper) (hrules : ProperRules rules) :
    ProperRules (putRule key setting rules) := by
  induction rules with
  | nil =>
    intro entry hentry
    rw [List.mem_singleton.mp hentry]
    exact hsetting
  | cons first rest ih =>
    obtain ⟨hfirst, hrest⟩ := List.forall_mem_cons.mp hrules
    rw [putRule]
    split_ifs
    · exact List.forall_mem_cons.mpr ⟨hsetting, hrest⟩
    · exact List.forall_mem_cons.mpr ⟨hfirst, ih hrest⟩

theorem properRules_of_readRules {fuel : Nat} {done rules : List (String × Setting)}
    {s rest : List Char} (hdone : ProperRules done)
    (h : readRules fuel done s = .ok (rules, rest)) : ProperRules rules := by
  induction fuel generalizing done s with
  | zero => cases h
  | succ fuel ih =>
    unfold readRules at h
    obtain ⟨⟨key, afterKey⟩, -, h⟩ := bind_eq_ok_iff.mp h
    obtain ⟨afterColon, -, h⟩ := bind_eq_ok_iff.mp h
    obtain ⟨⟨setting, afterSetting⟩, hsetting, h⟩ := bind_eq_ok_iff.mp h
    obtain ⟨⟨mark, afterMark⟩, -, h⟩ := bind_eq_ok_iff.mp h
    have hmore : ProperRules (putRule key setting done) :=
      properRules_putRule (proper_of_readSetting hsetting) hdone
    cases mark with
    | done =>
      cases h
      exact hmore
    | more => exact ih hmore h

theorem properRules_of_rulesField {fuel : Nat} {rules : List (String × Setting)}
    {s rest : List Char} (h : rulesField fuel s = .ok (rules, rest)) : ProperRules rules := by
  unfold rulesField at h
  split at h
  · split at h
    · cases h
      exact nofun
    · exact properRules_of_readRules (List.forall_mem_nil _) h
  · cases h

/-- The settings that have been read so far are proper. -/
def Fields.Proper (f : Fields) : Prop := ∀ rules, f.rules = some rules → ProperRules rules

theorem Fields.proper_empty : Fields.Proper {} := by
  rintro rules ⟨⟩

theorem Fields.Proper.finish {f : Fields} (h : f.Proper) : ProperRules f.finish.rules := by
  unfold Fields.finish
  cases hrules : f.rules with
  | none => exact nofun
  | some rules => exact h rules hrules

theorem proper_of_readField {fuel : Nat} {name : String} {f f' : Fields} {s rest : List Char}
    (hf : f.Proper) (h : readField fuel name f s = .ok (f', rest)) : f'.Proper := by
  unfold readField at h
  split at h
  · simp only at h
    split_ifs at h
    · cases h
    obtain ⟨afterColon, -, h⟩ := bind_eq_ok_iff.mp h
    obtain ⟨⟨rules, afterRules⟩, hrules, h⟩ := bind_eq_ok_iff.mp h
    cases h
    rintro _ ⟨⟩
    exact properRules_of_rulesField hrules
  · simp only at h
    split_ifs at h
    · cases h
    obtain ⟨afterColon, -, h⟩ := bind_eq_ok_iff.mp h
    obtain ⟨⟨flag, afterFlag⟩, -, h⟩ := bind_eq_ok_iff.mp h
    cases h
    exact hf
  · cases h

theorem proper_of_readFields {fuel : Nat} {f f' : Fields} {s rest : List Char} (hf : f.Proper)
    (h : readFields fuel f s = .ok (f', rest)) : f'.Proper := by
  induction fuel generalizing f s with
  | zero => cases h
  | succ fuel ih =>
    unfold readFields at h
    obtain ⟨⟨name, afterName⟩, -, h⟩ := bind_eq_ok_iff.mp h
    obtain ⟨⟨more, afterField⟩, hfield, h⟩ := bind_eq_ok_iff.mp h
    obtain ⟨⟨mark, afterMark⟩, -, h⟩ := bind_eq_ok_iff.mp h
    have hmore : more.Proper := proper_of_readField hf hfield
    cases mark with
    | done =>
      cases h
      exact hmore
    | more => exact ih hmore h

theorem properRules_of_readElements {fuel : Nat} {s rest : List Char} {config : Config}
    (h : readElements fuel s = .ok (config, rest)) : ProperRules config.rules := by
  unfold readElements at h
  split at h
  · cases h
    exact nofun
  · obtain ⟨⟨rules, afterRules⟩, hrules, h⟩ := bind_eq_ok_iff.mp h
    obtain ⟨⟨mark, afterMark⟩, -, h⟩ := bind_eq_ok_iff.mp h
    have hproper : ProperRules rules := properRules_of_rulesField hrules
    cases mark with
    | done =>
      cases h
      exact hproper
    | more =>
      obtain ⟨⟨flag, afterFlag⟩, -, h⟩ := bind_eq_ok_iff.mp h
      obtain ⟨⟨mark, afterEnd⟩, -, h⟩ := bind_eq_ok_iff.mp h
      cases mark with
      | done =>
        cases h
        exact hproper
      | more => cases h

theorem properRules_of_readConfig {fuel : Nat} {s rest : List Char} {config : Config}
    (h : readConfig fuel s = .ok (config, rest)) : ProperRules config.rules := by
  unfold readConfig at h
  split at h
  · exact properRules_of_readElements h
  · split at h
    · cases h
      exact nofun
    · obtain ⟨⟨f, afterFields⟩, hfields, heq⟩ := map_eq_ok_iff.mp h
      cases heq
      exact (proper_of_readFields Fields.proper_empty hfields).finish
  · cases h

/-- The options in a configuration that is read from a text are values that JSON texts give. -/
theorem proper_of_parse {text : String} {config : Config} (h : parse text = .ok config) :
    ProperRules config.rules := by
  unfold parse at h
  obtain ⟨⟨found, rest⟩, hfound, h⟩ := bind_eq_ok_iff.mp h
  simp only at h
  split_ifs at h
  cases h
  exact properRules_of_readConfig hfound

end Config

end ComponentLint
