import ComponentLint.Config.Reader
import ComponentLint.Proofs.Configured
import ComponentLint.Proofs.JsonTexts

/-!
# Written configurations

Which texts a configuration may be written as, and that each of them is read as it was meant. Of the
settings that are written for one key the last counts, in the place of the first. A setting without
options and one with null are different data, but give the same rule.
-/

namespace ComponentLint

open Json (Blanks Bracketed IsStop Padded Separated Written WrittenEntry WrittenScalar WrittenString)

/-! ## Texts -/

/-- The number of a level. -/
def Level.digit : Level → Char
  | .off => '0'
  | .warn => '1'
  | .error => '2'

/-- The ways to write a level: by its name or by its number. -/
inductive WrittenLevel : Level → List Char → Prop
  | name {level : Level} {t : List Char} (h : WrittenString level.name t) : WrittenLevel level t
  | digit (level : Level) : WrittenLevel level [level.digit]

/-- How deeply options may be nested: the array around them is part of the setting. -/
def Config.optionsDepth : Nat := Config.settingDepth - 1

/-- The ways to write a setting: as a level, as an array with a level, or as an array with a level
and options. -/
inductive WrittenSetting : Setting → List Char → Prop
  | bare {level : Level} {t : List Char} (h : WrittenLevel level t) :
      WrittenSetting ⟨level, none⟩ t
  | alone {level : Level} {t : List Char} (h : Padded WrittenLevel level t) :
      WrittenSetting ⟨level, none⟩ ('[' :: (t ++ [']']))
  | withOptions {level : Level} {options : Json} {t u : List Char} (h : Padded WrittenLevel level t)
      (hoptions : Padded (Written Config.optionsDepth) options u) :
      WrittenSetting ⟨level, some options⟩ ('[' :: (t ++ ',' :: (u ++ [']'])))

/-- A field of a configuration. -/
inductive ConfigField where
  /-- Rules with their settings, in the order in which they are written. -/
  | rules (entries : List (String × Setting))
  /-- Whether types are looked at. -/
  | typeAware (flag : Bool)

/-- The name of a field. -/
def ConfigField.name : ConfigField → String
  | .rules _ => "rules"
  | .typeAware _ => "typeAware"

/-- The ways to write the value of a field. -/
inductive WrittenField : ConfigField → List Char → Prop
  | rules {entries : List (String × Setting)} {t : List Char}
      (h : Bracketed '\x7b' '\x7d' (WrittenEntry WrittenSetting) entries t) :
      WrittenField (.rules entries) t
  | typeAware {flag : Bool} {t : List Char} (h : WrittenScalar (.bool flag) t) :
      WrittenField (.typeAware flag) t

/-- The fields of a configuration with given rules and a given answer to whether types are looked at:
they come in either order, and one with its default may be left out. -/
inductive ConfigFields : List (String × Setting) → Bool → List (String × ConfigField) → Prop
  | rulesFirst (entries : List (String × Setting)) (flag : Bool) :
      ConfigFields entries flag [("rules", .rules entries), ("typeAware", .typeAware flag)]
  | rulesLast (entries : List (String × Setting)) (flag : Bool) :
      ConfigFields entries flag [("typeAware", .typeAware flag), ("rules", .rules entries)]
  | rulesOnly (entries : List (String × Setting)) :
      ConfigFields entries false [("rules", .rules entries)]
  | typeAwareOnly (flag : Bool) : ConfigFields [] flag [("typeAware", .typeAware flag)]
  | neither : ConfigFields [] false []

/-- The ways to write a configuration. -/
inductive WrittenConfig (entries : List (String × Setting)) (flag : Bool) : List Char → Prop
  | intro {fields : List (String × ConfigField)} {t : List Char}
      (hfields : ConfigFields entries flag fields)
      (h : Padded (Bracketed '\x7b' '\x7d' (WrittenEntry WrittenField)) fields t) :
      WrittenConfig entries flag t

/-! ## Settings -/

/-- The number of a level as a JSON number. -/
def Level.numeral (level : Level) : Json.Numeral where
  isNegative := false
  units := [level.digit]
  places := none
  exponent := none
  units_digits := ⟨by simp, by cases level <;> simp [digit]⟩
  units_zero _ := rfl
  places_digits := by simp

/-- A written level is a JSON value that names it. -/
theorem WrittenLevel.exists_scalar {level : Level} {t : List Char} (h : WrittenLevel level t) :
    ∃ v, WrittenScalar v t ∧ (∀ vs, v ≠ .array vs) ∧ Level.ofJson? v = some level := by
  cases h with
  | name h =>
    refine ⟨.string level.name, .string h, by simp, ?_⟩
    cases level <;> rfl
  | digit =>
    have hvalue : ∃ n, level.numeral.value? = some n ∧ Level.ofJson? (.number n) = some level := by
      cases level with
      | off => exact ⟨.natural 0, by decide, rfl⟩
      | warn => exact ⟨.natural 1, by decide, rfl⟩
      | error => exact ⟨.natural 2, by decide, rfl⟩
    obtain ⟨n, hn, hlevel⟩ := hvalue
    exact ⟨.number n, .number hn, by simp, hlevel⟩

theorem WrittenLevel.exists_padded {level : Level} {t : List Char} (h : Padded WrittenLevel level t)
    (depth : Nat) : ∃ v, Padded (Written depth) v t ∧ Level.ofJson? v = some level := by
  obtain ⟨hbefore, h, hafter⟩ := h
  obtain ⟨v, hv, -, hlevel⟩ := h.exists_scalar
  exact ⟨v, ⟨hbefore, hv.written depth, hafter⟩, hlevel⟩

theorem Setting.ofJson?_of_level {v : Json} {level : Level} (hv : ∀ vs, v ≠ .array vs)
    (h : Level.ofJson? v = some level) : ofJson? v = some ⟨level, none⟩ := by
  unfold ofJson?
  split
  · exact absurd rfl (hv _)
  · exact absurd rfl (hv _)
  · rw [h]
    rfl

/-- A written setting is a JSON value that gives it. -/
theorem WrittenSetting.exists_written {setting : Setting} {t : List Char}
    (h : WrittenSetting setting t) :
    ∃ v, Written Config.settingDepth v t ∧ Setting.ofJson? v = some setting := by
  have hdepth : Config.settingDepth = Config.optionsDepth + 1 := rfl
  rw [hdepth]
  cases h with
  | bare h =>
    obtain ⟨v, hv, hscalar, hlevel⟩ := h.exists_scalar
    exact ⟨v, hv.written _, Setting.ofJson?_of_level hscalar hlevel⟩
  | alone h =>
    obtain ⟨v, hv, hlevel⟩ := WrittenLevel.exists_padded h Config.optionsDepth
    refine ⟨.array [v], Or.inr (Or.inl ⟨[v], rfl, .members (.last hv)⟩), ?_⟩
    rw [Setting.ofJson?, hlevel]
    rfl
  | @withOptions level options t u h hoptions =>
    obtain ⟨v, hv, hlevel⟩ := WrittenLevel.exists_padded h Config.optionsDepth
    have helements : Bracketed '[' ']' (Written Config.optionsDepth) [v, options]
        ('[' :: ((t ++ ',' :: u) ++ [']'])) := .members (.more hv (.last hoptions))
    rw [List.append_assoc, List.cons_append] at helements
    refine ⟨.array [v, options], Or.inr (Or.inl ⟨_, rfl, helements⟩), ?_⟩
    rw [Setting.ofJson?, hlevel]
    rfl

namespace Config

/-- A written setting with blanks around it is read as that setting. -/
theorem readSetting_append {fuel : Nat} {setting : Setting} {t : List Char}
    (h : WrittenSetting setting t) (hfuel : t.length ≤ fuel) {before after : List Char}
    (hbefore : Blanks before) (hafter : Blanks after) {c : Char} (hc : IsStop c)
    (rest : List Char) :
    readSetting fuel (before ++ (t ++ (after ++ c :: rest))) = .ok (setting, after ++ c :: rest) := by
  obtain ⟨v, hv, hsetting⟩ := h.exists_written
  have hread := (Json.reads_written fuel settingDepth).padded hv hfuel hbefore hafter hc rest
  rw [readSetting, hread]
  simp only [ofText, Except.mapError, bind, Except.bind, hsetting]
  rfl

/-! ## Rules -/

/-- The settings of rules that are written one after the other. -/
def putRules (done entries : List (String × Setting)) : List (String × Setting) :=
  entries.foldl (fun done entry => putRule entry.1 entry.2 done) done

theorem readRules_skipBlanks (fuel : Nat) (done : List (String × Setting)) (s : List Char) :
    readRules fuel done (Json.skipBlanks s) = readRules fuel done s := by
  cases fuel with
  | zero => rfl
  | succ fuel => rw [readRules, readRules, Json.key_skipBlanks]

/-- Written rules are read and put into those that have been read before. -/
theorem readRules_append {entries : List (String × Setting)} {t : List Char}
    (h : Separated (WrittenEntry WrittenSetting) entries t) {fuel : Nat} (hfuel : t.length ≤ fuel)
    (done : List (String × Setting)) (rest : List Char) :
    readRules fuel done (t ++ '\x7d' :: rest) = .ok (putRules done entries, rest) := by
  induction h generalizing fuel done with
  | @last e t h =>
    obtain ⟨u, before, after, hu, hlength, hbefore, hafter, hkey⟩ := Json.exists_of_padded_entry h
    obtain ⟨mid, hkey, hcolon⟩ := hkey ('\x7d' :: rest)
    cases fuel with
    | zero => omega
    | succ fuel =>
      have hread := readSetting_append hu (by omega : u.length ≤ fuel + 1) hbefore hafter
        .brace rest
      simp only [readRules, ofText, Except.mapError, bind, Except.bind, hkey, hcolon, hread,
        Json.separator_done hafter .brace]
      rfl
  | @more e t es ts h _ ih =>
    obtain ⟨u, before, after, hu, hlength, hbefore, hafter, hkey⟩ := Json.exists_of_padded_entry h
    obtain ⟨mid, hkey, hcolon⟩ := hkey (',' :: (ts ++ '\x7d' :: rest))
    simp only [List.length_append, List.length_cons] at hfuel
    cases fuel with
    | zero => omega
    | succ fuel =>
      have hread := readSetting_append hu (by omega : u.length ≤ fuel + 1) hbefore hafter
        .comma (ts ++ '\x7d' :: rest)
      simp only [List.append_assoc, List.cons_append, readRules, ofText, Except.mapError, bind,
        Except.bind, hkey, hcolon, hread, Json.separator_more hafter (by decide : ',' ≠ '\x7d')]
      -- one is taken off the bound, and at least the comma off the text
      rw [ih (by omega)]
      rfl

/-- Written rules in their braces, with blanks before them, are read as these rules. -/
theorem rulesField_append {entries : List (String × Setting)} {t : List Char}
    (h : Bracketed '\x7b' '\x7d' (WrittenEntry WrittenSetting) entries t) {fuel : Nat}
    (hfuel : t.length ≤ fuel) {before : List Char} (hbefore : Blanks before) (rest : List Char) :
    rulesField fuel (before ++ (t ++ rest)) = .ok (putRules [] entries, rest) := by
  cases h with
  | empty h =>
    simp only [rulesField, Json.skipBlanks_append hbefore, List.cons_append, List.append_assoc]
    rw [Json.skipBlanks_cons rfl]
    simp only [Json.skipBlanks_append h]
    rfl
  | members h =>
    simp only [List.length_cons, List.length_append] at hfuel
    have hbegins := h.begins WrittenEntry.begins ('\x7d' :: rest)
    simp only [rulesField, Json.skipBlanks_append hbefore, List.cons_append, List.append_assoc,
      List.nil_append]
    rw [Json.skipBlanks_cons rfl]
    simp only
    split
    · next heq => exact absurd heq (hbegins.ne_brace _)
    · rw [readRules_skipBlanks, readRules_append h (by omega)]

/-! ## Fields -/

theorem typeAwareField_append {flag : Bool} {t : List Char} (h : WrittenScalar (.bool flag) t)
    {before rest : List Char} (hbefore : Blanks before) (hrest : Json.Ends rest) :
    typeAwareField (before ++ (t ++ rest)) = .ok (flag, rest) := by
  simp only [typeAwareField, Json.skipBlanks_append hbefore, h.begins.skipBlanks_append,
    h.scalar?_append hrest]

/-- The fields with one more. -/
def Fields.put (f : Fields) : ConfigField → Fields
  | .rules entries => { f with rules := some (putRules [] entries) }
  | .typeAware flag => { f with typeAware := some flag }

/-- The fields with some more. -/
def Fields.putAll (f : Fields) (fields : List (String × ConfigField)) : Fields :=
  fields.foldl (fun f entry => f.put entry.2) f

/-- A field is not there yet. -/
def Fields.Lacks (f : Fields) : ConfigField → Prop
  | .rules _ => f.rules = none
  | .typeAware _ => f.typeAware = none

/-- None of some fields with their names is there yet, and none of them comes twice. -/
def Fields.LacksAll (f : Fields) : List (String × ConfigField) → Prop
  | [] => True
  | (name, field) :: more => name = field.name ∧ f.Lacks field ∧ (f.put field).LacksAll more

/-- A written field that is not there yet is read after its name. -/
theorem readField_append {field : ConfigField} {t : List Char} (h : WrittenField field t)
    {f : Fields} (hlacks : f.Lacks field) {fuel : Nat} (hfuel : t.length ≤ fuel)
    {before after : List Char} (hbefore : Blanks before) (hafter : Blanks after) {c : Char}
    (hc : IsStop c) {s rest : List Char}
    (hcolon : Json.colon s = .ok (before ++ (t ++ (after ++ c :: rest)))) :
    readField fuel field.name f s = .ok (f.put field, after ++ c :: rest) := by
  cases h with
  | rules h =>
    have hread := rulesField_append h hfuel hbefore (after ++ c :: rest)
    have hlacks : f.rules = none := hlacks
    simp only [ConfigField.name, readField, hlacks, hcolon, ofText, Except.mapError, bind,
      Except.bind, Option.isSome_none, Bool.false_eq_true, if_false, hread]
    rfl
  | typeAware h =>
    have hends : Json.Ends (after ++ c :: rest) := hafter.ends hc
    have hread := typeAwareField_append h hbefore hends
    have hlacks : f.typeAware = none := hlacks
    simp only [ConfigField.name, readField, hlacks, hcolon, ofText, Except.mapError, bind,
      Except.bind, Option.isSome_none, Bool.false_eq_true, if_false, hread]
    rfl

theorem readFields_skipBlanks (fuel : Nat) (f : Fields) (s : List Char) :
    readFields fuel f (Json.skipBlanks s) = readFields fuel f s := by
  cases fuel with
  | zero => rfl
  | succ fuel => rw [readFields, readFields, Json.key_skipBlanks]

/-- Written fields that are not there yet are read one after the other. -/
theorem readFields_append {fields : List (String × ConfigField)} {t : List Char}
    (h : Separated (WrittenEntry WrittenField) fields t) {fuel : Nat} (hfuel : t.length ≤ fuel)
    {f : Fields} (hlacks : f.LacksAll fields) (rest : List Char) :
    readFields fuel f (t ++ '\x7d' :: rest) = .ok (f.putAll fields, rest) := by
  induction h generalizing fuel f with
  | @last e t h =>
    obtain ⟨name, field⟩ := e
    obtain ⟨rfl, hlacks, -⟩ := hlacks
    obtain ⟨u, before, after, hu, hlength, hbefore, hafter, hkey⟩ := Json.exists_of_padded_entry h
    obtain ⟨mid, hkey, hcolon⟩ := hkey ('\x7d' :: rest)
    cases fuel with
    | zero => omega
    | succ fuel =>
      have hread := readField_append hu hlacks (by omega : u.length ≤ fuel + 1) hbefore hafter
        .brace hcolon
      simp only [readFields, ofText, Except.mapError, bind, Except.bind, hkey, hread,
        Json.separator_done hafter .brace]
      rfl
  | @more e t es ts h _ ih =>
    obtain ⟨name, field⟩ := e
    obtain ⟨rfl, hlacks, hmore⟩ := hlacks
    obtain ⟨u, before, after, hu, hlength, hbefore, hafter, hkey⟩ := Json.exists_of_padded_entry h
    obtain ⟨mid, hkey, hcolon⟩ := hkey (',' :: (ts ++ '\x7d' :: rest))
    simp only [List.length_append, List.length_cons] at hfuel
    cases fuel with
    | zero => omega
    | succ fuel =>
      have hread := readField_append hu hlacks (by omega : u.length ≤ fuel + 1) hbefore hafter
        .comma hcolon
      simp only [List.append_assoc, List.cons_append, readFields, ofText, Except.mapError, bind,
        Except.bind, hkey, hread, Json.separator_more hafter (by decide : ',' ≠ '\x7d')]
      rw [ih (by omega) hmore]
      rfl

/-! ## Configurations -/

/-- The fields of a configuration come once each and give it. -/
theorem lacksAll_and_finish {entries : List (String × Setting)} {flag : Bool}
    {fields : List (String × ConfigField)} (h : ConfigFields entries flag fields) :
    Fields.LacksAll {} fields ∧ (Fields.putAll {} fields).finish = ⟨putRules [] entries, flag⟩ := by
  cases h with
  | rulesFirst => exact ⟨⟨rfl, rfl, rfl, rfl, trivial⟩, rfl⟩
  | rulesLast => exact ⟨⟨rfl, rfl, rfl, rfl, trivial⟩, rfl⟩
  | rulesOnly => exact ⟨⟨rfl, rfl, trivial⟩, rfl⟩
  | typeAwareOnly => exact ⟨⟨rfl, rfl, trivial⟩, rfl⟩
  | neither => exact ⟨trivial, rfl⟩

/-- Written fields in their braces, with blanks before them, are read as their configuration. -/
theorem readConfig_append {entries : List (String × Setting)} {flag : Bool}
    {fields : List (String × ConfigField)} (hfields : ConfigFields entries flag fields)
    {t : List Char} (h : Bracketed '\x7b' '\x7d' (WrittenEntry WrittenField) fields t) {fuel : Nat}
    (hfuel : t.length ≤ fuel) {before : List Char} (hbefore : Blanks before) (rest : List Char) :
    readConfig fuel (before ++ (t ++ rest)) = .ok (⟨putRules [] entries, flag⟩, rest) := by
  obtain ⟨hlacks, hfinish⟩ := lacksAll_and_finish hfields
  rw [← hfinish]
  cases h with
  | empty h =>
    simp only [readConfig, Json.skipBlanks_append hbefore, List.cons_append, List.append_assoc]
    rw [Json.skipBlanks_cons rfl]
    simp only [Json.skipBlanks_append h]
    rfl
  | members h =>
    simp only [List.length_cons, List.length_append] at hfuel
    have hbegins := h.begins WrittenEntry.begins ('\x7d' :: rest)
    simp only [readConfig, Json.skipBlanks_append hbefore, List.cons_append, List.append_assoc,
      List.nil_append]
    rw [Json.skipBlanks_cons rfl]
    simp only
    split
    · next heq => exact absurd heq (hbegins.ne_brace _)
    · rw [readFields_skipBlanks, readFields_append h (by omega) hlacks]
      rfl

/-- A written configuration is read as that configuration. -/
theorem parse_of_written {entries : List (String × Setting)} {flag : Bool} {text : String}
    (h : WrittenConfig entries flag text.toList) :
    parse text = .ok ⟨putRules [] entries, flag⟩ := by
  obtain ⟨hfields, hpadded⟩ := h
  rename_i fields
  generalize htext : text.toList = s at hpadded
  obtain ⟨hbefore, ht, hafter⟩ := hpadded
  rename_i before t after
  have hread := readConfig_append hfields ht
    (by simp only [List.length_append]; omega : t.length ≤ (before ++ (t ++ after)).length + 1)
    hbefore after
  simp only [parse, htext, hread, bind, Except.bind, hafter.skipBlanks_eq]
  rfl

/-! ## What counts -/

/-- Of the settings that are written for one key the last counts, and the keys come in the order of
their first appearance. -/
structure Counts (entries rules : List (String × Setting)) : Prop where
  /-- Each key comes once. -/
  nodup : (rules.map (·.1)).Nodup
  /-- The keys come in the order of their first appearance. -/
  order : rules.map (·.1) = (entries.map (·.1)).eraseDups
  /-- Each setting is the last for its key. -/
  last : ∀ e ∈ rules, ∃ before after, entries = before ++ e :: after ∧ e.1 ∉ after.map (·.1)

theorem map_fst_putRule (key : String) (setting : Setting) (done : List (String × Setting)) :
    (putRule key setting done).map (·.1) =
      if key ∈ done.map (·.1) then done.map (·.1) else done.map (·.1) ++ [key] := by
  induction done with
  | nil => rfl
  | cons e done ih =>
    obtain ⟨k, s⟩ := e
    rw [putRule]
    by_cases hk : k = key
    · simp [hk]
    · rw [if_neg hk, List.map_cons, ih]
      simp only [List.map_cons, List.mem_cons, Ne.symm hk, false_or]
      split_ifs <;> rfl

theorem of_mem_putRule {key : String} {setting : Setting} {done : List (String × Setting)}
    (hdone : (done.map (·.1)).Nodup) {e : String × Setting} (h : e ∈ putRule key setting done) :
    e = (key, setting) ∨ e ∈ done ∧ e.1 ≠ key := by
  induction done with
  | nil => exact Or.inl (List.mem_singleton.mp h)
  | cons d done ih =>
    obtain ⟨k, s⟩ := d
    rw [List.map_cons, List.nodup_cons] at hdone
    rw [putRule] at h
    by_cases hk : k = key
    · subst hk
      rw [if_pos rfl] at h
      rcases List.mem_cons.mp h with rfl | hrest
      · exact Or.inl rfl
      · refine Or.inr ⟨List.mem_cons_of_mem _ hrest, ?_⟩
        rintro rfl
        exact hdone.1 (List.mem_map.mpr ⟨e, hrest, rfl⟩)
    · rw [if_neg hk] at h
      rcases List.mem_cons.mp h with rfl | h
      · exact Or.inr ⟨List.mem_cons_self, hk⟩
      · rcases ih hdone.2 h with he | ⟨he, hne⟩
        · exact Or.inl he
        · exact Or.inr ⟨List.mem_cons_of_mem _ he, hne⟩

/-- One more setting counts in the place of the first for its key, or at the end. -/
theorem Counts.concat {entries rules : List (String × Setting)} (h : Counts entries rules)
    (key : String) (setting : Setting) :
    Counts (entries ++ [(key, setting)]) (putRule key setting rules) := by
  have hmem : key ∈ rules.map (·.1) ↔ key ∈ entries.map (·.1) := by
    rw [h.order, List.mem_eraseDups]
  refine ⟨?_, ?_, ?_⟩
  · rw [map_fst_putRule]
    split_ifs with hkey
    · exact h.nodup
    · refine List.nodup_append.mpr ⟨h.nodup, List.pairwise_singleton _ key, ?_⟩
      rintro k hk _ hnew rfl
      exact hkey (List.mem_singleton.mp hnew ▸ hk)
  · rw [map_fst_putRule, List.map_append, List.eraseDups_append, ← h.order]
    by_cases hkey : key ∈ entries.map (·.1)
    · simp [List.removeAll, hmem, hkey]
    · simp [List.removeAll, hmem, hkey, List.eraseDups_cons]
  · intro e he
    rcases of_mem_putRule h.nodup he with rfl | ⟨he, hne⟩
    · exact ⟨entries, [], rfl, List.not_mem_nil⟩
    · obtain ⟨before, after, hentries, hafter⟩ := h.last e he
      refine ⟨before, after ++ [(key, setting)], ?_, ?_⟩
      · rw [hentries, List.append_assoc, List.cons_append]
      · rw [List.map_append, List.mem_append, not_or]
        exact ⟨hafter, by simpa using hne⟩

theorem counts_putRules (entries : List (String × Setting)) :
    Counts entries (putRules [] entries) := by
  induction entries using List.reverseRecOn with
  | nil => exact ⟨List.nodup_nil, rfl, by simp [putRules]⟩
  | append_singleton entries e ih =>
    rw [putRules, List.foldl_append]
    exact ih.concat e.1 e.2

end Config

/-! ## Rules -/

/-- A setting as it counts for its rule: null options are no options. -/
def Setting.plain : Setting → Setting
  | ⟨level, some .null⟩ => ⟨level, none⟩
  | setting => setting

/-- An entry as it counts for its rule. -/
def plainEntry (entry : String × Setting) : String × Setting := (entry.1, entry.2.plain)

/-- Null options give the same rule as none. -/
theorem RuleKind.create_null (kind : RuleKind) : kind.create (some .null) = kind.create none := by
  cases kind <;> rfl

namespace RuleSet

/-- The rule of an entry does not depend on whether null options are written. -/
theorem ofEntry_plain (key : String) (setting : Setting) :
    ofEntry key setting.plain = ofEntry key setting := by
  unfold Setting.plain
  split
  · unfold ofEntry
    simp only [RuleKind.create_null]
  · rfl

/-- The rules of a configuration do not depend on which null options are written. -/
theorem ofConfig_plain (rules : List (String × Setting)) (flag : Bool) :
    ofConfig ⟨rules.map plainEntry, flag⟩ = ofConfig ⟨rules, flag⟩ := by
  unfold ofConfig
  rw [List.mapM_map]
  exact congrArg (fun f => rules.mapM f >>= _) (funext fun e => ofEntry_plain e.1 e.2)

end RuleSet

theorem Config.map_plainEntry_putRules (done entries : List (String × Setting)) :
    (putRules done entries).map plainEntry =
      putRules (done.map plainEntry) (entries.map plainEntry) := by
  have hput : ∀ key setting (done : List (String × Setting)),
      (putRule key setting done).map plainEntry = putRule key setting.plain (done.map plainEntry) := by
    intro key setting done
    induction done with
    | nil => rfl
    | cons e done ih =>
      obtain ⟨k, s⟩ := e
      rw [putRule, List.map_cons]
      by_cases hk : k = key
      · rw [if_pos hk, List.map_cons, plainEntry, plainEntry, putRule, if_pos hk]
      · rw [if_neg hk, List.map_cons, ih, plainEntry, putRule, if_neg hk]
  induction entries generalizing done with
  | nil => rfl
  | cons e entries ih =>
    rw [putRules, List.foldl_cons, ← putRules, ih, hput]
    rfl

/-- However a configuration is written, it is read: its rules are the settings that count among those
that were written, and its flag is the one that was written. Other texts with the same keys, levels
and options, up to null options for none, give the same rules to run. -/
theorem parse_written_config {entries : List (String × Setting)} {flag : Bool} {text : String}
    (h : WrittenConfig entries flag text.toList) :
    ∃ rules, Config.parse text = .ok ⟨rules, flag⟩ ∧ Config.Counts entries rules ∧
      ∀ entries' text', WrittenConfig entries' flag text'.toList →
        entries'.map plainEntry = entries.map plainEntry →
        ∃ rules', Config.parse text' = .ok ⟨rules', flag⟩ ∧
          RuleSet.ofConfig ⟨rules', flag⟩ = RuleSet.ofConfig ⟨rules, flag⟩ := by
  refine ⟨Config.putRules [] entries, Config.parse_of_written h, Config.counts_putRules entries, ?_⟩
  intro entries' text' h' hplain
  refine ⟨Config.putRules [] entries', Config.parse_of_written h', ?_⟩
  rw [← RuleSet.ofConfig_plain, ← RuleSet.ofConfig_plain (Config.putRules [] entries),
    Config.map_plainEntry_putRules, Config.map_plainEntry_putRules, hplain]

/-- Two settings for one key, of which the second counts in the place of the first. -/
theorem parse_written_config_twice :
    let entries : List (String × Setting) :=
      [("max-style-name-words", ⟨.warn, some (.object [("maxWords", .null)])⟩),
        ("prefer-array-at", ⟨.error, none⟩), ("max-style-name-words", ⟨.off, some .null⟩)]
    let text :=
      "\x7b\"rules\":\x7b\"max-style-name-words\":[\"warn\", \x7b\"maxWords\":null\x7d], " ++
      "\"prefer-array-at\":2, \"max-style-name-words\":[\"off\", null]\x7d, " ++
      "\"typeAware\":true\x7d"
    WrittenConfig entries true text.toList ∧
      ∃ rules, Config.parse text = .ok ⟨rules, true⟩ ∧ Config.Counts entries rules ∧
        rules.map (·.1) = ["max-style-name-words", "prefer-array-at"] := by
  intro entries text
  have hoptions : Written Config.optionsDepth (.object [("maxWords", .null)]) _ :=
    Or.inr (Or.inr ⟨[("maxWords", .null)], rfl, .members (.last (.bare
      (.intro (.plain "maxWords" (by simp)) .nil .nil (WrittenScalar.null.written _))))⟩)
  have hfirst : WrittenSetting ⟨.warn, some (.object [("maxWords", .null)])⟩ _ :=
    .withOptions (.bare (.name (.plain "warn" (by simp)))) (.spaced hoptions)
  have hlast : WrittenSetting ⟨.off, some .null⟩ _ :=
    .withOptions (.bare (.name (.plain "off" (by simp))))
      (.spaced (WrittenScalar.null.written _))
  have hwords (setting : Setting) (t : List Char) (h : WrittenSetting setting t) :
      WrittenEntry WrittenSetting ("max-style-name-words", setting) _ :=
    .intro (.plain "max-style-name-words" (by simp)) .nil .nil h
  have haccess : WrittenEntry WrittenSetting ("prefer-array-at", ⟨.error, none⟩) _ :=
    .intro (.plain "prefer-array-at" (by simp)) .nil .nil (.bare (.digit .error))
  have hrules : WrittenEntry WrittenField ("rules", .rules entries) _ :=
    .intro (.plain "rules" (by simp)) .nil .nil (.rules (.members
      (.more (.bare (hwords _ _ hfirst)) (.more (.spaced haccess)
        (.last (.spaced (hwords _ _ hlast)))))))
  have hflag : WrittenEntry WrittenField ("typeAware", .typeAware true) _ :=
    .intro (.plain "typeAware" (by simp)) .nil .nil (.typeAware (.bool true))
  have htext : WrittenConfig entries true text.toList := by
    convert WrittenConfig.intro (.rulesFirst _ _)
      (Padded.bare (Bracketed.members (.more (.bare hrules) (.last (.spaced hflag))))) using 1
    simp [text, Level.digit]
  obtain ⟨rules, hparse, hcounts, -⟩ := parse_written_config htext
  exact ⟨htext, rules, hparse, hcounts, hcounts.order.trans (by decide)⟩

end ComponentLint
