import ComponentLint.Proofs.RuleNames
import ComponentLint.Proofs.Configured

/-!
# Faults of a configuration

An entry of a configuration is at fault if its key stands for no rule, even if the entry is off, or
if it is not off and its rule refuses the options. A configuration is refused exactly if it has such
an entry, with the fault of the first one. Otherwise its entries that are not off give one rule each.
What stands before the last slash of a key shows only in the fault that cites the key.
-/

namespace ComponentLint

/-! ## The last part of a key -/

namespace Text

/-- The text `name` is what follows the last `mark` of `s`, or all of `s` if there is none. -/
def IsLastPart (mark : Char) (s name : List Char) : Prop :=
  mark ∉ name ∧ (s = name ∨ ∃ before, s = before ++ mark :: name)

theorem afterLast_of_notMem {mark : Char} {s : List Char} (h : mark ∉ s) :
    afterLast mark s = s := by
  cases s with
  | nil => rfl
  | cons c s =>
    obtain ⟨hc, hs⟩ := not_or.mp (List.mem_cons.not.mp h)
    rw [afterLast, if_neg (by simpa using hs), if_neg (Ne.symm hc)]

theorem afterLast_append (mark : Char) (before s : List Char) :
    afterLast mark (before ++ mark :: s) = afterLast mark s := by
  induction before with
  | nil =>
    rw [List.nil_append, afterLast]
    split_ifs with hs hmark
    · rfl
    · exact (afterLast_of_notMem (by simpa using hs)).symm
    · exact absurd rfl hmark
  | cons c before ih => rw [List.cons_append, afterLast, if_pos (by simp), ih]

theorem isLastPart_afterLast (mark : Char) (s : List Char) :
    IsLastPart mark s (afterLast mark s) := by
  induction s with
  | nil => exact ⟨List.not_mem_nil, Or.inl rfl⟩
  | cons c s ih =>
    rw [afterLast]
    split_ifs with hs hc
    · obtain ⟨hnot, hall | ⟨before, hbefore⟩⟩ := ih
      · rw [← hall] at hnot
        exact absurd (by simpa using hs) hnot
      · exact ⟨hnot, Or.inr ⟨c :: before, congrArg (c :: ·) hbefore⟩⟩
    · exact ⟨by simpa using hs, Or.inr ⟨[], by rw [hc, List.nil_append]⟩⟩
    · refine ⟨?_, Or.inl rfl⟩
      rw [List.mem_cons, not_or]
      exact ⟨Ne.symm hc, by simpa using hs⟩

theorem isLastPart_iff {mark : Char} {s name : List Char} :
    IsLastPart mark s name ↔ name = afterLast mark s := by
  constructor
  · rintro ⟨hnot, rfl | ⟨before, rfl⟩⟩
    · exact (afterLast_of_notMem hnot).symm
    · rw [afterLast_append, afterLast_of_notMem hnot]
  · rintro rfl
    exact isLastPart_afterLast mark s

end Text

namespace RuleKind

/-- A key stands for a rule if the rule's name is what follows the last slash of the key. -/
def Named (kind : RuleKind) (key : String) : Prop :=
  Text.IsLastPart '/' key.toList kind.name.toList

theorem eq_of_name_eq {kind kind' : RuleKind} (h : kind.name = kind'.name) : kind = kind' :=
  List.inj_on_of_nodup_map nodup_names (mem_all kind) (mem_all kind') h

theorem find?_eq_some_iff {key : String} {kind : RuleKind} :
    find? key = some kind ↔ kind.Named key := by
  rw [Named, Text.isLastPart_iff]
  refine ⟨name_of_find?, fun hname => ?_⟩
  cases hfind : find? key with
  | none =>
    have hnot := List.find?_eq_none.mp hfind kind (mem_all kind)
    exact absurd (beq_iff_eq.mpr hname) hnot
  | some kind' =>
    have hsame : kind'.name.toList = kind.name.toList := (name_of_find? hfind).trans hname.symm
    rw [eq_of_name_eq (String.toList_inj.mp hsame)]

theorem find?_eq_none_iff {key : String} : find? key = none ↔ ∀ kind : RuleKind, ¬ kind.Named key := by
  rw [Option.eq_none_iff_forall_ne_some]
  exact forall_congr' fun kind => not_congr find?_eq_some_iff

/-- A prefix with a slash does not change which rule a key stands for. -/
theorem find?_of_prefixed (before key : String) : find? (before ++ "/" ++ key) = find? key := by
  have htext : (before ++ "/" ++ key).toList = before.toList ++ '/' :: key.toList := by simp
  rw [find?, find?, htext, Text.afterLast_append]

end RuleKind

/-! ## Entries -/

/-- What is wrong with an entry. A key that stands for no rule is wrong at every level, options only
at the levels at which the rule is run. -/
inductive EntryFault : String × Setting → ConfigFault → Prop
  | unknown {key : String} {setting : Setting} (hkey : ∀ kind : RuleKind, ¬ kind.Named key) :
      EntryFault (key, setting) (.unknownRule key)
  | refused {key : String} {setting : Setting} {kind : RuleKind} {fault : ConfigFault}
      (hkey : kind.Named key) (hon : setting.level ≠ .off)
      (hoptions : kind.create setting.options = .error fault) : EntryFault (key, setting) fault

/-- The rule that an entry gives, with the severity of the entry's level. -/
inductive EntryRule : String × Setting → ConfiguredRule → Prop
  | intro {key : String} {setting : Setting} {kind : RuleKind} {rule : Rule} {severity : Severity}
      (hkey : kind.Named key) (hon : setting.level.severity? = some severity)
      (hoptions : kind.create setting.options = .ok rule) :
      EntryRule (key, setting) ⟨rule, some severity⟩

theorem Level.severity?_eq_none_iff {level : Level} : level.severity? = none ↔ level = .off := by
  cases level <;> simp [severity?]

theorem mapError_eq_error_iff {α ε ε' : Type} {f : ε → ε'} {x : Except ε α} {e' : ε'} :
    x.mapError f = .error e' ↔ ∃ e, x = .error e ∧ f e = e' := by
  cases x with
  | error e => simp [Except.mapError]
  | ok a => simp [Except.mapError]

namespace RuleSet

/-- An entry is read as a fault exactly if it is at fault. -/
theorem ofEntry_eq_error_iff {entry : String × Setting} {fault : ConfigFault} :
    ofEntry entry.1 entry.2 = .error fault ↔ EntryFault entry fault := by
  obtain ⟨key, setting⟩ := entry
  constructor
  · intro h
    unfold ofEntry at h
    split at h
    · next hfind =>
      rw [← Except.error.inj h]
      exact .unknown (RuleKind.find?_eq_none_iff.mp hfind)
    · next kind hfind =>
      split at h
      · cases h
      · next severity hseverity =>
        cases hcreate : kind.create setting.options with
        | ok rule =>
          rw [hcreate] at h
          cases h
        | error e =>
          rw [hcreate] at h
          obtain rfl : e = fault := Except.error.inj h
          refine .refused (RuleKind.find?_eq_some_iff.mp hfind) (fun hoff => ?_) hcreate
          rw [Level.severity?_eq_none_iff.mpr hoff] at hseverity
          cases hseverity
  · intro h
    unfold ofEntry
    cases h with
    | unknown hkey => simp only [RuleKind.find?_eq_none_iff.mpr hkey]
    | refused hkey hon hoptions =>
      obtain ⟨severity, hseverity⟩ :=
        Option.ne_none_iff_exists'.mp (Level.severity?_eq_none_iff.not.mpr hon)
      simp only [RuleKind.find?_eq_some_iff.mpr hkey, hseverity, hoptions, Except.map]

/-- An entry that is read without a fault gives a rule if it is not off, and none if it is. -/
theorem gives_of_ofEntry {entry : String × Setting} {c? : Option ConfiguredRule}
    (h : ofEntry entry.1 entry.2 = .ok c?) :
    (entry.2.level = .off ∧ c? = none) ∨
      (entry.2.level ≠ .off ∧ ∃ c, c? = some c ∧ EntryRule entry c) := by
  obtain ⟨key, setting⟩ := entry
  unfold ofEntry at h
  split at h
  · cases h
  · next kind hfind =>
    split at h
    · next hoff => exact Or.inl ⟨Level.severity?_eq_none_iff.mp hoff, (Except.ok.inj h).symm⟩
    · next severity hseverity =>
      obtain ⟨rule, hrule, rfl⟩ := map_eq_ok_iff.mp h
      refine Or.inr ⟨fun hoff => ?_, _, rfl,
        .intro (RuleKind.find?_eq_some_iff.mp hfind) hseverity hrule⟩
      rw [Level.severity?_eq_none_iff.mpr hoff] at hseverity
      cases hseverity

/-- Entries that are read one by one without a fault give the rules of those that are not off. -/
theorem gives_of_entries {entries : List (String × Setting)} {found : List (Option ConfiguredRule)}
    (h : List.Forall₂ (fun entry c? => ofEntry entry.1 entry.2 = .ok c?) entries found) :
    List.Forall₂ EntryRule (entries.filter (·.2.level != .off)) (found.filterMap id) := by
  induction h with
  | nil => exact .nil
  | @cons entry c? entries found hentry _ ih =>
    rcases gives_of_ofEntry hentry with ⟨hoff, rfl⟩ | ⟨hon, c, rfl, hc⟩
    · rwa [List.filter_cons_of_neg (by simp [hoff]), List.filterMap_cons_none rfl]
    · rw [List.filter_cons_of_pos (by simpa using hon)]
      exact .cons hc ih

end RuleSet

/-! ## Configurations -/

/-- Reading the members of a list one by one fails with the first that cannot be read. -/
theorem mapM_eq_error_iff {α β ε : Type} {f : α → Except ε β} {l : List α} {e : ε} :
    l.mapM f = .error e ↔ ∃ before a after, l = before ++ a :: after ∧
      (∀ x ∈ before, ∀ e', f x ≠ .error e') ∧ f a = .error e := by
  induction l with
  | nil => simp [pure, Except.pure]
  | cons a l ih =>
    rw [List.mapM_cons]
    cases ha : f a with
    | error e' =>
      constructor
      · intro h
        obtain rfl : e' = e := Except.error.inj h
        exact ⟨[], a, l, rfl, by simp, ha⟩
      · rintro ⟨before, a', after, hl, hbefore, ha'⟩
        cases before with
        | nil =>
          obtain ⟨rfl, -⟩ := List.cons.inj hl
          rw [ha] at ha'
          exact congrArg Except.error (Except.error.inj ha')
        | cons b before =>
          obtain ⟨rfl, -⟩ := List.cons.inj hl
          exact absurd ha (hbefore a List.mem_cons_self e')
    | ok b =>
      have hrest : (Except.ok b >>= fun b => l.mapM f >>= fun bs => pure (b :: bs)) = .error e ↔
          l.mapM f = .error e := by
        cases l.mapM f with
        | error e' => simp [bind, Except.bind]
        | ok bs => simp [bind, Except.bind, pure, Except.pure]
      rw [hrest, ih]
      constructor
      · rintro ⟨before, a', after, rfl, hbefore, ha'⟩
        refine ⟨a :: before, a', after, rfl, ?_, ha'⟩
        rintro x hx e'
        rcases List.mem_cons.mp hx with rfl | hx
        · simp [ha]
        · exact hbefore x hx e'
      · rintro ⟨before, a', after, hl, hbefore, ha'⟩
        cases before with
        | nil =>
          obtain ⟨rfl, -⟩ := List.cons.inj hl
          rw [ha] at ha'
          cases ha'
        | cons b' before =>
          obtain ⟨rfl, rfl⟩ := List.cons.inj hl
          exact ⟨before, a', after, rfl, fun x hx => hbefore x (List.mem_cons_of_mem _ hx), ha'⟩

theorem mapM_congr {α β ε : Type} {f g : α → Except ε β} {l : List α} (h : ∀ a ∈ l, f a = g a) :
    l.mapM f = l.mapM g := by
  induction l with
  | nil => rfl
  | cons a l ih =>
    rw [List.mapM_cons, List.mapM_cons, h a List.mem_cons_self,
      ih fun b hb => h b (List.mem_cons_of_mem a hb)]

/-- A change of faults can be made member by member. -/
theorem mapM_mapError {α β ε ε' : Type} {f : α → Except ε β} {g : ε → ε'} {l : List α} :
    (l.mapM f).mapError g = l.mapM fun a => (f a).mapError g := by
  induction l with
  | nil => rfl
  | cons a l ih =>
    rw [List.mapM_cons, List.mapM_cons, ← ih]
    cases f a with
    | error e => rfl
    | ok b => cases l.mapM f <;> rfl

/-- A fault with another spelling of the key that it cites. -/
def ConfigFault.rekeyed (spell : String → String) : ConfigFault → ConfigFault
  | .unknownRule key => .unknownRule (spell key)
  | fault => fault

/-- A rule that refuses options says so under its own name. -/
theorem RuleKind.fault_of_create {kind : RuleKind} {options : Option Json} {fault : ConfigFault}
    (h : kind.create options = .error fault) :
    (∃ data, fault = .invalidOptions kind data) ∨ ∃ value, fault = .invalidValue kind value := by
  have hrejected : ∀ r, rejectOptions kind r options = .error fault →
      ∃ value, fault = .invalidValue kind value := by
    intro r hr
    unfold rejectOptions at hr
    split at hr
    · cases hr
    · cases hr
    · exact ⟨_, (Except.error.inj hr).symm⟩
  have hread : ∀ {α : Type} (default : α) (read : Json → Except DataFault α),
      readOptions kind default read options = .error fault →
      ∃ data, fault = .invalidOptions kind data := by
    intro α default read hr
    unfold readOptions at hr
    split at hr
    · cases hr
    · cases hr
    · obtain ⟨data, -, rfl⟩ := mapError_eq_error_iff.mp hr
      exact ⟨data, rfl⟩
  have hmapped : ∀ {α : Type} (default : α) (read : Json → Except DataFault α) (f : α → Rule),
      (readOptions kind default read options).map f = .error fault →
      ∃ data, fault = .invalidOptions kind data := by
    intro α default read f hr
    refine hread default read ?_
    cases hoptions : readOptions kind default read options with
    | ok value =>
      rw [hoptions] at hr
      cases hr
    | error e =>
      rw [hoptions] at hr
      exact congrArg Except.error (Except.error.inj hr)
  cases kind with
  | containerNames => exact Or.inr (hrejected _ h)
  | childSelectors => exact Or.inr (hrejected _ h)
  | arrayAccess => exact Or.inr (hrejected _ h)
  | effectComments => exact Or.inr (hrejected _ h)
  | styleImports => exact Or.inl (hmapped _ _ _ h)
  | layoutName => exact Or.inl (hmapped _ _ _ h)
  | pageName => exact Or.inl (hmapped _ _ _ h)
  | styleNames =>
    unfold create at h
    cases hoptions : readOptions .styleNames none limitRecord.read options with
    | error e =>
      rw [hoptions] at h
      obtain rfl : e = fault := Except.error.inj h
      exact Or.inl (hread _ _ hoptions)
    | ok limit =>
      rw [hoptions] at h
      -- The options have the right shape here, so only the value of the limit can be refused.
      have hlimit : styleNamesRule limit = .error fault := h
      unfold styleNamesRule at hlimit
      split at hlimit
      · cases hlimit
      · split_ifs at hlimit
        exact Or.inr ⟨_, (Except.error.inj hlimit).symm⟩

namespace RuleSet

/-- A prefix of a key shows only where the key is cited. -/
theorem ofEntry_prefixed {key : String} {spell : String → String}
    (h : spell key = key ∨ ∃ before, spell key = before ++ "/" ++ key) (setting : Setting) :
    ofEntry (spell key) setting = (ofEntry key setting).mapError (·.rekeyed spell) := by
  have hfind : RuleKind.find? (spell key) = RuleKind.find? key := by
    rcases h with hsame | ⟨before, hbefore⟩
    · rw [hsame]
    · rw [hbefore, RuleKind.find?_of_prefixed]
  unfold ofEntry
  rw [hfind]
  split
  · rfl
  · next kind _ =>
    split
    · rfl
    · cases hcreate : kind.create setting.options with
      | ok rule => rfl
      | error fault =>
        rcases RuleKind.fault_of_create hcreate with ⟨data, rfl⟩ | ⟨value, rfl⟩
        · rfl
        · rfl

theorem ofConfig_eq_error_iff {config : Config} {fault : ConfigFault} :
    ofConfig config = .error fault ↔
      (config.rules.mapM fun (key, setting) => ofEntry key setting) = .error fault := by
  unfold ofConfig
  cases config.rules.mapM fun (key, setting) => ofEntry key setting with
  | error e => simp [bind, Except.bind]
  | ok found => simp [bind, Except.bind, pure, Except.pure]

/-- A configuration is refused with the fault of its first entry that is at fault. -/
theorem ofConfig_eq_error_iff_first {config : Config} {fault : ConfigFault} :
    ofConfig config = .error fault ↔ ∃ before entry after,
      config.rules = before ++ entry :: after ∧ (∀ e ∈ before, ∀ f, ¬ EntryFault e f) ∧
        EntryFault entry fault := by
  rw [ofConfig_eq_error_iff, mapM_eq_error_iff]
  refine exists_congr fun before => exists_congr fun entry => exists_congr fun after => ?_
  refine and_congr_right fun _ => and_congr ?_ ofEntry_eq_error_iff
  exact forall₂_congr fun e _ => forall_congr' fun f => not_congr ofEntry_eq_error_iff

/-- A configuration is accepted exactly if no entry is at fault, and then has the rules of its
enabled entries. -/
theorem gives_of_ofConfig {config : Config} {set : RuleSet} (h : ofConfig config = .ok set) :
    set.typeAware = config.typeAware ∧ List.Forall₂ EntryRule config.enabled set.rules := by
  obtain ⟨found, hfound, rfl⟩ := ofConfig_eq_ok_iff.mp h
  exact ⟨rfl, gives_of_entries (mapM_eq_ok_iff.mp hfound)⟩

/-- Every configuration either is refused with the fault of its first entry that is at fault, or has
none and gives, in order, the rules of the entries that are not off with the severities of their
levels. Options of entries that are off do not matter, and prefixes of keys change only the key that
a fault cites. -/
theorem ofConfig_reports_first_fault (config : Config) :
    (∀ fault, ofConfig config = .error fault ↔ ∃ before entry after,
      config.rules = before ++ entry :: after ∧ (∀ e ∈ before, ∀ f, ¬ EntryFault e f) ∧
        EntryFault entry fault) ∧
    ((∀ entry ∈ config.rules, ∀ fault, ¬ EntryFault entry fault) →
      ∃ rules, ofConfig config = .ok ⟨rules, config.typeAware⟩ ∧
        List.Forall₂ EntryRule config.enabled rules) ∧
    (∀ options : String × Setting → Option Json,
      ofConfig { config with rules := config.rules.map fun e =>
        if e.2.level = .off then (e.1, ⟨.off, options e⟩) else e } = ofConfig config) ∧
    ∀ spell : String → String,
      (∀ e ∈ config.rules, spell e.1 = e.1 ∨ ∃ before, spell e.1 = before ++ "/" ++ e.1) →
      ofConfig { config with rules := config.rules.map fun e => (spell e.1, e.2) } =
        (ofConfig config).mapError (·.rekeyed spell) := by
  refine ⟨fun fault => ofConfig_eq_error_iff_first, fun hnone => ?_, fun options => ?_,
    fun spell hspell => ?_⟩
  · cases hconfig : ofConfig config with
    | ok set =>
      obtain ⟨hflag, hrules⟩ := gives_of_ofConfig hconfig
      exact ⟨set.rules, by rw [← hflag], hrules⟩
    | error fault =>
      obtain ⟨before, entry, after, hentries, -, hfault⟩ := ofConfig_eq_error_iff_first.mp hconfig
      exact absurd hfault (hnone entry (by simp [hentries]) fault)
  · have hentries : ∀ e : String × Setting,
        (fun (key, setting) => ofEntry key setting)
          (if e.2.level = .off then (e.1, ⟨.off, options e⟩) else e) = ofEntry e.1 e.2 := by
      rintro ⟨key, level, given⟩
      cases level <;> rfl
    unfold ofConfig
    rw [List.mapM_map]
    exact congrArg (fun f => config.rules.mapM f >>= _) (funext hentries)
  · have hentries : (config.rules.map fun e => (spell e.1, e.2)).mapM
          (fun (key, setting) => ofEntry key setting) =
        (config.rules.mapM fun (key, setting) => ofEntry key setting).mapError
          (ConfigFault.rekeyed spell) := by
      rw [mapM_mapError, List.mapM_map]
      exact mapM_congr fun e he => ofEntry_prefixed (hspell e he) e.2
    unfold ofConfig
    rw [hentries]
    cases config.rules.mapM fun (key, setting) => ofEntry key setting <;> rfl

end RuleSet

end ComponentLint
