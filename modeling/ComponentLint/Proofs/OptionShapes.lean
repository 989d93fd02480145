import ComponentLint.Config.Options
import ComponentLint.Proofs.ConfigFaults
import ComponentLint.Proofs.JsonShapes
import ComponentLint.Proofs.ParsedOptions

/-!
# Shapes of options

Which JSON values a rule takes as options, and what they mean. Null stands for the defaults of every
rule. The options of a rule are a record, which may also be written as an array of its fields in
order, and so may a pattern among them. A value that has none of these shapes is refused; a limit on
words that has the right shape but is less than one is refused for its value.
-/

namespace ComponentLint

open Json (IsInteger IsList Nullable)

/-! ## Fields -/

/-- The value of a field, or its default if it is not there. -/
def ifPresent {α : Type} (default : α) (read : Json → Except DataFault α) :
    Option Json → Except DataFault α
  | none => .ok default
  | some v => read v

/-- A field that stays open if it is not there. -/
def known {α : Type} (read : Json → Except DataFault α) : Option Json → Except DataFault (Option α) :=
  ifPresent none fun v => (read v).map some

theorem eq_of_eq_ok {α : Type} {x : Except DataFault α} {a b : α} (ha : x = .ok a)
    (hb : x = .ok b) : a = b := Except.ok.inj (ha.symm.trans hb)

theorem known_some_iff {α : Type} {read : Json → Except DataFault α} {o : Option Json} {a : α} :
    known read o = .ok (some a) ↔ ∃ v, o = some v ∧ read v = .ok a := by
  cases o with
  | none => exact ⟨nofun, nofun⟩
  | some v => simp [known, ifPresent, map_eq_ok_iff]

/-- A record with one field is described by the reader of this field. -/
theorem JsonRecord.describes_single {σ : Type} {r : JsonRecord σ} {field : String}
    {read : Json → Except DataFault σ} (hfields : r.fields = [field])
    (hput : ∀ name v s, r.put name v s = read v) :
    r.Describes fun s _ o => ifPresent r.empty read o = .ok s where
  distinct := by
    rw [hfields]
    exact List.nodup_cons.mpr ⟨List.not_mem_nil, List.nodup_nil⟩
  empty _ := rfl
  put _ h := by rwa [hput] at h
  keep {name} _ _ _ hname _ other hother hne := by
    rw [hfields, List.mem_singleton] at hname hother
    exact absurd (hother.trans hname.symm) hne
  total {name w t} s _ h := ⟨t, by rwa [hput]⟩
  unique {look s t} hs ht := by
    rw [hfields] at hs ht
    exact eq_of_eq_ok (hs field List.mem_cons_self) (ht field List.mem_cons_self)

/-- What a flag is: given as a boolean, or its default if it is not there. -/
inductive Flag (default : Bool) : Option Json → Bool → Prop where
  | absent : Flag default none default
  | given (b : Bool) : Flag default (some (.bool b)) b

theorem flag_iff {default b : Bool} {o : Option Json} :
    (∃ f, known Json.asBool o = .ok f ∧ f.getD default = b) ↔ Flag default o b := by
  cases o with
  | none =>
    constructor
    · rintro ⟨f, hf, rfl⟩
      obtain rfl := Except.ok.inj hf
      exact .absent
    · rintro ⟨⟩
      exact ⟨none, rfl, rfl⟩
  | some v =>
    constructor
    · rintro ⟨f, hf, rfl⟩
      obtain ⟨c, hc, rfl⟩ := map_eq_ok_iff.mp hf
      rw [Json.asBool_eq_ok_iff] at hc
      rw [hc]
      exact .given c
    · rintro ⟨⟩
      exact ⟨some b, rfl, rfl⟩

/-- The value of an optional field, which may also be null. -/
inductive OptionalValue {α : Type} (P : Json → α → Prop) : Option Json → Option α → Prop where
  | absent : OptionalValue P none none
  | given {v : Json} {o : Option α} (h : Nullable P v o) : OptionalValue P (some v) o

theorem optionalValue_some_iff {α : Type} {P : Json → α → Prop} {o : Option Json} {a : α} :
    OptionalValue P o (some a) ↔ ∃ v, o = some v ∧ P v a := by
  constructor
  · rintro (_ | _ | h)
    exact ⟨_, rfl, h⟩
  · rintro ⟨v, rfl, h⟩
    exact .given (.some h)

theorem optionalValue_iff {α : Type} {read : Json → Except DataFault α} {P : Json → α → Prop}
    {o : Option Json} (hread : ∀ v, o = some v → ∀ a, v.asOption read = .ok a ↔ Nullable P v a)
    {a : Option α} : ifPresent none (Json.asOption read) o = .ok a ↔ OptionalValue P o a := by
  cases o with
  | none =>
    constructor
    · intro h
      obtain rfl := Except.ok.inj h
      exact .absent
    · rintro ⟨⟩
      rfl
  | some v =>
    refine (hread v rfl a).trans ⟨.given, ?_⟩
    rintro ⟨⟩
    assumption

namespace RuleKind

theorem readOptions_eq_ok_iff {α : Type} {kind : RuleKind} {default a : α}
    {read : Json → Except DataFault α} (hnull : ∀ a, read .null ≠ .ok a) {v : Json} :
    readOptions kind default read (some v) = .ok a ↔ (v = .null ∧ a = default) ∨ read v = .ok a := by
  cases v with
  | null =>
    constructor
    · intro h
      exact Or.inl ⟨rfl, (Except.ok.inj h).symm⟩
    · rintro (⟨-, rfl⟩ | h)
      · rfl
      · exact absurd h (hnull a)
  | _ =>
    simp only [readOptions, reduceCtorEq, false_and, false_or]
    cases read _ with
    | error e => exact ⟨nofun, nofun⟩
    | ok b => exact ⟨fun h => congrArg _ (Except.ok.inj h), fun h => congrArg _ (Except.ok.inj h)⟩

theorem exists_of_readOptions_eq_error {α : Type} {kind : RuleKind} {default : α}
    {read : Json → Except DataFault α} {v : Json} {fault : ConfigFault}
    (h : readOptions kind default read (some v) = .error fault) :
    ∃ data, fault = .invalidOptions kind data := by
  unfold readOptions at h
  split at h
  · cases h
  · cases h
  · obtain ⟨data, -, rfl⟩ := mapError_eq_error_iff.mp h
    exact ⟨data, rfl⟩

/-! ## The limit on words -/

/-- The options that set a limit on words, or leave it open. -/
inductive LimitOptions : Json → Option Int → Prop where
  | null : LimitOptions .null none
  | record {v : Json} {look : String → Option Json} {limit : Option Int}
    (hrecord : IsRecord ["maxWords"] 1 v look)
    (hlimit : OptionalValue IsInteger (look "maxWords") limit) : LimitOptions v limit

theorem optionalValue_int64_iff {o : Option Json} {limit : Option Int} :
    OptionalValue (fun v n => IsInteger v n ∧ n < 2 ^ 63) o limit ↔
      OptionalValue IsInteger o limit ∧ ∀ n, limit = some n → n < 2 ^ 63 := by
  constructor
  · rintro (_ | ⟨_ | ⟨hinteger, hless⟩⟩)
    · exact ⟨.absent, nofun⟩
    · exact ⟨.given .null, nofun⟩
    · exact ⟨.given (.some hinteger), fun n hn => Option.some.inj hn ▸ hless⟩
  · rintro ⟨_ | ⟨_ | hinteger⟩, hless⟩
    · exact .absent
    · exact .given .null
    · exact .given (.some ⟨hinteger, hless _ rfl⟩)

/-- Options are read exactly if they set a limit in 64 bits, or none. -/
theorem readLimit_eq_ok_iff {v : Json} (hv : v.Proper) {limit : Option Int} :
    readOptions .styleNames none limitRecord.read (some v) = .ok limit ↔
      LimitOptions v limit ∧ ∀ n, limit = some n → n < 2 ^ 63 := by
  have hdescribes : limitRecord.Describes fun s _ o =>
      ifPresent none (Json.asOption Json.asInt) o = .ok s :=
    JsonRecord.describes_single rfl fun _ _ _ => rfl
  have hvalue : ∀ o, ifPresent none (Json.asOption Json.asInt) o = .ok limit ↔
      OptionalValue IsInteger o limit ∧ ∀ n, limit = some n → n < 2 ^ 63 := by
    intro o
    refine (optionalValue_iff fun v _ a => ?_).trans optionalValue_int64_iff
    refine Json.asOption_eq_ok_iff (fun n => Json.asInt_eq_ok_iff) fun n hnull => ?_
    cases hnull.1
  have hfields : limitRecord.fields = ["maxWords"] := rfl
  rw [readOptions_eq_ok_iff nofun, JsonRecord.read_eq_ok_iff hdescribes hv]
  simp only [hfields, List.forall_mem_singleton, hvalue]
  constructor
  · rintro (⟨rfl, rfl⟩ | ⟨look, hrecord, hlimit, hless⟩)
    · exact ⟨.null, nofun⟩
    · exact ⟨.record hrecord hlimit, hless⟩
  · rintro ⟨_ | ⟨hrecord, hlimit⟩, hless⟩
    · exact Or.inl ⟨rfl, rfl⟩
    · exact Or.inr ⟨_, hrecord, hlimit, hless⟩

/-! ## Names of files -/

/-- A value that is a string. -/
def IsText (v : Json) (s : String) : Prop := v = .string s

/-- The options that name files, or leave the names open. -/
inductive FilesOptions : Json → Option (List String) → Prop where
  | null : FilesOptions .null none
  | record {v : Json} {look : String → Option Json} {files : Option (List String)}
    (hrecord : IsRecord ["files"] 1 v look)
    (hfiles : OptionalValue (IsList IsText) (look "files") files) : FilesOptions v files

/-- Options are read exactly if they name files, or none. -/
theorem readFiles_eq_ok_iff {kind : RuleKind} {v : Json} (hv : v.Proper)
    {files : Option (List String)} :
    readOptions kind none filesRecord.read (some v) = .ok files ↔ FilesOptions v files := by
  have hdescribes : filesRecord.Describes fun s _ o =>
      ifPresent none (Json.asOption (Json.asList Json.asString)) o = .ok s :=
    JsonRecord.describes_single rfl fun _ _ _ => rfl
  have hvalue : ∀ {look : String → Option Json}, IsRecord ["files"] 1 v look →
      (ifPresent none (Json.asOption (Json.asList Json.asString)) (look "files") = .ok files ↔
        OptionalValue (IsList IsText) (look "files") files) := by
    intro look hrecord
    refine optionalValue_iff fun w hw a => ?_
    have hlist : ∀ names, w.asList Json.asString = .ok names ↔ IsList IsText w names := fun names =>
      Json.asList_eq_ok_iff (hrecord.proper hv hw) fun _ _ _ => Json.asString_eq_ok_iff
    refine Json.asOption_eq_ok_iff hlist fun names hnull => ?_
    cases hnull
  have hfields : filesRecord.fields = ["files"] := rfl
  rw [readOptions_eq_ok_iff nofun, JsonRecord.read_eq_ok_iff hdescribes hv]
  simp only [hfields, List.forall_mem_singleton]
  constructor
  · rintro (⟨rfl, rfl⟩ | ⟨look, hrecord, hfiles⟩)
    · exact .null
    · exact .record hrecord ((hvalue hrecord).mp hfiles)
  · rintro (_ | ⟨hrecord, hfiles⟩)
    · exact Or.inl ⟨rfl, rfl⟩
    · exact Or.inr ⟨_, hrecord, (hvalue hrecord).mpr hfiles⟩

/-! ## Patterns of style imports -/

/-- A value that is a pattern. -/
inductive IsPattern (v : Json) (p : StyleImports.StylePattern) : Prop where
  | intro {look : String → Option Json}
    (hrecord : IsRecord ["componentDescription", "expectedImport", "styleFileExtension",
      "requireRelativeImports"] 3 v look)
    (hdescription : look "componentDescription" = some (.string p.componentDescription))
    (himport : look "expectedImport" = some (.string p.expectedImport))
    (hextension : look "styleFileExtension" = some (.string p.styleFileExtension))
    (hrelative : Flag false (look "requireRelativeImports") p.requireRelativeImports)

/-- The options of style imports. -/
inductive StylingOptions : Json → StyleImports.Options → Prop where
  | null : StylingOptions .null ⟨[], true⟩
  | record {v patterns : Json} {look : String → Option Json} {o : StyleImports.Options}
    (hrecord : IsRecord ["patterns", "requireWhenStylesExist"] 1 v look)
    (hpatterns : look "patterns" = some patterns) (hlist : IsList IsPattern patterns o.patterns)
    (hexist : Flag true (look "requireWhenStylesExist") o.requireWhenStylesExist) :
    StylingOptions v o

/-- What a pattern has for a field with the given value. -/
def PatternFields.Holds (p : PatternFields) (name : String) (o : Option Json) : Prop :=
  match name with
  | "componentDescription" => known Json.asString o = .ok p.componentDescription
  | "expectedImport" => known Json.asString o = .ok p.expectedImport
  | "styleFileExtension" => known Json.asString o = .ok p.styleFileExtension
  | "requireRelativeImports" => known Json.asBool o = .ok p.requireRelativeImports
  | _ => True

theorem mem_patternFields {name : String} : name ∈ patternRecord.fields ↔
    name = "componentDescription" ∨ name = "expectedImport" ∨ name = "styleFileExtension" ∨
      name = "requireRelativeImports" := by
  simp only [patternRecord, List.mem_cons, List.not_mem_nil, or_false]

theorem describes_pattern : patternRecord.Describes PatternFields.Holds where
  distinct := by decide
  empty name := by
    unfold PatternFields.Holds
    split <;> first | rfl | trivial
  put {name w s s'} hname h := by
    rcases mem_patternFields.mp hname with rfl | rfl | rfl | rfl
    all_goals
      obtain ⟨a, ha, rfl⟩ := map_eq_ok_iff.mp h
      exact known_some_iff.mpr ⟨w, rfl, ha⟩
  keep {name w s s'} hname h other hother hne o ho := by
    rcases mem_patternFields.mp hname with rfl | rfl | rfl | rfl
    all_goals
      obtain ⟨a, -, rfl⟩ := map_eq_ok_iff.mp h
      rcases mem_patternFields.mp hother with rfl | rfl | rfl | rfl
      all_goals first | exact ho | exact absurd rfl hne
  total {name w t} s hname h := by
    rcases mem_patternFields.mp hname with rfl | rfl | rfl | rfl
    all_goals
      obtain ⟨a, ha, -⟩ := map_eq_ok_iff.mp h
      exact ⟨_, map_eq_ok_iff.mpr ⟨a, ha, rfl⟩⟩
  unique {look s t} hs ht := by
    have hdescription := eq_of_eq_ok (hs "componentDescription" (by decide))
      (ht "componentDescription" (by decide))
    have himport := eq_of_eq_ok (hs "expectedImport" (by decide)) (ht "expectedImport" (by decide))
    have hextension := eq_of_eq_ok (hs "styleFileExtension" (by decide))
      (ht "styleFileExtension" (by decide))
    have hrelative := eq_of_eq_ok (hs "requireRelativeImports" (by decide))
      (ht "requireRelativeImports" (by decide))
    cases s
    cases t
    simp only at hdescription himport hextension hrelative
    rw [hdescription, himport, hextension, hrelative]

theorem needed_eq_ok_iff {α : Type} {field : String} {o : Option α} {a : α} :
    needed field o = .ok a ↔ o = some a := by
  cases o with
  | none => exact ⟨nofun, nofun⟩
  | some b => exact ⟨fun h => congrArg some (Except.ok.inj h), fun h => congrArg _ (Option.some.inj h)⟩

/-- A field that is needed and has to be a string is one. -/
theorem known_text_iff {o : Option Json} {s : String} :
    known Json.asString o = .ok (some s) ↔ o = some (.string s) := by
  simp only [known_some_iff, Json.asString_eq_ok_iff, exists_eq_right]

/-- A value is read as a pattern exactly if it is one. -/
theorem readPattern_eq_ok_iff {v : Json} (hv : v.Proper) {p : StyleImports.StylePattern} :
    readPattern v = .ok p ↔ IsPattern v p := by
  unfold readPattern
  simp only [bind_eq_ok_iff, needed_eq_ok_iff, JsonRecord.read_eq_ok_iff describes_pattern hv]
  constructor
  · rintro ⟨fields, ⟨look, hrecord, hholds⟩, d, hd, i, hi, e, he, h⟩
    cases h
    have hdescription : known Json.asString (look "componentDescription") = .ok (some d) :=
      (hholds "componentDescription" (by decide)).trans (congrArg _ hd)
    have himport : known Json.asString (look "expectedImport") = .ok (some i) :=
      (hholds "expectedImport" (by decide)).trans (congrArg _ hi)
    have hextension : known Json.asString (look "styleFileExtension") = .ok (some e) :=
      (hholds "styleFileExtension" (by decide)).trans (congrArg _ he)
    have hrelative : known Json.asBool (look "requireRelativeImports") =
        .ok fields.requireRelativeImports := hholds "requireRelativeImports" (by decide)
    exact .intro hrecord (known_text_iff.mp hdescription) (known_text_iff.mp himport)
      (known_text_iff.mp hextension) (flag_iff.mp ⟨_, hrelative, rfl⟩)
  · rintro ⟨hrecord, hdescription, himport, hextension, hrelative⟩
    obtain ⟨f, hf, hflag⟩ := flag_iff.mpr hrelative
    refine ⟨⟨some p.componentDescription, some p.expectedImport, some p.styleFileExtension, f⟩,
      ⟨_, hrecord, fun name hname => ?_⟩, _, rfl, _, rfl, _, rfl, ?_⟩
    · rcases mem_patternFields.mp hname with rfl | rfl | rfl | rfl
      · exact known_text_iff.mpr hdescription
      · exact known_text_iff.mpr himport
      · exact known_text_iff.mpr hextension
      · exact hf
    · simp only [hflag]
      rfl

/-- What the options of style imports have for a field with the given value. -/
def StylingFields.Holds (s : StylingFields) (name : String) (o : Option Json) : Prop :=
  match name with
  | "patterns" => known (Json.asList readPattern) o = .ok s.patterns
  | "requireWhenStylesExist" => known Json.asBool o = .ok s.requireWhenStylesExist
  | _ => True

theorem mem_stylingFields {name : String} :
    name ∈ stylingRecord.fields ↔ name = "patterns" ∨ name = "requireWhenStylesExist" := by
  simp only [stylingRecord, List.mem_cons, List.not_mem_nil, or_false]

theorem describes_styling : stylingRecord.Describes StylingFields.Holds where
  distinct := by decide
  empty name := by
    unfold StylingFields.Holds
    split <;> first | rfl | trivial
  put {name w s s'} hname h := by
    rcases mem_stylingFields.mp hname with rfl | rfl
    all_goals
      obtain ⟨a, ha, rfl⟩ := map_eq_ok_iff.mp h
      exact known_some_iff.mpr ⟨w, rfl, ha⟩
  keep {name w s s'} hname h other hother hne o ho := by
    rcases mem_stylingFields.mp hname with rfl | rfl
    all_goals
      obtain ⟨a, -, rfl⟩ := map_eq_ok_iff.mp h
      rcases mem_stylingFields.mp hother with rfl | rfl
      all_goals first | exact ho | exact absurd rfl hne
  total {name w t} s hname h := by
    rcases mem_stylingFields.mp hname with rfl | rfl
    all_goals
      obtain ⟨a, ha, -⟩ := map_eq_ok_iff.mp h
      exact ⟨_, map_eq_ok_iff.mpr ⟨a, ha, rfl⟩⟩
  unique {look s t} hs ht := by
    have hpatterns := eq_of_eq_ok (hs "patterns" (by decide)) (ht "patterns" (by decide))
    have hexist := eq_of_eq_ok (hs "requireWhenStylesExist" (by decide))
      (ht "requireWhenStylesExist" (by decide))
    cases s
    cases t
    simp only at hpatterns hexist
    rw [hpatterns, hexist]

/-- Options are read exactly if they have patterns, each of the right shape. -/
theorem readStyling_eq_ok_iff {v : Json} (hv : v.Proper) {o : StyleImports.Options} :
    readOptions .styleImports {} readStyling (some v) = .ok o ↔ StylingOptions v o := by
  have hnull : ∀ a, readStyling .null ≠ .ok a := nofun
  rw [readOptions_eq_ok_iff hnull]
  unfold readStyling
  simp only [bind_eq_ok_iff, needed_eq_ok_iff, JsonRecord.read_eq_ok_iff describes_styling hv]
  constructor
  · rintro (⟨rfl, rfl⟩ | ⟨fields, ⟨look, hrecord, hholds⟩, ps, hps, h⟩)
    · exact .null
    · cases h
      have hpatterns : known (Json.asList readPattern) (look "patterns") = .ok (some ps) :=
        (hholds "patterns" (by decide)).trans (congrArg _ hps)
      have hexist : known Json.asBool (look "requireWhenStylesExist") =
          .ok fields.requireWhenStylesExist := hholds "requireWhenStylesExist" (by decide)
      obtain ⟨w, hw, hlist⟩ := known_some_iff.mp hpatterns
      have hproper : w.Proper := hrecord.proper hv hw
      exact .record hrecord hw
        ((Json.asList_eq_ok_iff hproper fun _ hv _ => readPattern_eq_ok_iff hv).mp hlist)
        (flag_iff.mp ⟨_, hexist, rfl⟩)
  · rintro (_ | ⟨hrecord, hw, hlist, hexist⟩)
    · exact Or.inl ⟨rfl, rfl⟩
    · obtain ⟨f, hf, hflag⟩ := flag_iff.mpr hexist
      have hread := (Json.asList_eq_ok_iff (hrecord.proper hv hw)
        fun _ hv _ => readPattern_eq_ok_iff hv).mpr hlist
      refine Or.inr ⟨⟨some o.patterns, f⟩, ⟨_, hrecord, fun name hname => ?_⟩, _, rfl, ?_⟩
      · rcases mem_stylingFields.mp hname with rfl | rfl
        · exact known_some_iff.mpr ⟨_, hw, hread⟩
        · exact hf
      · simp only [hflag]
        rfl

/-! ## All rules -/

/-- The rule that a value gives as the options of a kind of rule. -/
inductive Grants : RuleKind → Json → Rule → Prop where
  | containerNames : Grants .containerNames .null .containerNames
  | childSelectors : Grants .childSelectors .null .childSelectors
  | arrayAccess : Grants .arrayAccess .null .arrayAccess
  | effectComments : Grants .effectComments .null .effectComments
  | openLimit {v : Json} (h : LimitOptions v none) : Grants .styleNames v (.styleNames 3)
  | limit {v : Json} {n : Int} (h : LimitOptions v (some n)) (hleast : 1 ≤ n) (hmost : n < 2 ^ 63) :
    Grants .styleNames v (.styleNames n.toNat)
  | layoutName {v : Json} {files : Option (List String)} (h : FilesOptions v files) :
    Grants .layoutName v (.layoutName (files.getD ["layout.tsx"]))
  | pageName {v : Json} {files : Option (List String)} (h : FilesOptions v files) :
    Grants .pageName v (.pageName (files.getD ["page.tsx"]))
  | styleImports {v : Json} {o : StyleImports.Options} (h : StylingOptions v o) :
    Grants .styleImports v (.styleImports o)

/-- The kinds of rules without options. -/
def TakesNone (kind : RuleKind) : Prop :=
  kind = .containerNames ∨ kind = .childSelectors ∨ kind = .arrayAccess ∨ kind = .effectComments

instance (kind : RuleKind) : Decidable (TakesNone kind) :=
  inferInstanceAs (Decidable (_ ∨ _ ∨ _ ∨ _))

/-- A limit on words that is less than one. -/
def SetsLowLimit (v : Json) (n : Int) : Prop := LimitOptions v (some n) ∧ -(2 ^ 63) ≤ n ∧ n ≤ 0

/-- How a value is refused as the options of a kind of rule. -/
inductive Refuses : RuleKind → Json → ConfigFault → Prop where
  | takesNone {kind : RuleKind} {v : Json} (hkind : TakesNone kind) (hv : v ≠ .null) :
    Refuses kind v (.invalidValue kind .takesNoOptions)
  | lowLimit {v : Json} {n : Int} (h : SetsLowLimit v n) :
    Refuses .styleNames v (.invalidValue .styleNames (.limitTooLow n))
  | shape {kind : RuleKind} {v : Json} (hkind : ¬ TakesNone kind)
    (hgrants : ∀ rule, ¬ Grants kind v rule)
    (hlow : kind = .styleNames → ∀ n, ¬ SetsLowLimit v n) (data : DataFault) :
    Refuses kind v (.invalidOptions kind data)

theorem LimitOptions.proper_range {v : Json} {n : Int} (h : LimitOptions v (some n))
    (hv : v.Proper) : -(2 ^ 63) ≤ n := by
  cases h with
  | record hrecord hlimit =>
    obtain ⟨w, hlook, hinteger⟩ := optionalValue_some_iff.mp hlimit
    exact hinteger.proper_range (hrecord.proper hv hlook)

theorem rejectOptions_eq_ok_iff {kind : RuleKind} {rule rule' : Rule} {v : Json} :
    rejectOptions kind rule (some v) = .ok rule' ↔ v = .null ∧ rule' = rule := by
  unfold rejectOptions
  split
  · next heq => cases heq
  · next heq =>
    obtain rfl := Option.some.inj heq
    exact ⟨fun h => ⟨rfl, (Except.ok.inj h).symm⟩, fun h => congrArg _ h.2.symm⟩
  · next w hnull heq =>
    obtain rfl := Option.some.inj heq
    exact ⟨nofun, fun h => absurd h.1 hnull⟩

theorem refuses_of_rejectOptions {kind : RuleKind} (hkind : TakesNone kind) {rule : Rule} {v : Json}
    {fault : ConfigFault} (h : rejectOptions kind rule (some v) = .error fault) :
    Refuses kind v fault := by
  unfold rejectOptions at h
  split at h
  · cases h
  · cases h
  · next w hnull heq =>
    obtain rfl := Option.some.inj heq
    cases h
    exact .takesNone hkind hnull

/-- A value is taken exactly if it has the shape of the options, as the rule that it gives. -/
theorem create_eq_ok_iff (kind : RuleKind) {v : Json} (hv : v.Proper) {rule : Rule} :
    kind.create (some v) = .ok rule ↔ Grants kind v rule := by
  unfold create
  cases kind with
  | containerNames | childSelectors | arrayAccess | effectComments =>
    simp only
    rw [rejectOptions_eq_ok_iff]
    constructor
    · rintro ⟨rfl, rfl⟩
      constructor
    · rintro ⟨⟩
      exact ⟨rfl, rfl⟩
  | styleNames =>
    simp only [bind_eq_ok_iff, readLimit_eq_ok_iff hv]
    constructor
    · rintro ⟨limit, ⟨hlimit, hmost⟩, h⟩
      cases limit with
      | none =>
        cases h
        exact .openLimit hlimit
      | some n =>
        unfold styleNamesRule at h
        simp only at h
        split_ifs at h with hleast
        cases h
        exact .limit hlimit hleast (hmost n rfl)
    · intro h
      cases h with
      | openLimit hlimit => exact ⟨none, ⟨hlimit, nofun⟩, rfl⟩
      | @limit _ n hlimit hleast hmost =>
        refine ⟨some n, ⟨hlimit, fun m hm => Option.some.inj hm ▸ hmost⟩, ?_⟩
        exact if_pos hleast
  | styleImports =>
    simp only [map_eq_ok_iff, readStyling_eq_ok_iff hv]
    constructor
    · rintro ⟨o, ho, rfl⟩
      exact .styleImports ho
    · rintro ⟨⟩
      exact ⟨_, by assumption, rfl⟩
  | layoutName | pageName =>
    simp only [map_eq_ok_iff, readFiles_eq_ok_iff hv]
    constructor
    · rintro ⟨files, hfiles, rfl⟩
      constructor
      exact hfiles
    · rintro ⟨⟩
      exact ⟨_, by assumption, rfl⟩

theorem refuses_of_readOptions {α : Type} {kind : RuleKind} (hkind : ¬ TakesNone kind) {v : Json}
    (hgrants : ∀ rule, ¬ Grants kind v rule) (hlow : kind = .styleNames → ∀ n, ¬ SetsLowLimit v n)
    {default : α} {read : Json → Except DataFault α} {fault : ConfigFault}
    (h : readOptions kind default read (some v) = .error fault) : Refuses kind v fault := by
  obtain ⟨data, rfl⟩ := exists_of_readOptions_eq_error h
  exact .shape hkind hgrants hlow data

theorem eq_error_of_map {α β ε : Type} {x : Except ε α} {f : α → β} {e : ε}
    (h : x.map f = .error e) : x = .error e := by
  cases x with
  | error e' => exact congrArg _ (Except.error.inj h)
  | ok a => cases h

/-- Options that are not taken are refused for their shape, for a limit that is too low or because
the rule takes none. -/
theorem refuses_of_create (kind : RuleKind) {v : Json} (hv : v.Proper) {fault : ConfigFault}
    (h : kind.create (some v) = .error fault) : Refuses kind v fault := by
  have hgrants : ∀ rule, ¬ Grants kind v rule := by
    intro rule hrule
    rw [(create_eq_ok_iff kind hv).mpr hrule] at h
    cases h
  cases kind with
  | containerNames => exact refuses_of_rejectOptions (Or.inl rfl) h
  | childSelectors => exact refuses_of_rejectOptions (Or.inr (Or.inl rfl)) h
  | arrayAccess => exact refuses_of_rejectOptions (Or.inr (Or.inr (Or.inl rfl))) h
  | effectComments => exact refuses_of_rejectOptions (Or.inr (Or.inr (Or.inr rfl))) h
  | styleNames =>
    unfold create at h
    simp only at h
    cases hread : readOptions .styleNames none limitRecord.read (some v) with
    | error e =>
      rw [hread] at h
      obtain rfl : e = fault := Except.error.inj h
      refine refuses_of_readOptions (by decide) hgrants (fun _ n hlow => ?_) hread
      -- a limit that is too low has the right shape
      have hok := (readLimit_eq_ok_iff hv).mpr
        ⟨hlow.1, fun m hm => by
          obtain rfl := Option.some.inj hm
          have := hlow.2.2
          omega⟩
      rw [hok] at hread
      cases hread
    | ok limit =>
      rw [hread] at h
      cases limit with
      | none => cases h
      | some n =>
        obtain ⟨hlimit, -⟩ := (readLimit_eq_ok_iff hv).mp hread
        change styleNamesRule (some n) = .error fault at h
        unfold styleNamesRule at h
        simp only at h
        split_ifs at h with hleast
        cases h
        exact .lowLimit ⟨hlimit, hlimit.proper_range hv, by omega⟩
  | styleImports =>
    exact refuses_of_readOptions (by decide) hgrants nofun (eq_error_of_map h)
  | layoutName =>
    exact refuses_of_readOptions (by decide) hgrants nofun (eq_error_of_map h)
  | pageName =>
    exact refuses_of_readOptions (by decide) hgrants nofun (eq_error_of_map h)

/-- A value is taken as the options of a rule exactly if it has their shape, and then as the rule that
it gives; otherwise it is refused in the one way that applies to it. -/
def Judges (kind : RuleKind) (v : Json) : Prop :=
  (∀ rule, kind.create (some v) = .ok rule ↔ Grants kind v rule) ∧
    ∀ fault, kind.create (some v) = .error fault → Refuses kind v fault

theorem judges_of_proper (kind : RuleKind) {v : Json} (hv : v.Proper) : Judges kind v :=
  ⟨fun _ => create_eq_ok_iff kind hv, fun _ => refuses_of_create kind hv⟩

/-- Every value that a text can give is judged by its shape when it is given to a rule as its options:
proper values, the values of texts, and the options that stand in the text of a configuration. -/
theorem create_judges_shape (kind : RuleKind) :
    (∀ v : Json, v.Proper → Judges kind v) ∧
    (∀ text v, Json.parse text = .ok v → Judges kind v) ∧
    (∀ text config, Config.parse text = .ok config → ∀ entry ∈ config.rules, ∀ v,
      entry.2.options = some v → Judges kind v) := by
  refine ⟨fun v hv => judges_of_proper kind hv, fun text v h => ?_, ?_⟩
  · exact judges_of_proper kind (Json.proper_of_parse h)
  · intro text config h entry hentry v hv
    exact judges_of_proper kind (Config.proper_of_parse h entry hentry v hv)

/-- The limit of an array with one integer. -/
theorem create_judges_shape_array :
    Json.parse "[5]" = .ok (.array [.number (.natural 5)]) ∧
      (Json.array [.number (.natural 5)]).Proper ∧
      Grants .styleNames (.array [.number (.natural 5)]) (.styleNames 5) := by
  have hparse : Json.parse "[5]" = .ok (.array [.number (.natural 5)]) := by rfl
  have hproper : (Json.array [.number (.natural 5)]).Proper := Json.proper_of_parse hparse
  have hjudged := (create_judges_shape .styleNames).2.1 "[5]" _ hparse
  exact ⟨hparse, hproper, (hjudged.1 _).mp rfl⟩

end RuleKind

end ComponentLint
