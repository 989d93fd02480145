import ComponentLint.Json.Data
import ComponentLint.Json.Reader
import ComponentLint.Proofs.Configured
import Mathlib.Algebra.Group.Int.Defs
import Mathlib.Data.String.Basic

/-!
# Shapes of JSON values

The values that texts give are proper: integers are in range, and the keys of an object ascend, so
none is repeated. A proper value is read as a record exactly if it has its shape: an object without
unknown keys, or an array of as many of the fields as are needed at least, in order
(`JsonRecord.read_eq_ok_iff`). What is read does not depend on the order in which the entries of an
object are taken.
-/

namespace ComponentLint

theorem bind_eq_ok_iff {α β ε : Type} {x : Except ε α} {f : α → Except ε β} {b : β} :
    x >>= f = .ok b ↔ ∃ a, x = .ok a ∧ f a = .ok b := by
  cases x with
  | error e => exact ⟨nofun, nofun⟩
  | ok a => exact ⟨fun h => ⟨a, rfl, h⟩, fun ⟨_, ha, h⟩ => Except.ok.inj ha ▸ h⟩

namespace Json

/-! ## Proper values -/

/-- The values that JSON texts give. -/
inductive Proper : Json → Prop where
  | null : Proper .null
  | bool (b : Bool) : Proper (.bool b)
  | string (s : String) : Proper (.string s)
  | natural {n : Nat} (h : n < 2 ^ 64) : Proper (.number (.natural n))
  | negative {n : Nat} (hleast : 0 < n) (hmost : n ≤ 2 ^ 63) : Proper (.number (.negative n))
  | float (v : Number.Double) : Proper (.number (.float v))
  | array {elements : List Json} (h : ∀ v ∈ elements, Proper v) : Proper (.array elements)
  | object {entries : List (String × Json)} (hkeys : (entries.map (·.1)).Pairwise (· < ·))
    (h : ∀ e ∈ entries, Proper e.2) : Proper (.object entries)

theorem mem_keys_insertEntry {key : String} {v : Json} {entries : List (String × Json)}
    {k : String} (h : k ∈ (insertEntry key v entries).map (·.1)) :
    k = key ∨ k ∈ entries.map (·.1) := by
  fun_induction insertEntry key v entries with
  | case1 => simpa using h
  | case2 v' rest => simpa using h
  | case3 k' v' rest => simpa using h
  | case4 k' v' rest hne hlt ih =>
    rw [List.map_cons, List.mem_cons] at h ⊢
    rcases h with rfl | h
    · exact Or.inr (Or.inl rfl)
    · exact (ih h).imp_right Or.inr

/-- Entries are put in so that the keys go on ascending. -/
theorem ascending_insertEntry (key : String) (v : Json) {entries : List (String × Json)}
    (h : (entries.map (·.1)).Pairwise (· < ·)) :
    ((insertEntry key v entries).map (·.1)).Pairwise (· < ·) := by
  fun_induction insertEntry key v entries with
  | case1 => exact List.pairwise_singleton _ _
  | case2 v' rest => exact h
  | case3 k' v' rest hne hlt =>
    refine List.pairwise_cons.mpr ⟨fun k hk => ?_, h⟩
    rcases List.mem_cons.mp hk with rfl | hk
    · exact hlt
    · exact hlt.trans ((List.pairwise_cons.mp h).1 k hk)
  | case4 k' v' rest hne hlt ih =>
    obtain ⟨hhead, hrest⟩ := List.pairwise_cons.mp h
    refine List.pairwise_cons.mpr ⟨fun k hk => ?_, ih hrest⟩
    rcases mem_keys_insertEntry hk with rfl | hk
    · exact lt_of_le_of_ne (not_lt.mp hlt) (Ne.symm hne)
    · exact hhead k hk

theorem mem_insertEntry {key : String} {v : Json} {entries : List (String × Json)}
    {e : String × Json} (h : e ∈ insertEntry key v entries) : e = (key, v) ∨ e ∈ entries := by
  fun_induction insertEntry key v entries with
  | case1 => simpa using h
  | case2 v' rest =>
    rcases List.mem_cons.mp h with rfl | h
    · exact Or.inl rfl
    · exact Or.inr (List.mem_cons_of_mem _ h)
  | case3 k' v' rest => exact List.mem_cons.mp h
  | case4 k' v' rest hne hlt ih =>
    rcases List.mem_cons.mp h with rfl | h
    · exact Or.inr List.mem_cons_self
    · exact (ih h).imp_right (List.mem_cons_of_mem _)

theorem proper_ofEntries {entries : List (String × Json)} (h : ∀ e ∈ entries, e.2.Proper) :
    (ofEntries entries).Proper := by
  have hfold : ∀ sorted : List (String × Json), (sorted.map (·.1)).Pairwise (· < ·) →
      (∀ e ∈ sorted, e.2.Proper) →
      (Json.object (entries.foldl (fun sorted e => insertEntry e.1 e.2 sorted) sorted)).Proper := by
    induction entries with
    | nil => exact fun sorted hkeys hsorted => .object hkeys hsorted
    | cons e entries ih =>
      intro sorted hkeys hsorted
      refine ih (fun e' he' => h e' (List.mem_cons_of_mem e he')) _
        (ascending_insertEntry e.1 e.2 hkeys) fun e' he' => ?_
      rcases mem_insertEntry he' with rfl | he'
      · exact h e List.mem_cons_self
      · exact hsorted e' he'
  exact hfold [] List.Pairwise.nil (List.forall_mem_nil _)

/-! ## Values of texts -/

theorem proper_ofNat (isNegative : Bool) (n : Nat) :
    (Json.number (.ofNat isNegative n)).Proper := by
  unfold JsonNumber.ofNat
  split_ifs with hnegative hzero hmost hless
  · exact .float _
  · exact .negative (Nat.pos_of_ne_zero hzero) hmost
  · exact .float _
  · exact .natural hless
  · exact .float _

theorem proper_numberTail {isNegative : Bool} {s rest : List Char} {n : JsonNumber}
    (h : numberTail isNegative s = .ok (n, rest)) : (Json.number n).Proper := by
  unfold numberTail at h
  obtain ⟨⟨units, afterUnits⟩, -, h⟩ := bind_eq_ok_iff.mp h
  simp only at h
  split at h
  · cases h
  · obtain ⟨⟨places, afterPlaces⟩, -, h⟩ := bind_eq_ok_iff.mp h
    obtain ⟨⟨power, afterPower⟩, -, h⟩ := bind_eq_ok_iff.mp h
    simp only at h
    split at h
    · cases h
      exact proper_ofNat isNegative _
    · obtain ⟨m, hm, h⟩ := bind_eq_ok_iff.mp h
      cases h
      unfold float at hm
      split at hm
      · cases hm
        exact .float _
      · cases hm

theorem eq_of_literalTail {α : Type} {value v : α} {letters s rest : List Char}
    (h : literalTail value letters s = .ok (v, rest)) : v = value := by
  fun_induction literalTail value letters s with
  | case1 => exact (Prod.mk.inj (Except.ok.inj h)).1.symm
  | case2 => cases h
  | case3 letters d rest ih => exact ih h
  | case4 => cases h

theorem proper_scalar? {s rest : List Char} {v : Json} (h : scalar? s = some (.ok (v, rest))) :
    v.Proper := by
  unfold scalar? at h
  split at h
  · cases h
  · cases h
  · cases h
  · rw [eq_of_literalTail (Option.some.inj h)]
    exact .null
  · rw [eq_of_literalTail (Option.some.inj h)]
    exact .bool true
  · rw [eq_of_literalTail (Option.some.inj h)]
    exact .bool false
  · obtain ⟨⟨t, after⟩, -, ht⟩ := map_eq_ok_iff.mp (Option.some.inj h)
    cases ht
    exact .string t
  · obtain ⟨⟨n, after⟩, hn, ht⟩ := map_eq_ok_iff.mp (Option.some.inj h)
    cases ht
    exact proper_numberTail hn
  · split_ifs at h
    · obtain ⟨⟨n, after⟩, hn, ht⟩ := map_eq_ok_iff.mp (Option.some.inj h)
      cases ht
      exact proper_numberTail hn
    · cases h

/-- A reader of proper values. -/
def Yields (element : JsonRead Json) : Prop :=
  ∀ s v rest, element s = .ok (v, rest) → v.Proper

theorem proper_elements {element : JsonRead Json} (helement : Yields element) {fuel : Nat}
    {done vs : List Json} {s rest : List Char} (hdone : ∀ v ∈ done, v.Proper)
    (h : elements element fuel done s = .ok (vs, rest)) : ∀ v ∈ vs, v.Proper := by
  induction fuel generalizing done s with
  | zero => cases h
  | succ fuel ih =>
    unfold elements at h
    obtain ⟨⟨v, afterValue⟩, hv, h⟩ := bind_eq_ok_iff.mp h
    obtain ⟨⟨mark, afterMark⟩, -, h⟩ := bind_eq_ok_iff.mp h
    have hmore : ∀ w ∈ v :: done, w.Proper := by
      intro w hw
      rcases List.mem_cons.mp hw with rfl | hw
      · exact helement _ _ _ hv
      · exact hdone w hw
    cases mark with
    | done =>
      cases h
      exact fun w hw => hmore w (List.mem_reverse.mp hw)
    | more => exact ih hmore h

theorem proper_entries {element : JsonRead Json} (helement : Yields element) {fuel : Nat}
    {done es : List (String × Json)} {s rest : List Char} (hdone : ∀ e ∈ done, e.2.Proper)
    (h : entries element fuel done s = .ok (es, rest)) : ∀ e ∈ es, e.2.Proper := by
  induction fuel generalizing done s with
  | zero => cases h
  | succ fuel ih =>
    unfold entries at h
    obtain ⟨⟨name, afterKey⟩, -, h⟩ := bind_eq_ok_iff.mp h
    obtain ⟨afterColon, -, h⟩ := bind_eq_ok_iff.mp h
    obtain ⟨⟨v, afterValue⟩, hv, h⟩ := bind_eq_ok_iff.mp h
    obtain ⟨⟨mark, afterMark⟩, -, h⟩ := bind_eq_ok_iff.mp h
    have hmore : ∀ e ∈ (name, v) :: done, e.2.Proper := by
      intro e he
      rcases List.mem_cons.mp he with rfl | he
      · exact helement _ _ _ hv
      · exact hdone e he
    cases mark with
    | done =>
      cases h
      exact fun e he => hmore e (List.mem_reverse.mp he)
    | more => exact ih hmore h

/-- Values that are nested at most as deep as is allowed are proper. -/
theorem yields_value (fuel depth : Nat) : Yields (value fuel depth) := by
  induction depth with
  | zero =>
    intro s v rest h
    unfold value at h
    cases hscalar : scalar? s with
    | none =>
      rw [hscalar] at h
      cases h
    | some result =>
      rw [hscalar] at h
      exact proper_scalar? (hscalar.trans (congrArg some h))
  | succ depth ih =>
    intro s v rest h
    unfold value at h
    split at h
    · next result hscalar => exact proper_scalar? (hscalar.trans (congrArg some h))
    · split at h
      · obtain ⟨⟨vs, after⟩, hvs, ht⟩ := map_eq_ok_iff.mp h
        cases ht
        unfold arrayTail at hvs
        split at hvs
        · cases hvs
          exact .array nofun
        · exact .array (proper_elements ih (List.forall_mem_nil _) hvs)
      · obtain ⟨⟨es, after⟩, hes, ht⟩ := map_eq_ok_iff.mp h
        cases ht
        unfold objectTail at hes
        split at hes
        · cases hes
          exact proper_ofEntries nofun
        · exact proper_ofEntries (proper_entries ih (List.forall_mem_nil _) hes)
      · cases h

/-- Every text that is read gives a proper value. -/
theorem proper_of_parse {text : String} {v : Json} (h : parse text = .ok v) : v.Proper := by
  unfold parse at h
  obtain ⟨⟨w, rest⟩, hw, h⟩ := bind_eq_ok_iff.mp h
  simp only at h
  split_ifs at h
  cases h
  exact yields_value _ _ _ _ _ hw

/-! ## Values of known kinds -/

/-- The value is a whole number. -/
inductive IsInteger : Json → Int → Prop where
  | natural (n : Nat) : IsInteger (.number (.natural n)) n
  | negative (n : Nat) : IsInteger (.number (.negative n)) (-n)

/-- The value is null or of a kind. -/
inductive Nullable {α : Type} (P : Json → α → Prop) : Json → Option α → Prop where
  | null : Nullable P .null none
  | some {v : Json} {a : α} (h : P v a) : Nullable P v (some a)

/-- The value is an array of values of a kind. -/
inductive IsList {α : Type} (P : Json → α → Prop) : Json → List α → Prop where
  | intro {elements : List Json} {as : List α} (h : List.Forall₂ P elements as) :
    IsList P (.array elements) as

theorem IsInteger.proper_range {v : Json} {n : Int} (h : IsInteger v n) (hv : v.Proper) :
    -(2 ^ 63) ≤ n := by
  cases h with
  | natural m => omega
  | negative m =>
    cases hv with
    | negative _ hmost => omega

theorem asString_eq_ok_iff {v : Json} {s : String} : v.asString = .ok s ↔ v = .string s := by
  cases v <;> simp [asString, mismatch]

theorem asBool_eq_ok_iff {v : Json} {b : Bool} : v.asBool = .ok b ↔ v = .bool b := by
  cases v <;> simp [asBool, mismatch]

theorem asInt_eq_ok_iff {v : Json} {n : Int} : v.asInt = .ok n ↔ IsInteger v n ∧ n < 2 ^ 63 := by
  unfold asInt
  split
  · next m =>
    split_ifs with hless
    · constructor
      · intro h
        obtain rfl := Except.ok.inj h
        exact ⟨.natural m, by exact_mod_cast hless⟩
      · rintro ⟨hinteger, -⟩
        cases hinteger
        rfl
    · refine ⟨nofun, ?_⟩
      rintro ⟨hinteger, hrange⟩
      cases hinteger
      exact absurd (by exact_mod_cast hrange) hless
  · next m =>
    constructor
    · intro h
      obtain rfl := Except.ok.inj h
      exact ⟨.negative m, by omega⟩
    · rintro ⟨hinteger, -⟩
      cases hinteger
      rfl
  · next hnatural hnegative =>
    refine ⟨nofun, ?_⟩
    rintro ⟨hinteger, -⟩
    cases hinteger with
    | natural m => exact absurd rfl (hnatural m)
    | negative m => exact absurd rfl (hnegative m)

theorem asOption_eq_ok_iff {α : Type} {read : Json → Except DataFault α} {P : Json → α → Prop}
    {v : Json} (hread : ∀ a, read v = .ok a ↔ P v a) (hnull : ∀ a, ¬ P .null a) {o : Option α} :
    v.asOption read = .ok o ↔ Nullable P v o := by
  unfold asOption
  split
  · constructor
    · intro h
      obtain rfl := Except.ok.inj h
      exact .null
    · intro h
      cases h with
      | null => rfl
      | some h => exact absurd h (hnull _)
  · next hne =>
    rw [map_eq_ok_iff]
    constructor
    · rintro ⟨a, ha, rfl⟩
      exact .some ((hread a).mp ha)
    · intro h
      cases h with
      | null => exact absurd rfl hne
      | some h => exact ⟨_, (hread _).mpr h, rfl⟩

theorem forall₂_congr_mem {α β : Type} {R S : α → β → Prop} {l : List α} {m : List β}
    (h : ∀ a ∈ l, ∀ b, R a b ↔ S a b) : List.Forall₂ R l m ↔ List.Forall₂ S l m := by
  induction l generalizing m with
  | nil => simp only [List.forall₂_nil_left_iff]
  | cons a l ih =>
    simp only [List.forall₂_cons_left_iff, h a List.mem_cons_self,
      ih fun a' ha' => h a' (List.mem_cons_of_mem a ha')]

theorem asList_eq_ok_iff {α : Type} {read : Json → Except DataFault α} {P : Json → α → Prop}
    {v : Json} (hv : v.Proper) (hread : ∀ v, v.Proper → ∀ a, read v = .ok a ↔ P v a)
    {as : List α} : v.asList read = .ok as ↔ IsList P v as := by
  unfold asList
  split
  · next elements =>
    cases hv with
    | array hproper =>
      rw [mapM_eq_ok_iff, forall₂_congr_mem fun v hmem a => hread v (hproper v hmem) a]
      exact ⟨.intro, fun ⟨h⟩ => h⟩
  · next hne =>
    refine ⟨nofun, fun h => ?_⟩
    cases h
    exact absurd rfl (hne _)

end Json

/-! ## Records -/

/-- A value has the shape of a record: an object without unknown keys, or an array of the fields in
order, which must have the required ones and may lack others at the end. The last argument gives the
values of the fields that are there. -/
inductive IsRecord (fields : List String) (required : Nat) :
    Json → (String → Option Json) → Prop where
  | object {entries : List (String × Json)} (h : ∀ e ∈ entries, e.1 ∈ fields) :
    IsRecord fields required (.object entries) fun name => entries.lookup name
  | array {elements : List Json} (hleast : required ≤ elements.length)
    (hmost : elements.length ≤ fields.length) :
    IsRecord fields required (.array elements) fun name => (fields.zip elements).lookup name

theorem IsRecord.proper {fields : List String} {required : Nat} {v w : Json}
    {look : String → Option Json} (h : IsRecord fields required v look) (hv : v.Proper)
    {name : String} (hlook : look name = some w) : w.Proper := by
  cases h with
  | object _ =>
    obtain ⟨before, after, hentries, -⟩ := List.lookup_eq_some_iff.mp hlook
    cases hv with
    | object _ hproper =>
      refine hproper (name, w) ?_
      rw [hentries]
      exact List.mem_append_right _ List.mem_cons_self
  | @array elements _ _ =>
    obtain ⟨before, after, hzip, -⟩ := List.lookup_eq_some_iff.mp hlook
    have hmem : (name, w) ∈ fields.zip elements := by
      rw [hzip]
      exact List.mem_append_right _ List.mem_cons_self
    cases hv with
    | array hproper => exact hproper w (List.of_mem_zip hmem).2

namespace JsonRecord

variable {σ : Type} {r : JsonRecord σ} {Holds : σ → String → Option Json → Prop}

/-- What reading a record does, field by field: `Holds s name o` says what the record `s` has for a
field whose value is `o`, or `none` if the field is not there. -/
structure Describes (r : JsonRecord σ) (Holds : σ → String → Option Json → Prop) : Prop where
  /-- No two fields have one name. -/
  distinct : r.fields.Nodup
  /-- At first no field is there. -/
  empty : ∀ name, Holds r.empty name none
  /-- A value that is put decides about its field. -/
  put : ∀ {name w s s'}, name ∈ r.fields → r.put name w s = .ok s' → Holds s' name (some w)
  /-- It does not touch the other fields. -/
  keep : ∀ {name w s s'}, name ∈ r.fields → r.put name w s = .ok s' →
    ∀ other ∈ r.fields, other ≠ name → ∀ o, Holds s other o → Holds s' other o
  /-- A value that a field can have can be put. -/
  total : ∀ {name w t} (s), name ∈ r.fields → Holds t name (some w) → ∃ s', r.put name w s = .ok s'
  /-- The values of all fields decide about the record. -/
  unique : ∀ {look : String → Option Json} {s t}, (∀ name ∈ r.fields, Holds s name (look name)) →
    (∀ name ∈ r.fields, Holds t name (look name)) → s = t

theorem entry_eq_ok_iff {s s' : σ} {e : String × Json} :
    r.entry s e = .ok s' ↔ e.1 ∈ r.fields ∧ r.put e.1 e.2 s = .ok s' := by
  unfold entry
  split_ifs with hfield
  · exact ⟨fun h => ⟨by simpa using hfield, h⟩, fun h => h.2⟩
  · exact ⟨nofun, fun h => absurd (by simpa using h.1) hfield⟩

/-- Taking entries with different keys one after the other gives every field its value, if there is
one, and leaves it otherwise. -/
theorem holds_of_foldlM (hr : r.Describes Holds) {entries : List (String × Json)} {s₀ s : σ}
    (hkeys : (entries.map (·.1)).Nodup) (h : entries.foldlM r.entry s₀ = .ok s) :
    (∀ e ∈ entries, e.1 ∈ r.fields) ∧
      ∀ name ∈ r.fields, ∀ o, Holds s₀ name o → Holds s name ((entries.lookup name).or o) := by
  induction entries generalizing s₀ with
  | nil =>
    obtain rfl : s₀ = s := Except.ok.inj h
    exact ⟨nofun, fun name _ o ho => ho⟩
  | cons e entries ih =>
    obtain ⟨key, w⟩ := e
    rw [List.foldlM_cons] at h
    obtain ⟨s₁, hentry, hrest⟩ := bind_eq_ok_iff.mp h
    obtain ⟨hfield, hput⟩ := entry_eq_ok_iff.mp hentry
    obtain ⟨hnew, hkeys⟩ := List.nodup_cons.mp hkeys
    obtain ⟨hfields, hholds⟩ := ih hkeys hrest
    refine ⟨fun e' he' => ?_, fun name hname o ho => ?_⟩
    · rcases List.mem_cons.mp he' with rfl | he'
      · exact hfield
      · exact hfields e' he'
    · by_cases heq : name = key
      · obtain rfl := heq
        have hnone : entries.lookup name = none := by
          refine List.lookup_eq_none_iff.mpr fun p hp => bne_iff_ne.mpr fun hkey => hnew ?_
          exact List.mem_map.mpr ⟨p, hp, hkey.symm⟩
        have hlast := hholds name hname (some w) (hr.put hname hput)
        rw [hnone] at hlast
        simpa only [List.lookup_cons_self, Option.some_or, Option.none_or] using hlast
      · have hkept := hholds name hname o (hr.keep hfield hput name hname heq o ho)
        simpa only [List.lookup_cons, beq_eq_false_iff_ne.mpr heq] using hkept

/-- Entries whose values their fields can have can all be taken. -/
theorem exists_foldlM (hr : r.Describes Holds) {entries : List (String × Json)} {t : σ}
    (h : ∀ e ∈ entries, e.1 ∈ r.fields ∧ Holds t e.1 (some e.2)) (s₀ : σ) :
    ∃ s, entries.foldlM r.entry s₀ = .ok s := by
  induction entries generalizing s₀ with
  | nil => exact ⟨s₀, rfl⟩
  | cons e entries ih =>
    obtain ⟨hfield, hholds⟩ := h e List.mem_cons_self
    obtain ⟨s₁, hput⟩ := hr.total s₀ hfield hholds
    obtain ⟨s, hrest⟩ := ih (fun e' he' => h e' (List.mem_cons_of_mem e he')) s₁
    refine ⟨s, ?_⟩
    rw [List.foldlM_cons]
    exact bind_eq_ok_iff.mpr ⟨s₁, entry_eq_ok_iff.mpr ⟨hfield, hput⟩, hrest⟩

theorem lookup_eq_some_of_mem {entries : List (String × Json)} (hkeys : (entries.map (·.1)).Nodup)
    {e : String × Json} (h : e ∈ entries) : entries.lookup e.1 = some e.2 := by
  induction entries with
  | nil => cases h
  | cons e' entries ih =>
    obtain ⟨hnew, hkeys⟩ := List.nodup_cons.mp hkeys
    rcases List.mem_cons.mp h with rfl | h
    · rw [List.lookup_cons, beq_self_eq_true]
    · have hne : e.1 ≠ e'.1 := fun heq => hnew (List.mem_map.mpr ⟨e, h, heq⟩)
      rw [List.lookup_cons, beq_eq_false_iff_ne.mpr hne]
      exact ih hkeys h

/-- Entries with different keys are read exactly if they belong to known fields, as the record that
has their values. -/
theorem foldlM_eq_ok_iff (hr : r.Describes Holds) {entries : List (String × Json)}
    (hkeys : (entries.map (·.1)).Nodup) {s : σ} :
    entries.foldlM r.entry r.empty = .ok s ↔
      (∀ e ∈ entries, e.1 ∈ r.fields) ∧
        ∀ name ∈ r.fields, Holds s name (entries.lookup name) := by
  have hread : ∀ {s}, entries.foldlM r.entry r.empty = .ok s →
      (∀ e ∈ entries, e.1 ∈ r.fields) ∧ ∀ name ∈ r.fields, Holds s name (entries.lookup name) := by
    intro s h
    obtain ⟨hfields, hholds⟩ := holds_of_foldlM hr hkeys h
    refine ⟨hfields, fun name hname => ?_⟩
    simpa only [Option.or_none] using hholds name hname none (hr.empty name)
  refine ⟨hread, fun ⟨hfields, hholds⟩ => ?_⟩
  have hcan : ∀ e ∈ entries, e.1 ∈ r.fields ∧ Holds s e.1 (some e.2) := by
    intro e he
    have hvalue := hholds e.1 (hfields e he)
    rw [lookup_eq_some_of_mem hkeys he] at hvalue
    exact ⟨hfields e he, hvalue⟩
  obtain ⟨t, ht⟩ := exists_foldlM hr hcan r.empty
  rw [ht, hr.unique hholds (hread ht).2]

theorem keys_zip_sublist (fields : List String) (elements : List Json) :
    ((fields.zip elements).map (·.1)).Sublist fields := by
  induction fields generalizing elements with
  | nil => exact List.Sublist.refl _
  | cons name fields ih =>
    cases elements with
    | nil => exact List.nil_sublist _
    | cons v elements => exact (ih elements).cons_cons name

theorem ofElements_eq_ok_iff {elements : List Json} {s : σ} :
    r.ofElements elements = .ok s ↔ (r.fields.zip elements).foldlM r.entry r.empty = .ok s ∧
      r.required ≤ elements.length ∧ elements.length ≤ r.fields.length := by
  unfold ofElements
  rw [bind_eq_ok_iff]
  constructor
  · rintro ⟨s', hs', h⟩
    by_cases hleast : elements.length < r.required
    · rw [if_pos hleast] at h
      cases h
    · rw [if_neg hleast] at h
      simp only at h
      by_cases hmost : r.fields.length < elements.length
      · rw [if_pos hmost] at h
        cases h
      · rw [if_neg hmost] at h
        cases h
        exact ⟨hs', not_lt.mp hleast, not_lt.mp hmost⟩
  · rintro ⟨hs, hleast, hmost⟩
    refine ⟨s, hs, ?_⟩
    rw [if_neg (not_lt.mpr hleast)]
    simp only
    rw [if_neg (not_lt.mpr hmost)]
    rfl

/-- A proper value is read exactly if it has the shape of the record, as the record that has the
values of the fields. -/
theorem read_eq_ok_iff (hr : r.Describes Holds) {v : Json} (hv : v.Proper) {s : σ} :
    r.read v = .ok s ↔ ∃ look, IsRecord r.fields r.required v look ∧
      ∀ name ∈ r.fields, Holds s name (look name) := by
  unfold read
  split
  · next entries =>
    cases hv with
    | object hkeys _ =>
      rw [ofEntries, foldlM_eq_ok_iff hr (hkeys.imp fun h => ne_of_lt h)]
      constructor
      · rintro ⟨hfields, hholds⟩
        exact ⟨_, .object hfields, hholds⟩
      · rintro ⟨look, hrecord, hholds⟩
        cases hrecord with
        | object hfields => exact ⟨hfields, hholds⟩
  · next elements =>
    have hkeys : ((r.fields.zip elements).map (·.1)).Nodup :=
      (keys_zip_sublist r.fields elements).nodup hr.distinct
    rw [ofElements_eq_ok_iff, foldlM_eq_ok_iff hr hkeys]
    constructor
    · rintro ⟨⟨-, hholds⟩, hleast, hmost⟩
      exact ⟨_, .array hleast hmost, hholds⟩
    · rintro ⟨look, hrecord, hholds⟩
      cases hrecord with
      | array hleast hmost =>
        exact ⟨⟨fun e he => (List.of_mem_zip he).1, hholds⟩, hleast, hmost⟩
  · next hobject harray =>
    refine ⟨nofun, fun ⟨look, hrecord, _⟩ => ?_⟩
    cases hrecord with
    | object => exact absurd rfl (hobject _)
    | array => exact absurd rfl (harray _)

end JsonRecord

end ComponentLint
