import ComponentLint.Proofs.WrittenTargets
import ComponentLint.Run

/-!
# Which accesses are reported

The rule on accesses reports every access with brackets whose key is an index and whose receiver is
taken for an array, once and at its place, and nothing else. An access stands as an expression or as
the last element of an optional chain, and of the two hooks of the rule exactly one is called at it.
An access that is written to is a target and reported by neither; the accesses in its object and in
its key are. Under a type assertion that is written to, as in `x[0]! = 1`, the assertion is the
target and the access stays an expression.
-/

namespace ComponentLint.ArrayAccess

open Script (Expr Node Target Visitor)

/-- A key that is a number, perhaps with a minus sign before it. -/
inductive IsNumeric : Expr → Prop where
  | number (span value) : IsNumeric (.number span value)
  | negated (outer span value) : IsNumeric (.negation outer (.number span value))

/-- A key that the method can take over. -/
inductive IsIndex : Expr → Prop where
  | numeric {key} (h : IsNumeric key) : IsIndex key
  | name (span text) : IsIndex (.name span text)
  | binary (span left right) : IsIndex (.binary span left right)
  | call (span callee types args optional) : IsIndex (.call span callee types args optional)

/-- A receiver that is taken for an array: by its type, which has to be known, or, where types are
not looked at, by the key or by names. -/
def Accepted (types : Option TypeQuery) (receiver key : Expr) : Prop :=
  match types with
  | some typeOf =>
    ∃ t, typeOf receiver = .ok t ∧ (t.isArrayLike = true ∨ isTypedArrayCall receiver = true)
  | none => IsNumeric key ∨ looksLikeArray receiver = true

/-- A key is an index exactly if it has the form of one. -/
theorem exists_index_iff (source : List Char) (key : Expr) :
    (∃ index, index? source key = some index) ↔ IsIndex key := by
  constructor
  · rintro ⟨index, h⟩
    unfold index? at h
    split at h
    · exact .numeric (.number ..)
    · exact .numeric (.negated ..)
    · exact .name ..
    · exact .binary ..
    · exact .call ..
    · cases h
  · intro h
    cases h with
    | numeric h => cases h <;> exact ⟨_, rfl⟩
    | name | binary | call => exact ⟨_, rfl⟩

/-- The index of a numeric key is numeric, and no other is. -/
theorem isNumeric_iff {source : List Char} {key : Expr} {index : Index}
    (h : index? source key = some index) : index.isNumeric = true ↔ IsNumeric key := by
  unfold index? at h
  split at h
  · cases h
    exact ⟨fun _ => .number .., fun _ => rfl⟩
  · cases h
    exact ⟨fun _ => .negated .., fun _ => rfl⟩
  · cases h
    exact ⟨nofun, nofun⟩
  · cases h
    exact ⟨nofun, nofun⟩
  · cases h
    exact ⟨nofun, nofun⟩
  · cases h

theorem isArray_iff {source : List Char} {types : Option TypeQuery} {receiver key : Expr}
    {index : Index} (h : index? source key = some index) :
    isArray types receiver index = true ↔ Accepted types receiver key := by
  unfold isArray Accepted
  cases types with
  | none => simp only [Bool.or_eq_true, isNumeric_iff h]
  | some typeOf =>
    cases ht : typeOf receiver with
    | error fault => simp [ht]
    | ok t => simp [ht]

/-- An access is reported exactly if its key is an index and its receiver is accepted. -/
theorem checkAccess_index_iff {source : List Char} {types : Option TypeQuery} {span : Span}
    {receiver key : Expr} {optional : Bool} {d : Diagnostic} :
    checkAccess source types (.index span receiver key optional) = some d ↔
      Accepted types receiver key ∧ ∃ index, index? source key = some index ∧
        d = complaint source span receiver optional index := by
  unfold checkAccess
  rw [Option.bind_eq_some_iff]
  constructor
  · rintro ⟨index, hindex, h⟩
    split_ifs at h with harray
    exact ⟨(isArray_iff hindex).mp harray, index, hindex, (Option.some.inj h).symm⟩
  · rintro ⟨haccepted, index, hindex, rfl⟩
    exact ⟨index, hindex, if_pos ((isArray_iff hindex).mpr haccepted)⟩

/-- Only accesses are reported. -/
theorem eq_index_of_checkAccess {source : List Char} {types : Option TypeQuery} {e : Expr}
    {d : Diagnostic} (h : checkAccess source types e = some d) :
    ∃ span receiver key optional, e = .index span receiver key optional := by
  unfold checkAccess at h
  split at h
  · exact ⟨_, _, _, _, rfl⟩
  · cases h

/-- The rule is called on the expressions of a file one after the other. -/
theorem check_eq (file : SourceFile) :
    check file = file.program.expressions.filterMap (checkAccess file.source file.types) :=
  Script.Program.visit_filterMap file.program (checkAccess file.source file.types)

/-- An access that the rule objects to. -/
def Rejected (file : SourceFile) (e : Expr) : Prop :=
  ∃ span receiver key optional, e = .index span receiver key optional ∧
    IsIndex key ∧ Accepted file.types receiver key

/-- The places of a file where an access stands, as an expression or as the last element of an
optional chain, that the rule objects to. -/
def Reportable (file : SourceFile) (place : List Nat) : Prop :=
  ∃ e, file.program.at? place = some (.expr e) ∧ Rejected file e

/-- What is reported about an access with the given span: this span under the name of the rule, the
index in the message, and the call of the method in place of the access. -/
structure Describes (source : List Char) (place : Span) (receiver : Expr) (optional : Bool)
    (index : Index) (d : Diagnostic) : Prop where
  rule : d.rule = "prefer-array-at"
  span : d.span = place
  messageId : d.messageId = "preferArrayAt"
  data : d.data = [("index", String.ofList index.text)]
  message : d.message = "Use .at(" ++ String.ofList index.text ++ ") instead of [" ++
    String.ofList index.text ++ "] for array access"
  severity : d.severity = .warning
  fixes : d.fixes = [⟨place, String.ofList (replacement source receiver optional index),
    some "Use `.at()`"⟩]

/-- The report on the access at a place. -/
def Reports (file : SourceFile) (place : List Nat) (d : Diagnostic) : Prop :=
  ∃ span receiver key optional index,
    file.program.at? place = some (.expr (.index span receiver key optional)) ∧
      index? file.source key = some index ∧
      Describes file.source span receiver optional index d

/-- The reports are those on what stands at the places that satisfy a condition, each reported once
and a node before the nodes inside it. -/
structure ReportsExactly (file : SourceFile) (condition : List Nat → Prop)
    (places : List (List Nat)) (ds : List Diagnostic) : Prop where
  /-- The places ascend, so none is met twice. -/
  ascending : places.Pairwise (· < ·)
  /-- No place leads through a later one. -/
  outer_first : places.Pairwise fun earlier later => ¬ later <+: earlier
  /-- They are the places that satisfy the condition. -/
  mem_iff : ∀ place, place ∈ places ↔ condition place
  /-- Each has its own report. -/
  reports : List.Forall₂ (Reports file) places ds

theorem describes_complaint (source : List Char) (span : Span) (receiver : Expr) (optional : Bool)
    (index : Index) :
    Describes source span receiver optional index
      (complaint source span receiver optional index) where
  rule := rfl
  span := rfl
  messageId := rfl
  data := rfl
  message := by
    have hkey : Text.trim "index".toList = "index".toList := by decide
    have hindex : Template.fillPiece [("index", String.ofList index.text)] (.hole "index".toList) =
        index.text := by
      rw [Template.fillPiece, hkey]
      simp [TemplateData.value?]
    change String.ofList (preferArrayAt.fill [("index", String.ofList index.text)]) = _
    rw [← String.toList_inj, preferArrayAt, Template.fill]
    simp only [Template.ofParts, List.flatMap_cons, hindex]
    simp [Template.fillPiece]
  severity := rfl
  fixes := rfl

/-- An expression is reported exactly if the rule objects to it. -/
theorem exists_checkAccess_iff {file : SourceFile} {e : Expr} :
    (∃ d, checkAccess file.source file.types e = some d) ↔ Rejected file e := by
  constructor
  · rintro ⟨d, hd⟩
    obtain ⟨span, receiver, key, optional, rfl⟩ := eq_index_of_checkAccess hd
    obtain ⟨haccepted, index, hindex, -⟩ := checkAccess_index_iff.mp hd
    exact ⟨span, receiver, key, optional, rfl, (exists_index_iff ..).mp ⟨index, hindex⟩, haccepted⟩
  · rintro ⟨span, receiver, key, optional, rfl, hkey, haccepted⟩
    obtain ⟨index, hindex⟩ := (exists_index_iff file.source key).mpr hkey
    exact ⟨_, checkAccess_index_iff.mpr ⟨haccepted, index, hindex, rfl⟩⟩

theorem reports_of_checkAccess {file : SourceFile} {place : List Nat} {e : Expr} {d : Diagnostic}
    (he : file.program.at? place = some (.expr e))
    (hd : checkAccess file.source file.types e = some d) : Reports file place d := by
  obtain ⟨span, receiver, key, optional, rfl⟩ := eq_index_of_checkAccess hd
  obtain ⟨-, index, hindex, rfl⟩ := checkAccess_index_iff.mp hd
  exact ⟨span, receiver, key, optional, index, he, hindex, describes_complaint ..⟩

/-- A visitor that judges accesses at some of the hooks reports exactly those at which these hooks
are called. -/
theorem exists_reportsExactly (file : SourceFile) (v : Visitor Diagnostic) (called : Bool → Bool)
    (hv : ∀ s, v.at s = if called s.isElement then
      (checkAccess file.source file.types s.expr).toList else []) :
    ∃ places, ReportsExactly file
      (fun place => Reportable file place ∧ called (file.program.isElement place) = true)
      places (file.program.visit v) := by
  obtain ⟨_, stops, hstops, hvisit⟩ := file.program.visit_eq
  let judge (s : Node.Stop) : Option Diagnostic :=
    if called s.isElement then checkAccess file.source file.types s.expr else none
  obtain ⟨places, hplaces⟩ := hstops.filterMap judge
  have hfound : file.program.visit v = stops.filterMap judge := by
    rw [hvisit, List.filterMap_eq_flatMap_toList]
    refine List.flatMap_congr fun s _ => ?_
    rw [hv]
    unfold judge
    split <;> rfl
  rw [← hfound] at hplaces
  refine ⟨places, hplaces.ascending, hplaces.outer_first, fun place => ?_, ?_⟩
  · rw [hplaces.mem_iff]
    constructor
    · rintro ⟨s, d, hs, hd⟩
      obtain ⟨he, helement⟩ := Script.Program.stop?_eq_some_iff.mp hs
      obtain ⟨hcalled, hd⟩ := Option.ite_none_right_eq_some.mp hd
      rw [← helement]
      exact ⟨⟨s.expr, he, exists_checkAccess_iff.mp ⟨d, hd⟩⟩, hcalled⟩
    · rintro ⟨⟨e, he, hrejected⟩, hcalled⟩
      obtain ⟨d, hd⟩ := exists_checkAccess_iff.mpr hrejected
      exact ⟨⟨file.program.isElement place, e⟩, d, Script.Program.stop?_eq_some_iff.mpr ⟨he, rfl⟩,
        Option.ite_none_right_eq_some.mpr ⟨hcalled, hd⟩⟩
  · refine hplaces.located.imp fun place d => ?_
    rintro ⟨s, hs, hd⟩
    have he := (Script.Program.stop?_eq_some_iff.mp hs).1
    exact reports_of_checkAccess he (Option.ite_none_right_eq_some.mp hd).2

/-- What stands in the object or in the key of an access that is written to is an expression. -/
theorem at?_of_index_target {p : Script.Program} {place : List Nat} {span : Span}
    {object key : Expr} (h : p.at? place = some (.target (.index span object key))) :
    p.at? (place ++ [0]) = some (.expr object) ∧ p.at? (place ++ [1]) = some (.expr key) :=
  ⟨Script.Program.at?_append h [0], Script.Program.at?_append h [1]⟩

theorem reportable_iff {file : SourceFile} {place : List Nat} {e : Expr}
    (h : file.program.at? place = some (.expr e)) : Reportable file place ↔ Rejected file e := by
  constructor
  · rintro ⟨e', he', hrejected⟩
    obtain rfl : e' = e := Node.expr.inj (Option.some.inj (he'.symm.trans h))
    exact hrejected
  · exact fun hrejected => ⟨e, h, hrejected⟩

/-- Every access whose key is an index and whose receiver is accepted is reported once, at its
place, and nothing else is; a node comes before the nodes inside it. The hook for expressions alone
reports those of them that do not stand directly in an optional chain, the hook for elements alone
reports the others, so that no access is met by both. What is written to is never reported, but of
an access that is written to the object and the key are judged like any other expression. And
wherever the parser has read as an expression what turns out to be written to, only those expressions
remain that stand in it. -/
theorem check_reports_exactly_once (file : SourceFile) :
    (∃ places, ReportsExactly file (Reportable file) places (check file)) ∧
    (∃ places, ReportsExactly file
      (fun place => Reportable file place ∧ file.program.isElement place = false) places
      (file.program.visit { visitor file.source file.types with element := fun _ => [] })) ∧
    (∃ places, ReportsExactly file
      (fun place => Reportable file place ∧ file.program.isElement place = true) places
      (file.program.visit { visitor file.source file.types with expression := fun _ => [] })) ∧
    (∀ place t, file.program.at? place = some (.target t) → ¬ Reportable file place) ∧
    (∀ place span object key, file.program.at? place = some (.target (.index span object key)) →
      (Reportable file (place ++ [0]) ↔ Rejected file object) ∧
      (Reportable file (place ++ [1]) ↔ Rejected file key)) ∧
    (∀ g, Script.Parser.ReadsTargets g) := by
  let both := visitor file.source file.types
  refine ⟨?_, ?_, ?_, fun place t ht => ?_, fun place span object key ht => ?_,
    Script.Parser.readsTargets⟩
  · obtain ⟨places, hplaces⟩ := exists_reportsExactly file both (fun _ => true) fun s => by
      simp [both, Visitor.at, visitor]
    simp only [and_true] at hplaces
    exact ⟨places, hplaces⟩
  · obtain ⟨places, hplaces⟩ :=
      exists_reportsExactly file { both with element := fun _ => [] } (!·) fun s => by
        cases hs : s.isElement <;> simp [both, Visitor.at, visitor, hs]
    simp only [Bool.not_eq_true'] at hplaces
    exact ⟨places, hplaces⟩
  · exact exists_reportsExactly file { both with expression := fun _ => [] } id fun s => by
      cases hs : s.isElement <;> simp [both, Visitor.at, visitor, hs]
  · rintro ⟨e, he, -⟩
    cases ht.symm.trans he
  · obtain ⟨hobject, hkey⟩ := at?_of_index_target ht
    exact ⟨reportable_iff hobject, reportable_iff hkey⟩

/-- In `ns[0][1] = os?.[2]` the access that is written to is not reported; its object and the last
element of the optional chain are. -/
example :
    ((SourceFile.read "a.ts" "ns[0][1] = os?.[2];" false).toOption.map fun file =>
      (check file).map (·.span)) = some [⟨0, 5⟩, ⟨11, 18⟩] := by
  decide +kernel

end ComponentLint.ArrayAccess
