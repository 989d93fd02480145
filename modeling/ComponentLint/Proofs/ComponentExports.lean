import ComponentLint.Rule.ComponentNames
import Mathlib.Data.List.Basic
import Mathlib.Data.List.Perm.Basic

/-!
# Whether a file exports its component

The two rules on names of components collect what the statements of a file export and look at it at
the end. Whether they complain depends only on the statements one by one: on whether some statement
provides the component. A complaint cites the first exported name that could be that of a component.
-/

namespace ComponentLint.ComponentNames

open Script (Binder Binding ExportItem ExportName Stmt)

/-- `Provides name s`: the statement `s` exports something as `name`, or something that is so named
inside the file. -/
inductive Provides (name : String) : Stmt → Prop where
  | defaultFunction {span place fn binder} (h : fn.binder = some binder)
      (hname : binder.name = name) : Provides name (.exportDefault span (.function place fn))
  | defaultName {span place nameSpan} :
      Provides name (.exportDefault span (.expression place (.name nameSpan name)))
  | function {span place fn binder} (h : fn.binder = some binder) (hname : binder.name = name) :
      Provides name (.exportDeclaration span (.function place fn))
  | declarator {span place reach bindings binding binder} (h : binding ∈ bindings)
      (hpattern : binding.pattern = .single binder) (hname : binder.name = name) :
      Provides name (.exportDeclaration span (.variables place reach bindings))
  | outside {span items item binder fromElsewhere} (h : item ∈ items)
      (hexported : item.exported = .plain binder) (hname : binder.name = name) :
      Provides name (.exportList span items fromElsewhere)
  | inside {span items item binder fromElsewhere} (h : item ∈ items)
      (hinside : item.inside = .plain binder) (hname : binder.name = name) :
      Provides name (.exportList span items fromElsewhere)

/-- The names that a statement exports, as they are inside the file: of functions and declarators,
of a default export that is a name, and of the items of a list unless they are written as
strings. -/
def exportedNames : Stmt → List String
  | .exportDefault _ (.function _ fn) | .exportDeclaration _ (.function _ fn) =>
    (fn.binder.map Binder.name).toList
  | .exportDefault _ (.expression _ (.name _ text)) => [text]
  | .exportDeclaration _ (.variables _ _ bindings) =>
    bindings.filterMap fun binding =>
      match binding.pattern with
      | .single binder => some binder.name
      | _ => none
  | .exportList _ items _ =>
    items.filterMap fun item =>
      match item.inside with
      | .plain binder => some binder.name
      | .quoted _ => none
  | _ => []

/-- A name can be that of a component: it begins with a capital letter of the basic alphabet. -/
def Capital (name : String) : Prop := ∃ c rest, name.toList = c :: rest ∧ 'A' ≤ c ∧ c ≤ 'Z'

/-- What a finding says about a file that exports `names` and not the required component. -/
inductive Complains (r : Requirement) (names : List String) (d : Diagnostic) : Prop where
  /-- The first name that can be that of a component is cited. -/
  | incorrect {before name after} (hnames : names = before ++ name :: after)
      (hbefore : ∀ n ∈ before, ¬ Capital n) (hname : Capital name)
      (hid : d.messageId = "incorrectName") (hdata : d.data = [("name", name)])
      (hmessage : d.message = r.file ++ " must export a component named '" ++ r.component ++
        "' (found '" ++ name ++ "')")
  /-- There is no such name. -/
  | missing (hnames : ∀ n ∈ names, ¬ Capital n) (hid : d.messageId = "missingExport")
      (hdata : d.data = [])
      (hmessage : d.message = r.file ++ " must export a component named '" ++ r.component ++ "'")

theorem isCapitalized_iff {name : String} :
    Naming.isCapitalized name.toList = true ↔ Capital name := by
  have hupper : ∀ c : Char, c.isUpper = true ↔ 'A' ≤ c ∧ c ≤ 'Z' := fun _ => decide_eq_true_iff
  unfold Naming.isCapitalized Capital
  cases name.toList with
  | nil => simp
  | cons c rest => simp [hupper]

/-! ## One statement -/

theorem satisfies_name_iff {r : Requirement} {text : String} :
    satisfies r (.name text) = true ↔ text = r.component :=
  beq_iff_eq

theorem exportsRequired_iff {r : Requirement} {item : ExportItem} :
    item.exported.plain?.map (·.name) = some r.component ↔
      ∃ binder, item.exported = .plain binder ∧ binder.name = r.component := by
  simp only [Option.map_eq_some_iff, ExportName.plain?_eq_some_iff]

/-- An item is the required component if one of its names is the required one. -/
theorem satisfies_itemExport_iff {r : Requirement} {item : ExportItem} :
    (∃ e, itemExport r item = some e ∧ satisfies r e = true) ↔
      (∃ binder, item.exported = .plain binder ∧ binder.name = r.component) ∨
        ∃ binder, item.inside = .plain binder ∧ binder.name = r.component := by
  unfold itemExport
  by_cases hexported : item.exported.plain?.map (·.name) = some r.component
  · rw [if_pos hexported]
    exact ⟨fun _ => Or.inl (exportsRequired_iff.mp hexported), fun _ => ⟨.required, rfl, rfl⟩⟩
  · rw [if_neg hexported]
    constructor
    · rintro ⟨e, he, hsat⟩
      obtain ⟨binder, hbinder, rfl⟩ := Option.map_eq_some_iff.mp he
      exact Or.inr ⟨binder, ExportName.plain?_eq_some_iff.mp hbinder, satisfies_name_iff.mp hsat⟩
    · rintro (hrequired | ⟨binder, hinside, hname⟩)
      · exact absurd (exportsRequired_iff.mpr hrequired) hexported
      · exact ⟨.name binder.name, by rw [ExportName.plain?_eq_some_iff.mpr hinside]; rfl,
          satisfies_name_iff.mpr hname⟩

/-- A statement provides a component exactly if it is one of what the statement exports. -/
theorem any_satisfies_iff {r : Requirement} {s : Stmt} :
    (exports r s).any (satisfies r) = true ↔ Provides r.component s := by
  rw [List.any_eq_true]
  constructor
  · rintro ⟨e, he, hsat⟩
    unfold exports at he
    split at he
    · next span place fn =>
      obtain ⟨binder, hbinder, rfl⟩ := List.mem_map.mp he
      exact .defaultFunction (Option.mem_toList.mp hbinder) (satisfies_name_iff.mp hsat)
    · next span place nameSpan text =>
      obtain rfl := List.mem_singleton.mp he
      obtain rfl := satisfies_name_iff.mp hsat
      exact .defaultName
    · next span place fn =>
      obtain ⟨binder, hbinder, rfl⟩ := List.mem_map.mp he
      exact .function (Option.mem_toList.mp hbinder) (satisfies_name_iff.mp hsat)
    · next span place reach bindings =>
      obtain ⟨binder, hbinder, rfl⟩ := List.mem_map.mp he
      obtain ⟨binding, hbinding, hsingle⟩ := List.mem_filterMap.mp hbinder
      exact .declarator hbinding (Binding.single?_eq_some_iff.mp hsingle)
        (satisfies_name_iff.mp hsat)
    · next span items fromElsewhere =>
      obtain ⟨item, hitem, hexport⟩ := List.mem_filterMap.mp he
      rcases satisfies_itemExport_iff.mp ⟨e, hexport, hsat⟩ with
        ⟨binder, hexported, hname⟩ | ⟨binder, hinside, hname⟩
      · exact .outside hitem hexported hname
      · exact .inside hitem hinside hname
    · cases he
  · intro h
    cases h with
    | defaultFunction hbinder hname | function hbinder hname =>
      exact ⟨_, List.mem_map.mpr ⟨_, Option.mem_toList.mpr hbinder, rfl⟩,
        satisfies_name_iff.mpr hname⟩
    | defaultName => exact ⟨_, List.mem_singleton.mpr rfl, satisfies_name_iff.mpr rfl⟩
    | declarator hbinding hpattern hname =>
      exact ⟨_, List.mem_map.mpr ⟨_, List.mem_filterMap.mpr
        ⟨_, hbinding, Binding.single?_eq_some_iff.mpr hpattern⟩, rfl⟩, satisfies_name_iff.mpr hname⟩
    | outside hitem hexported hname =>
      obtain ⟨e, he, hsat⟩ := satisfies_itemExport_iff.mpr (Or.inl ⟨_, hexported, hname⟩)
      exact ⟨e, List.mem_filterMap.mpr ⟨_, hitem, he⟩, hsat⟩
    | inside hitem hinside hname =>
      obtain ⟨e, he, hsat⟩ := satisfies_itemExport_iff.mpr (Or.inr ⟨_, hinside, hname⟩)
      exact ⟨e, List.mem_filterMap.mpr ⟨_, hitem, he⟩, hsat⟩

/-- A statement that does not provide the component exports its names and nothing else. -/
theorem exports_of_not_provides {r : Requirement} {s : Stmt} (h : ¬ Provides r.component s) :
    exports r s = (exportedNames s).map .name := by
  fun_cases exportedNames s with
  | case1 span place fn =>
    cases hfn : fn.binder with
    | none => simp [exports, hfn]
    | some binder => simp [exports, hfn]
  | case2 span place fn =>
    cases hfn : fn.binder with
    | none => simp [exports, hfn]
    | some binder => simp [exports, hfn]
  | case3 span place nameSpan text => rfl
  | case4 span place reach bindings =>
    rw [exports, List.map_filterMap, List.map_filterMap]
    refine List.filterMap_congr fun binding _ => ?_
    unfold Binding.single?
    cases binding.pattern with
    | single binder => rfl
    | destructured binders => rfl
    | rest binders => rfl
  | case5 span items fromElsewhere =>
    rw [exports, List.map_filterMap]
    refine List.filterMap_congr fun item hitem => ?_
    have hexported : ¬ item.exported.plain?.map (·.name) = some r.component := by
      intro hrequired
      obtain ⟨binder, hexported, hname⟩ := exportsRequired_iff.mp hrequired
      exact h (.outside hitem hexported hname)
    rw [itemExport, if_neg hexported]
    cases item.inside with
    | plain binder => rfl
    | quoted text => rfl
  | case6 => simp_all [exports]

/-! ## The complaint -/

theorem findSome?_candidate (names : List String) :
    (names.map Exported.name).findSome? candidate? =
      names.find? fun n => Naming.isCapitalized n.toList := by
  rw [List.findSome?_map, List.find?_eq_findSome?_guard]
  rfl

theorem message_incorrectName (r : Requirement) (name : String) :
    String.ofList ((incorrectName r).fill [("name", name)]) =
      r.file ++ " must export a component named '" ++ r.component ++ "' (found '" ++ name ++
        "')" := by
  have hkey : Text.trim "name".toList = "name".toList := by decide
  have hname : Template.fillPiece [("name", name)] (.hole "name".toList) = name.toList := by
    rw [Template.fillPiece, hkey]
    simp [TemplateData.value?]
  rw [← String.toList_inj, incorrectName, Template.fill]
  simp only [Template.ofParts, List.flatMap_cons, hname]
  simp [Template.fillPiece]

theorem message_missingExport (r : Requirement) :
    String.ofList ((missingExport r).fill []) =
      r.file ++ " must export a component named '" ++ r.component ++ "'" := by
  rw [← String.toList_inj, missingExport, Template.fill]
  simp [Template.ofParts, Template.fillPiece]

/-- The complaint says what is to be said about the exported names. -/
theorem complains_complaint (r : Requirement) (names : List String) :
    Complains r names (complaint r (names.map .name)) := by
  unfold complaint
  rw [findSome?_candidate]
  cases hfind : names.find? fun n => Naming.isCapitalized n.toList with
  | some name =>
    obtain ⟨hname, before, after, hnames, hbefore⟩ := List.find?_eq_some_iff_append.mp hfind
    refine .incorrect hnames (fun n hn hcapital => ?_) (isCapitalized_iff.mp hname) rfl rfl
      (message_incorrectName r name)
    have hnot := hbefore n hn
    rw [isCapitalized_iff.mpr hcapital] at hnot
    cases hnot
  | none =>
    refine .missing (fun n hn hcapital => ?_) rfl rfl (message_missingExport r)
    exact List.find?_eq_none.mp hfind n hn (isCapitalized_iff.mpr hcapital)

/-- Which message is given does not depend on the order of the exported names. -/
theorem Complains.messageId_eq {r : Requirement} {names names' : List String} {d d' : Diagnostic}
    (h : Complains r names d) (h' : Complains r names' d') (hperm : names.Perm names') :
    d.messageId = d'.messageId := by
  cases h with
  | incorrect hnames _ hname hid =>
    cases h' with
    | incorrect _ _ _ hid' => rw [hid, hid']
    | missing hnone =>
      subst hnames
      exact absurd hname (hnone _ (hperm.mem_iff.mp (by simp)))
  | missing hnone hid =>
    cases h' with
    | incorrect hnames' _ hname' =>
      subst hnames'
      exact absurd hname' (hnone _ (hperm.mem_iff.mpr (by simp)))
    | missing _ hid' => rw [hid, hid']

/-! ## A file -/

theorem any_isNamed_iff {files : List String} {file : SourceFile} :
    files.any file.isNamed = true ↔ ∃ name ∈ files, Path.fileName? file.path = some name := by
  simp only [List.any_eq_true, SourceFile.isNamed, beq_iff_eq]

theorem check_of_not_named {r : Requirement} {files : List String} {file : SourceFile}
    (h : ¬ ∃ name ∈ files, Path.fileName? file.path = some name) : check r files file = [] := by
  rw [check, if_neg (any_isNamed_iff.not.mpr h)]

theorem check_of_provides {r : Requirement} {files : List String} {file : SourceFile}
    (h : ∃ s ∈ file.program.body, Provides r.component s) : check r files file = [] := by
  have hfound : (file.program.body.flatMap (exports r)).any (satisfies r) = true := by
    rw [List.any_flatMap, List.any_eq_true]
    obtain ⟨s, hs, hprovides⟩ := h
    exact ⟨s, hs, any_satisfies_iff.mpr hprovides⟩
  simp only [check, hfound, if_true, ite_self]

/-- If no statement provides the component, the complaint is about the names that the statements
export. -/
theorem check_of_not_provides {r : Requirement} {files : List String} {file : SourceFile}
    (hnamed : ∃ name ∈ files, Path.fileName? file.path = some name)
    (h : ¬ ∃ s ∈ file.program.body, Provides r.component s) :
    check r files file = [complaint r ((file.program.body.flatMap exportedNames).map .name)] := by
  have hfound : ¬ (file.program.body.flatMap (exports r)).any (satisfies r) = true := by
    rw [List.any_flatMap, List.any_eq_true]
    rintro ⟨s, hs, hsat⟩
    exact h ⟨s, hs, any_satisfies_iff.mp hsat⟩
  have hnames : file.program.body.flatMap (exports r) =
      (file.program.body.flatMap exportedNames).map .name := by
    rw [List.map_flatMap]
    exact List.flatMap_congr fun s hs =>
      exports_of_not_provides fun hprovides => h ⟨s, hs, hprovides⟩
  rw [check, if_pos (any_isNamed_iff.mpr hnamed)]
  simp only [if_neg hfound]
  rw [hnames]

/-- The order of the statements decides neither whether there is a finding nor which message it
gives. -/
theorem messageIds_of_perm (r : Requirement) (files : List String) {file file' : SourceFile}
    (hpath : file'.path = file.path) (hperm : file'.program.body.Perm file.program.body) :
    (check r files file').map (·.messageId) = (check r files file).map (·.messageId) := by
  by_cases hnamed : ∃ name ∈ files, Path.fileName? file.path = some name
  · have hnamed' : ∃ name ∈ files, Path.fileName? file'.path = some name := by rwa [hpath]
    have hsame : (∃ s ∈ file'.program.body, Provides r.component s) ↔
        ∃ s ∈ file.program.body, Provides r.component s := by
      simp only [hperm.mem_iff]
    by_cases hprovides : ∃ s ∈ file.program.body, Provides r.component s
    · rw [check_of_provides hprovides, check_of_provides (hsame.mpr hprovides)]
    · rw [check_of_not_provides hnamed hprovides,
        check_of_not_provides hnamed' (hsame.not.mpr hprovides),
        List.map_singleton, List.map_singleton,
        (complains_complaint r _).messageId_eq (complains_complaint r _)
          (hperm.flatMap_right exportedNames)]
  · have hnamed' : ¬ ∃ name ∈ files, Path.fileName? file'.path = some name := by rwa [hpath]
    rw [check_of_not_named hnamed, check_of_not_named hnamed']

/-- In a file with one of the given names there is no finding exactly if some statement provides the
component. Otherwise there is one, at the beginning of the file, that cites the first exported name
that can be that of a component. Other files are left alone. The order of the statements decides
neither whether there is a finding nor which message it gives. -/
theorem check_requires_component (r : Requirement) (files : List String) (file : SourceFile) :
    ((¬ ∃ name ∈ files, Path.fileName? file.path = some name) → check r files file = []) ∧
    ((∃ name ∈ files, Path.fileName? file.path = some name) →
      (check r files file = [] ↔ ∃ s ∈ file.program.body, Provides r.component s) ∧
      ((∀ s ∈ file.program.body, ¬ Provides r.component s) →
        ∃ d, check r files file = [d] ∧ d.span = ⟨0, 0⟩ ∧
          Complains r (file.program.body.flatMap exportedNames) d)) ∧
    ∀ body, body.Perm file.program.body →
      (check r files { file with program.body := body }).map (·.messageId) =
        (check r files file).map (·.messageId) := by
  refine ⟨check_of_not_named, fun hnamed => ⟨⟨fun hnil => ?_, check_of_provides⟩, fun hnone => ?_⟩,
    fun body hperm => messageIds_of_perm r files rfl hperm⟩
  · by_contra hprovides
    rw [check_of_not_provides hnamed hprovides] at hnil
    cases hnil
  · have hprovides : ¬ ∃ s ∈ file.program.body, Provides r.component s := by
      rintro ⟨s, hs, h⟩
      exact hnone s hs h
    refine ⟨_, check_of_not_provides hnamed hprovides, ?_, complains_complaint r _⟩
    unfold complaint
    split
    · rfl
    · rfl

end ComponentLint.ComponentNames
