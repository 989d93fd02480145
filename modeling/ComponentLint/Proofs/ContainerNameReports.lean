import ComponentLint.Proofs.Located
import ComponentLint.Proofs.StyleModules
import ComponentLint.Rule.ContainerNames
import Mathlib.Data.Prod.Basic

/-!
# Which names of exports are reported

An exported name is judged in one of two ways: as that of a container, which has to end in
`Container`, or as any other, which may not. Every advice is good: the suggested name is another one
(`Advises.ne`), and it is not at fault (`Advises.not_misnamed`).

What makes a container is the factory under the local name of its first import
(`factory?_eq_some_iff`). A second import of the factory under another name is not seen, and what it
makes is judged like any other export.
-/

namespace ComponentLint.ContainerNames

open Script (Binder Binding ImportItem Program Stmt)

/-- A name is at fault: that of a container without its end, another one with a banned end or banned
as a whole. -/
def Misnamed : Bool → String → Prop
  | true, name => ¬ "Container".toList <:+ name.toList
  | false, name =>
    name = "container" ∨ name = "wrapper" ∨ "Container".toList <:+ name.toList ∨
      "Wrapper".toList <:+ name.toList

/-- `Advises isContainer name id suggestion`: about the name the message `id` is given, and another
name is suggested. -/
inductive Advises : Bool → String → String → String → Prop where
  | swap (stem : String) :
      Advises true (stem ++ "Root") "requireContainerSuffix" (stem ++ "Container")
  | extend {name : String} (hend : ¬ "Container".toList <:+ name.toList)
      (hroot : ¬ "Root".toList <:+ name.toList) :
      Advises true name "requireContainerSuffix" (name ++ "Container")
  | whole {name : String} (h : name = "container" ∨ name = "wrapper") :
      Advises false name "bannedExactName" "root"
  | container (stem : String) : Advises false (stem ++ "Container") "bannedPattern" (stem ++ "Root")
  | wrapper (stem : String) : Advises false (stem ++ "Wrapper") "bannedPattern" (stem ++ "Root")

/-! ## Ends of names -/

theorem suffix_append (stem back : String) : back.toList <:+ (stem ++ back).toList := by
  rw [String.toList_append]
  exact List.suffix_append _ _

/-- A name has no two ends of which none is an end of the other. -/
theorem not_suffix_append {stem back other : String} (h : ¬ other.toList <:+ back.toList)
    (h' : ¬ back.toList <:+ other.toList) : ¬ other.toList <:+ (stem ++ back).toList := by
  intro hother
  rcases List.suffix_or_suffix_of_suffix hother (suffix_append stem back) with hin | hin
  · exact h hin
  · exact h' hin

theorem replaceEnd?_eq_some_iff {name suffix replacement : String} {s : List Char} :
    Naming.replaceEnd? name.toList suffix.toList replacement.toList = some s ↔
      ∃ stem, name = stem ++ suffix ∧ s = (stem ++ replacement).toList := by
  unfold Naming.replaceEnd?
  rw [Option.map_eq_some_iff]
  constructor
  · rintro ⟨stem, hstem, rfl⟩
    refine ⟨String.ofList stem, ?_, ?_⟩
    · rw [← String.toList_inj, Text.dropBack?_eq_some_iff.mp hstem]
      simp
    · simp
  · rintro ⟨stem, rfl, rfl⟩
    refine ⟨stem.toList, Text.dropBack?_eq_some_iff.mpr ?_, ?_⟩
    · simp
    · simp

theorem replaceEnd?_eq_none_iff {name suffix replacement : String} :
    Naming.replaceEnd? name.toList suffix.toList replacement.toList = none ↔
      ¬ suffix.toList <:+ name.toList := by
  unfold Naming.replaceEnd?
  rw [Option.map_eq_none_iff, Text.dropBack?_eq_none_iff]

/-! ## Advice -/

theorem Advises.misnamed {isContainer : Bool} {name id suggestion : String}
    (h : Advises isContainer name id suggestion) : Misnamed isContainer name := by
  cases h with
  | swap stem => exact not_suffix_append (by decide) (by decide)
  | extend hend _ => exact hend
  | whole h => exact h.elim Or.inl fun h => Or.inr (Or.inl h)
  | container stem => exact Or.inr (Or.inr (Or.inl (suffix_append stem _)))
  | wrapper stem => exact Or.inr (Or.inr (Or.inr (suffix_append stem _)))

theorem Advises.id_of_container {name id suggestion : String} (h : Advises true name id suggestion) :
    id = "requireContainerSuffix" := by
  cases h with
  | swap stem => rfl
  | extend _ _ => rfl

/-- Who follows the advice is not advised again. -/
theorem Advises.not_misnamed {isContainer : Bool} {name id suggestion : String}
    (h : Advises isContainer name id suggestion) : ¬ Misnamed isContainer suggestion := by
  have hroot : ∀ stem : String, ¬ Misnamed false (stem ++ "Root") := by
    intro stem hfault
    have hend : "Root".toList <:+ (stem ++ "Root").toList := suffix_append stem "Root"
    rcases hfault with hname | hname | hcontainer | hwrapper
    · rw [hname] at hend
      exact absurd hend (by decide)
    · rw [hname] at hend
      exact absurd hend (by decide)
    · exact not_suffix_append (by decide) (by decide) hcontainer
    · exact not_suffix_append (by decide) (by decide) hwrapper
  cases h with
  | swap stem => exact fun hfault => hfault (suffix_append stem _)
  | extend _ _ => exact fun hfault => hfault (suffix_append name _)
  | whole _ =>
    unfold Misnamed
    decide
  | container stem => exact hroot stem
  | wrapper stem => exact hroot stem

theorem Advises.ne {isContainer : Bool} {name id suggestion : String}
    (h : Advises isContainer name id suggestion) : suggestion ≠ name := by
  rintro rfl
  exact h.not_misnamed h.misnamed

/-- A finding at a span gives advice about a name: it holds the name and what is suggested. -/
structure Gives (isContainer : Bool) (name : String) (span : Span) (d : Diagnostic) : Prop where
  span_eq : d.span = span
  name_eq : d.data.value? "name".toList = some name.toList
  suggests : ∃ suggestion, d.data.value? "suggestion".toList = some suggestion.toList ∧
    Advises isContainer name d.messageId suggestion

theorem gives_of_data {isContainer : Bool} {name suggestion : String} {span : Span}
    {d : Diagnostic} (hspan : d.span = span) (h : Advises isContainer name d.messageId suggestion)
    (hdata : d.data = [("name", name), ("suggestion", suggestion)] ∨
      ∃ banned, d.data = [("name", name), ("pattern", banned), ("suggestion", suggestion)]) :
    Gives isContainer name span d := by
  refine ⟨hspan, ?_, suggestion, ?_, h⟩
  · rcases hdata with hdata | ⟨banned, hdata⟩
    · simp [hdata]
    · simp [hdata]
  · rcases hdata with hdata | ⟨banned, hdata⟩
    · simp [hdata]
    · simp [hdata]

theorem advises_containerName {name : String} (hend : ¬ "Container".toList <:+ name.toList) :
    Advises true name "requireContainerSuffix" (containerName name) := by
  unfold containerName
  cases hswap : Naming.replaceEnd? name.toList rootEnd.toList containerEnd.toList with
  | none =>
    have hroot : ¬ "Root".toList <:+ name.toList := replaceEnd?_eq_none_iff.mp hswap
    have hname : String.ofList (name.toList ++ containerEnd.toList) = name ++ "Container" := by
      rw [← String.toList_inj, String.toList_ofList, String.toList_append]
      rfl
    rw [Option.getD_none, hname]
    exact .extend hend hroot
  | some swapped =>
    obtain ⟨stem, rfl, rfl⟩ := replaceEnd?_eq_some_iff.mp hswap
    rw [Option.getD_some, String.ofList_toList]
    exact .swap stem

theorem gives_of_checkContainer {name : String} {span : Span} {d : Diagnostic}
    (h : checkContainer name span = some d) : Gives true name span d := by
  unfold checkContainer at h
  split_ifs at h with hend
  have hlacks : ¬ "Container".toList <:+ name.toList := fun hin => hend (Text.endsWith_iff.mpr hin)
  obtain rfl := Option.some.inj h
  exact gives_of_data rfl (advises_containerName hlacks) (Or.inl rfl)

theorem gives_of_checkEnd {name : String} {span : Span} {banned : String} {d : Diagnostic}
    (hbanned : banned = "Container" ∨ banned = "Wrapper") (h : checkEnd name span banned = some d) :
    Gives false name span d := by
  obtain ⟨root, hroot, rfl⟩ := Option.map_eq_some_iff.mp h
  obtain ⟨stem, rfl, rfl⟩ := replaceEnd?_eq_some_iff.mp hroot
  have hadvises : Advises false (stem ++ banned) "bannedPattern" (stem ++ "Root") := by
    rcases hbanned with rfl | rfl
    · exact .container stem
    · exact .wrapper stem
  rw [String.ofList_toList]
  exact gives_of_data rfl hadvises (Or.inr ⟨banned, rfl⟩)

theorem bannedNames_contains_iff {name : String} :
    bannedNames.contains name = true ↔ name = "container" ∨ name = "wrapper" := by
  rw [List.contains_iff_mem]
  exact List.mem_pair

theorem gives_of_checkName {name : String} {span : Span} {isContainer : Bool} {d : Diagnostic}
    (h : checkName name span isContainer = some d) : Gives isContainer name span d := by
  unfold checkName at h
  cases isContainer with
  | true => exact gives_of_checkContainer h
  | false =>
    rw [if_neg Bool.false_ne_true] at h
    split_ifs at h with hwhole
    · obtain rfl := Option.some.inj h
      exact gives_of_data rfl (.whole (bannedNames_contains_iff.mp hwhole)) (Or.inl rfl)
    · obtain ⟨banned, hmem, hd⟩ := List.exists_of_findSome?_eq_some h
      exact gives_of_checkEnd (List.mem_pair.mp hmem) hd

/-- A name is reported exactly if it is at fault. -/
theorem exists_checkName_iff {name : String} {span : Span} {isContainer : Bool} :
    (∃ d, checkName name span isContainer = some d) ↔ Misnamed isContainer name := by
  constructor
  · rintro ⟨d, hd⟩
    obtain ⟨suggestion, -, hadvises⟩ := (gives_of_checkName hd).suggests
    exact hadvises.misnamed
  · intro hfault
    rw [← Option.ne_none_iff_exists']
    intro hnone
    unfold checkName at hnone
    cases isContainer with
    | true =>
      rw [if_pos rfl, checkContainer] at hnone
      split_ifs at hnone with hend
      exact hfault (Text.endsWith_iff.mp hend)
    | false =>
      rw [if_neg Bool.false_ne_true] at hnone
      split_ifs at hnone with hwhole
      have hends : ∀ banned ∈ bannedEnds, ¬ banned.toList <:+ name.toList := by
        intro banned hbanned
        have hcheck := List.findSome?_eq_none_iff.mp hnone banned hbanned
        exact replaceEnd?_eq_none_iff.mp (Option.map_eq_none_iff.mp hcheck)
      rcases hfault with hname | hname | hcontainer | hwrapper
      · exact hwhole (bannedNames_contains_iff.mpr (Or.inl hname))
      · exact hwhole (bannedNames_contains_iff.mpr (Or.inr hname))
      · exact hends "Container" (by decide) hcontainer
      · exact hends "Wrapper" (by decide) hwrapper

/-- A name is reported exactly if it is at fault. Then another name is suggested, and about that one
nothing is said in the same mode. -/
theorem checkName_suggestion_accepted (name : String) (span : Span) (isContainer : Bool) :
    ((∃ d, checkName name span isContainer = some d) ↔ Misnamed isContainer name) ∧
    ∀ d, checkName name span isContainer = some d → ∃ suggestion,
      d.data.value? "suggestion".toList = some suggestion.toList ∧ suggestion ≠ name ∧
        ∀ place, checkName suggestion place isContainer = none := by
  refine ⟨exists_checkName_iff, fun d hd => ?_⟩
  obtain ⟨suggestion, hdata, hadvises⟩ := (gives_of_checkName hd).suggests
  refine ⟨suggestion, hdata, hadvises.ne, fun place => ?_⟩
  rw [Option.eq_none_iff_forall_ne_some]
  intro d' hd'
  exact hadvises.not_misnamed (exists_checkName_iff.mp ⟨d', hd'⟩)

/-! ## The factory of containers -/

/-- `ImportsFactory program (i, j) name`: the item `j` of the import `i` gives the factory of
containers the local name `name`. -/
inductive ImportsFactory (program : Program) : Nat × Nat → String → Prop where
  | intro {i j span items binder typeOnly}
      (hs : program.body[i]? = some (.importFrom span "@vanilla-extract/css" (some items)))
      (hitem : items[j]? = some (.named (some "createContainer") binder typeOnly)) :
      ImportsFactory program (i, j) binder.name

/-- The factory of containers is imported under a name before it is under any other. -/
def FirstNamesFactory (program : Program) (name : String) : Prop :=
  ∃ place, ImportsFactory program place name ∧
    ∀ other name', ImportsFactory program other name' →
      place = other ∨ Prod.Lex (· < ·) (· < ·) place other

/-- A declarator is taken for a container: its value is a call of the first name of the factory. -/
def IsContainer (program : Program) (binding : Binding) : Prop :=
  ∃ name, FirstNamesFactory program name ∧ binding.MadeBy name

/-- `ExportsName program (i, j) binding b`: the declarator `j` of the statement `i` is exported in
place and binds the one name `b`. -/
inductive ExportsName (program : Program) : Nat × Nat → Binding → Binder → Prop where
  | intro {i j span place reach bindings binding b}
      (hs : program.body[i]? = some (.exportDeclaration span (.variables place reach bindings)))
      (hbinding : bindings[j]? = some binding) (hpattern : binding.pattern = .single b) :
      ExportsName program (i, j) binding b

/-- The items that a statement imports from the library of styles. -/
def libraryItems : Stmt → List ImportItem
  | .importFrom _ source items => if source = styleLibrary then items.getD [] else []
  | _ => []

/-- The local name of an item that is the factory of containers. -/
def factoryName? : ImportItem → Option String
  | .named imported binder _ => if imported == some containerFactory then some binder.name else none
  | _ => none

theorem factoryName?_eq_some_iff {item : ImportItem} {name : String} :
    factoryName? item = some name ↔ ∃ binder typeOnly,
      item = .named (some "createContainer") binder typeOnly ∧ binder.name = name := by
  constructor
  · intro h
    unfold factoryName? at h
    split at h
    · next imported binder typeOnly =>
      split_ifs at h with himported
      obtain rfl : imported = some "createContainer" := beq_iff_eq.mp himported
      exact ⟨binder, typeOnly, rfl, Option.some.inj h⟩
    · cases h
  · rintro ⟨binder, typeOnly, rfl, rfl⟩
    rfl

/-- The factory has the first of the local names that it is imported under. -/
theorem factory?_eq_head? (program : Program) :
    factory? program = ((program.body.flatMap libraryItems).filterMap factoryName?).head? := by
  rw [List.filterMap_flatMap, List.head?_flatMap, factory?]
  congr 1
  funext s
  rw [List.head?_filterMap]
  cases s with
  | importFrom span source items =>
    rw [importedFactory?, libraryItems]
    split_ifs with hsource
    · rfl
    · rfl
  | _ => rfl

theorem factoryAt?_eq_some_iff {program : Program} {place : Nat × Nat} {name : String} :
    (((program.body[place.1]?).bind fun s => (libraryItems s)[place.2]?).bind factoryName?) =
      some name ↔ ImportsFactory program place name := by
  obtain ⟨i, j⟩ := place
  constructor
  · intro h
    obtain ⟨item, hitem, hname⟩ := Option.bind_eq_some_iff.mp h
    obtain ⟨s, hs, hitem⟩ := Option.bind_eq_some_iff.mp hitem
    obtain ⟨binder, typeOnly, rfl, rfl⟩ := factoryName?_eq_some_iff.mp hname
    unfold libraryItems at hitem
    split at hitem
    · next span source items =>
      split_ifs at hitem with hsource
      · subst hsource
        cases items with
        | none => cases hitem
        | some items => exact .intro hs hitem
      · cases hitem
    · cases hitem
  · intro h
    cases h with
    | @intro _ _ span items binder typeOnly hs hitem =>
      have hfound : (libraryItems (.importFrom span "@vanilla-extract/css" (some items)))[j]? =
          some (.named (some "createContainer") binder typeOnly) := hitem
      rw [hs, Option.bind_some, hfound]
      rfl

/-- The names of the factory are found where it is imported. -/
theorem located_factoryNames (program : Program) :
    ∃ entries, Located (Prod.Lex (fun i i' : Nat => i < i') fun j j' : Nat => j < j')
      (fun place => ((program.body[place.1]?).bind fun s =>
        (libraryItems s)[place.2]?).bind factoryName?) entries
      ((program.body.flatMap libraryItems).filterMap factoryName?) := by
  obtain ⟨items, hitems⟩ := Located.getElem?_flatMap program.body libraryItems
  exact hitems.filterMap factoryName?

/-- The factory is called by its first name. -/
theorem factory?_eq_some_iff {program : Program} {name : String} :
    factory? program = some name ↔ FirstNamesFactory program name := by
  obtain ⟨entries, hentries⟩ := located_factoryNames program
  rw [factory?_eq_head?, hentries.head?_eq_some_iff fun _ _ => asymm]
  simp only [factoryAt?_eq_some_iff]
  rfl

/-- If the factory is imported under one name only, that is its first name. -/
theorem firstNamesFactory_of_only {program : Program} {place : Nat × Nat} {name : String}
    (h : ImportsFactory program place name)
    (honly : ∀ other name', ImportsFactory program other name' → name' = name) :
    FirstNamesFactory program name := by
  obtain ⟨entries, hentries⟩ := located_factoryNames program
  have hmem := hentries.mem (factoryAt?_eq_some_iff.mpr h)
  cases hfactory : factory? program with
  | none =>
    rw [factory?_eq_head?, List.head?_eq_none_iff] at hfactory
    exact absurd hmem (hfactory ▸ List.not_mem_nil)
  | some first =>
    have hfirst := factory?_eq_some_iff.mp hfactory
    obtain ⟨other, hother, -⟩ := hfirst
    rw [← honly other first hother]
    exact factory?_eq_some_iff.mp hfactory

/-! ## All exports -/

theorem isContainer_iff {program : Program} {binding : Binding} :
    ((factory? program).any fun name => binding.initializedBy name) = true ↔
      IsContainer program binding := by
  rw [Option.any_eq_true]
  refine exists_congr fun name => ?_
  rw [factory?_eq_some_iff, Binding.initializedBy_iff]

theorem exportsName_iff {program : Program} {place : Nat × Nat} {binding : Binding} {b : Binder} :
    (((program.body[place.1]?).bind fun s => s.exportedVariables[place.2]?) = some binding ∧
        binding.single? = some b) ↔ ExportsName program place binding b := by
  obtain ⟨i, j⟩ := place
  constructor
  · rintro ⟨h, hsingle⟩
    obtain ⟨s, hs, hbinding⟩ := Option.bind_eq_some_iff.mp h
    have hpattern := Binding.single?_eq_some_iff.mp hsingle
    unfold Stmt.exportedVariables at hbinding
    split at hbinding
    · exact .intro hs hbinding hpattern
    · cases hbinding
  · rintro ⟨hs, hbinding, hpattern⟩
    refine ⟨?_, Binding.single?_eq_some_iff.mpr hpattern⟩
    rw [hs, Option.bind_some]
    exact hbinding

theorem ExportsName.unique {program : Program} {place : Nat × Nat} {binding binding' : Binding}
    {b b' : Binder} (h : ExportsName program place binding b)
    (h' : ExportsName program place binding' b') : binding = binding' ∧ b = b' := by
  obtain ⟨hbinding, hb⟩ := exportsName_iff.mpr h
  obtain ⟨hbinding', hb'⟩ := exportsName_iff.mpr h'
  rw [hbinding] at hbinding'
  obtain rfl := Option.some.inj hbinding'
  rw [hb] at hb'
  exact ⟨rfl, Option.some.inj hb'⟩

/-- `Judged program place b isContainer`: the name `b` is exported at a place and judged as that of a
container or as any other. -/
def Judged (program : Program) (place : Nat × Nat) (b : Binder) (isContainer : Bool) : Prop :=
  ∃ binding, ExportsName program place binding b ∧
    (isContainer = true ↔ IsContainer program binding)

theorem Judged.unique {program : Program} {place : Nat × Nat} {b b' : Binder} {m m' : Bool}
    (h : Judged program place b m) (h' : Judged program place b' m') : b = b' ∧ m = m' := by
  obtain ⟨binding, hexports, hm⟩ := h
  obtain ⟨binding', hexports', hm'⟩ := h'
  obtain ⟨rfl, rfl⟩ := hexports.unique hexports'
  exact ⟨rfl, Bool.eq_iff_iff.mpr (hm.trans hm'.symm)⟩

/-- If the factory is imported under one name only, what it makes is judged as a container. -/
theorem judged_of_only {program : Program} {imported place : Nat × Nat} {name : String}
    {binding : Binding} {b : Binder} (himports : ImportsFactory program imported name)
    (honly : ∀ other name', ImportsFactory program other name' → name' = name)
    (hexports : ExportsName program place binding b) (hmade : binding.MadeBy name) :
    Judged program place b true := by
  have hfirst : FirstNamesFactory program name := firstNamesFactory_of_only himports honly
  exact ⟨binding, hexports, iff_of_true rfl ⟨name, hfirst, hmade⟩⟩

/-- The finding at a place is about the name that is judged there. -/
theorem checkAt?_eq_some_iff {program : Program} {place : Nat × Nat} {d : Diagnostic} :
    (((program.body[place.1]?).bind fun s => s.exportedVariables[place.2]?).bind
        (checkBinding (factory? program))) = some d ↔
      ∃ b isContainer, Judged program place b isContainer ∧
        checkName b.name b.span isContainer = some d := by
  unfold checkBinding
  constructor
  · intro h
    obtain ⟨binding, hbinding, hcheck⟩ := Option.bind_eq_some_iff.mp h
    obtain ⟨b, hb, hd⟩ := Option.bind_eq_some_iff.mp hcheck
    exact ⟨b, _, ⟨binding, exportsName_iff.mp ⟨hbinding, hb⟩, isContainer_iff⟩, hd⟩
  · rintro ⟨b, isContainer, ⟨binding, hexports, hmode⟩, hd⟩
    obtain ⟨hbinding, hb⟩ := exportsName_iff.mpr hexports
    have hsame : ((factory? program).any fun name => binding.initializedBy name) = isContainer :=
      Bool.eq_iff_iff.mpr (isContainer_iff.trans hmode.symm)
    rw [hbinding, Option.bind_some, hb, Option.bind_some, hsame]
    exact hd

theorem located_check {file : SourceFile} (hfile : ".css.ts".toList <:+ file.path.toList) :
    ∃ entries, Located (Prod.Lex (fun i i' : Nat => i < i') fun j j' : Nat => j < j')
      (fun place => ((file.program.body[place.1]?).bind fun s =>
        s.exportedVariables[place.2]?).bind (checkBinding (factory? file.program))) entries
      (check file) := by
  obtain ⟨bindings, hbindings⟩ :=
    Located.getElem?_flatMap file.program.body Stmt.exportedVariables
  rw [check, if_pos (SourceFile.isStyleModule_iff.mpr hfile)]
  exact hbindings.filterMap (checkBinding (factory? file.program))

/-- In a style module every exported name that is at fault is reported, once and with advice, and
nothing else is. A name is that of a container if its value is a call of the first local name of the
factory. So if the factory has one name only, however often it is imported, whatever it makes is
judged as a container. -/
theorem check_judges_exported_names (file : SourceFile) :
    (".css.ts".toList <:+ file.path.toList →
      ∃ places : List (Nat × Nat),
        places.Pairwise (Prod.Lex (· < ·) (· < ·)) ∧
        (∀ place, place ∈ places ↔ ∃ b isContainer,
          Judged file.program place b isContainer ∧ Misnamed isContainer b.name) ∧
        List.Forall₂ (fun place d => ∃ b isContainer,
          Judged file.program place b isContainer ∧ Gives isContainer b.name b.span d) places
          (check file) ∧
        ∀ imported name, ImportsFactory file.program imported name →
          (∀ other name', ImportsFactory file.program other name' → name' = name) →
          ∀ place binding b, ExportsName file.program place binding b → binding.MadeBy name →
            (¬ "Container".toList <:+ b.name.toList →
              ∃ d ∈ check file, d.span = b.span ∧ d.messageId = "requireContainerSuffix") ∧
            ("Container".toList <:+ b.name.toList → place ∉ places)) ∧
    (¬ ".css.ts".toList <:+ file.path.toList → check file = []) := by
  refine ⟨fun hfile => ?_, fun hfile => ?_⟩
  · obtain ⟨entries, hentries⟩ := located_check hfile
    have hmem : ∀ place, place ∈ entries.map (·.1) ↔ ∃ b isContainer,
        Judged file.program place b isContainer ∧ Misnamed isContainer b.name := by
      intro place
      rw [hentries.mem_positions_iff]
      simp only [checkAt?_eq_some_iff]
      constructor
      · rintro ⟨d, b, isContainer, hjudged, hd⟩
        exact ⟨b, isContainer, hjudged, exists_checkName_iff.mp ⟨d, hd⟩⟩
      · rintro ⟨b, isContainer, hjudged, hfault⟩
        obtain ⟨d, hd⟩ := exists_checkName_iff.mpr hfault
        exact ⟨d, b, isContainer, hjudged, hd⟩
    refine ⟨entries.map (·.1), List.pairwise_map.mpr hentries.ascending, hmem,
      hentries.forall₂.imp fun place d hd => ?_, ?_⟩
    · obtain ⟨b, isContainer, hjudged, hcheck⟩ := checkAt?_eq_some_iff.mp hd
      exact ⟨b, isContainer, hjudged, gives_of_checkName hcheck⟩
    · intro imported name himports honly place binding b hexports hmade
      have hjudged : Judged file.program place b true := judged_of_only himports honly hexports hmade
      refine ⟨fun hlacks => ?_, fun hend hplace => ?_⟩
      · have hfound : ∃ d, checkName b.name b.span true = some d := exists_checkName_iff.mpr hlacks
        obtain ⟨d, hd⟩ := hfound
        have hgives : Gives true b.name b.span d := gives_of_checkName hd
        obtain ⟨suggestion, -, hadvises⟩ := hgives.suggests
        have hmember : d ∈ check file :=
          hentries.mem (checkAt?_eq_some_iff.mpr ⟨b, true, hjudged, hd⟩)
        exact ⟨d, hmember, hgives.span_eq, hadvises.id_of_container⟩
      · obtain ⟨b', isContainer, hjudged', hfault⟩ := (hmem place).mp hplace
        obtain ⟨rfl, rfl⟩ := hjudged.unique hjudged'
        exact hfault hend
  · rw [check, if_neg fun hstyle => hfile (SourceFile.isStyleModule_iff.mp hstyle)]

/-- What the factory makes under its second name is not judged as a container. -/
theorem check_misses_second_name :
    let binding : Binding := .mk ⟨131, 145⟩ (.single ⟨"sidebar", ⟨131, 138⟩⟩) []
      (some (.call ⟨141, 145⟩ (.name ⟨141, 143⟩ "cc") [] [] false))
    let program : Program :=
      ⟨⟨0, 147⟩,
        [.importFrom ⟨0, 55⟩ "@vanilla-extract/css"
            (some [.named (some "createContainer") ⟨"createContainer", ⟨9, 24⟩⟩ false]),
          .importFrom ⟨56, 117⟩ "@vanilla-extract/css"
            (some [.named (some "createContainer") ⟨"cc", ⟨84, 86⟩⟩ false]),
          .exportDeclaration ⟨118, 146⟩ (.variables ⟨125, 146⟩ .block [binding])],
        []⟩
    let file : SourceFile :=
      ⟨"a.css.ts",
        ("import \x7b createContainer \x7d from \"@vanilla-extract/css\";\n" ++
          "import \x7b createContainer as cc \x7d from \"@vanilla-extract/css\";\n" ++
          "export const sidebar = cc();\n").toList,
        program, none⟩
    ".css.ts".toList <:+ file.path.toList ∧ ImportsFactory program (1, 0) "cc" ∧
      ExportsName program (2, 0) binding ⟨"sidebar", ⟨131, 138⟩⟩ ∧ binding.MadeBy "cc" ∧
      ¬ "Container".toList <:+ "sidebar".toList ∧ check file = [] := by
  intro binding program file
  have himports : ImportsFactory program (1, 0) (Binder.mk "cc" ⟨84, 86⟩).name := .intro rfl rfl
  have hexports : ExportsName program (2, 0) binding ⟨"sidebar", ⟨131, 138⟩⟩ := .intro rfl rfl rfl
  have hmade : binding.MadeBy "cc" := ⟨_, rfl, .intro .none⟩
  exact ⟨by decide, himports, hexports, hmade, by decide, by decide⟩

end ComponentLint.ContainerNames
