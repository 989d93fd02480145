import ComponentLint.Proofs.Located
import ComponentLint.Proofs.StyleModules
import ComponentLint.Rule.StyleNames
import Mathlib.Data.List.Perm.Basic
import Mathlib.Data.List.SplitBy
import Mathlib.Data.List.TakeWhile

/-!
# Which style names are reported

A style is named where its declarator is exported in place, or by an item of an export list if the
name belongs to a style that is not exported in place. So the places of style names are pairs: the
index of a statement and that of a declarator or item in it. Which names are styles is known before
any place is looked at, so the order of the statements does not matter.
-/

namespace ComponentLint.StyleNames

open ChildSelectors (styleFactory)
open Script (Binder Binding ExportItem ExportName Expr Program Stmt)

/-- The pieces of a name that is cut before every capital letter, without the empty piece before a
capital letter at the beginning. -/
def words (name : String) : List (List Char) := name.toList.splitBy fun _ c => !c.isUpper

/-- A declarator binds the one name `b`, and its initial value is a call of `style`. -/
def DefinesStyle (binding : Binding) (b : Binder) : Prop :=
  binding.pattern = .single b ∧ ∃ v, binding.value = some v ∧ v.CallsByName "style"

/-- A style is defined under a name by a declaration at the top level that is not exported in
place. -/
def DefinesLocally (program : Program) (name : String) : Prop :=
  ∃ span reach bindings binding b, Stmt.variables span reach bindings ∈ program.body ∧
    binding ∈ bindings ∧ DefinesStyle binding b ∧ b.name = name

/-- `NamesStyle program (i, j) b`: a style is exported under the name `b` by the declarator or item
`j` of the statement `i`. -/
inductive NamesStyle (program : Program) : Nat × Nat → Binder → Prop where
  | declarator {i j span place reach bindings binding b}
      (hs : program.body[i]? = some (.exportDeclaration span (.variables place reach bindings)))
      (hbinding : bindings[j]? = some binding) (hstyle : DefinesStyle binding b) :
      NamesStyle program (i, j) b
  | item {i j span items item b} (hs : program.body[i]? = some (.exportList span items false))
      (hitem : items[j]? = some item) (hinside : item.inside = .plain b)
      (hlocal : DefinesLocally program b.name) : NamesStyle program (i, j) b

/-- A finding is about the name `b` and says how many words it has. -/
def Counts (b : Binder) (d : Diagnostic) : Prop :=
  d.span = b.span ∧ d.messageId = "tooManyWords" ∧
    d.data = [("name", b.name), ("count", toString (words b.name).length)]

/-! ## Words -/

/-- The first word goes up to the next capital letter. -/
theorem splitBy_append_capital {c : Char} {more tail : List Char}
    (hmore : ∀ d ∈ more, d.isUpper = false) (htail : ∀ d ∈ tail.head?, d.isUpper = true) :
    (c :: more ++ tail).splitBy (fun _ d => !d.isUpper) =
      (c :: more) :: tail.splitBy fun _ d => !d.isUpper := by
  have hword : (c :: more).IsChain fun _ d => (!d.isUpper) = true := by
    refine (List.pairwise_cons.mpr ⟨fun d hd => ?_, ?_⟩).isChain
    · rw [hmore d hd, Bool.not_false]
    · refine List.pairwise_of_forall_mem_list fun _ _ d hd => ?_
      rw [hmore d hd, Bool.not_false]
  rw [List.splitBy_append, List.splitBy_of_isChain (List.cons_ne_nil c more) hword]
  · rfl
  · intro _ _ d hd
    rw [htail d hd, Bool.not_true]

theorem countWords_append_capital {c : Char} {more tail : List Char}
    (hmore : ∀ d ∈ more, d.isUpper = false) (htail : ∀ d ∈ tail.head?, d.isUpper = true) :
    Naming.countWords (c :: more ++ tail) = Naming.countWords tail + 1 := by
  have hnone : more.countP Char.isUpper = 0 := by
    rw [List.countP_eq_zero]
    intro d hd
    simp [hmore d hd]
  cases tail with
  | nil => simp [Naming.countWords, hnone]
  | cons d rest =>
    have hd : d.isUpper = true := htail d rfl
    simp [Naming.countWords, hnone, hd]

/-- To count the capital letters is to count the pieces between them. -/
theorem countWords_eq (name : List Char) :
    Naming.countWords name = (name.splitBy fun _ c => !c.isUpper).length := by
  match name with
  | [] => rfl
  | c :: rest =>
    -- the first word, and what follows it
    have hmore : ∀ d ∈ rest.takeWhile fun d => !d.isUpper, d.isUpper = false := by
      intro d hd
      simpa using List.mem_takeWhile_imp hd
    have htail : ∀ d ∈ (rest.dropWhile fun d => !d.isUpper).head?, d.isUpper = true := by
      intro d hd
      have hnot := List.head?_dropWhile_not (fun d : Char => !d.isUpper) rest
      rw [Option.mem_def.mp hd] at hnot
      simpa using hnot
    have hrest := List.takeWhile_append_dropWhile (p := fun d : Char => !d.isUpper) (l := rest)
    have hlength := List.length_dropWhile_le (fun d : Char => !d.isUpper) rest
    rw [← hrest, ← List.cons_append, countWords_append_capital hmore htail,
      splitBy_append_capital hmore htail, countWords_eq, List.length_cons]
termination_by name.length
decreasing_by
  simp only [List.length_cons]
  omega

example : words "messageWallURL" =
    ["message".toList, "Wall".toList, "U".toList, "R".toList, "L".toList] := by rfl

/-- A name is reported exactly if it has too many words. -/
theorem checkName_eq_some_iff {max : Nat} {b : Binder} {d : Diagnostic} :
    checkName max b = some d ↔ max < (words b.name).length ∧
      d = (Diagnostic.ofTemplate rule b.span "tooManyWords" tooManyWords
        [("name", b.name), ("count", toString (words b.name).length)]).withSeverity .error := by
  unfold checkName words
  rw [countWords_eq]
  constructor
  · intro h
    simp only at h
    split_ifs at h with hle
    exact ⟨Nat.not_le.mp hle, (Option.some.inj h).symm⟩
  · rintro ⟨hlt, rfl⟩
    simp only [if_neg (Nat.not_le.mpr hlt)]

/-- With a higher limit a name is reported only if it is with a lower one. -/
theorem checkName_of_le {max higher : Nat} (h : max ≤ higher) (b : Binder) (d : Diagnostic)
    (hd : checkName higher b = some d) : checkName max b = some d := by
  obtain ⟨hlt, rfl⟩ := checkName_eq_some_iff.mp hd
  exact checkName_eq_some_iff.mpr ⟨Nat.lt_of_le_of_lt h hlt, rfl⟩

theorem counts_of_checkName {max : Nat} {b : Binder} {d : Diagnostic}
    (h : checkName max b = some d) : Counts b d := by
  obtain ⟨-, rfl⟩ := checkName_eq_some_iff.mp h
  exact ⟨rfl, rfl, rfl⟩

/-! ## Styles -/

theorem styleName?_eq_some_iff {binding : Binding} {b : Binder} :
    styleName? binding = some b ↔ DefinesStyle binding b := by
  have hvalue : binding.initializedBy styleFactory = true ↔
      ∃ v, binding.value = some v ∧ v.CallsByName "style" := Binding.initializedBy_iff
  unfold styleName? DefinesStyle
  rw [← hvalue, ← Binding.single?_eq_some_iff]
  split_ifs with h
  · simp [h]
  · simp [h]

theorem contains_localStyles_iff {program : Program} {name : String} :
    (localStyles program).contains name = true ↔ DefinesLocally program name := by
  rw [List.contains_iff_mem, localStyles]
  constructor
  · intro h
    obtain ⟨b, hb, hname⟩ := List.mem_map.mp h
    obtain ⟨binding, hbinding, hstyle⟩ := List.mem_filterMap.mp hb
    obtain ⟨s, hs, hlocal⟩ := List.mem_flatMap.mp hbinding
    unfold Stmt.localVariables at hlocal
    split at hlocal
    · next span reach bindings =>
      exact ⟨span, reach, bindings, binding, b, hs, hlocal, styleName?_eq_some_iff.mp hstyle, hname⟩
    · cases hlocal
  · rintro ⟨span, reach, bindings, binding, b, hs, hbinding, hstyle, hname⟩
    exact List.mem_map.mpr ⟨b, List.mem_filterMap.mpr ⟨binding,
      List.mem_flatMap.mpr ⟨_, hs, hbinding⟩, styleName?_eq_some_iff.mpr hstyle⟩, hname⟩

/-- What a statement names as a style by its declarator or item with an index. -/
def styleAt? (styles : List String) : Stmt → Nat → Option Binder
  | .exportDeclaration _ (.variables _ _ bindings), j => bindings[j]?.bind styleName?
  | .exportList _ items false, j =>
    (items[j]?.bind (·.inside.plain?)).bind (Option.guard fun b => styles.contains b.name)
  | _, _ => none

/-- The styles that a statement exports are found at its declarators and items. -/
theorem located_exportedStyles (styles : List String) (s : Stmt) :
    ∃ entries, Located (· < ·) (styleAt? styles s) entries (exportedStyles styles s) := by
  unfold exportedStyles
  fun_cases Stmt.exportedVariables s with
  | case1 span place reach bindings =>
    obtain ⟨all, hall⟩ := Located.getElem? bindings
    obtain ⟨kept, hkept⟩ := hall.filterMap styleName?
    have hlisted : listedStyles styles
        (.exportDeclaration span (.variables place reach bindings)) = [] := rfl
    rw [hlisted, List.append_nil]
    exact ⟨kept, hkept⟩
  | case2 =>
    rw [List.filterMap_nil, List.nil_append]
    fun_cases listedStyles styles s with
    | case1 span items =>
      obtain ⟨all, hall⟩ := Located.getElem? items
      obtain ⟨named, hnamed⟩ := hall.filterMap (·.inside.plain?)
      obtain ⟨kept, hkept⟩ := hnamed.filterMap (Option.guard fun b => styles.contains b.name)
      rw [List.filterMap_eq_filter] at hkept
      exact ⟨kept, hkept⟩
    | case2 =>
      have hnone : styleAt? styles s = fun _ => none := by
        funext j
        rw [styleAt?]
        · assumption
        · assumption
      rw [hnone]
      exact ⟨[], .nil⟩

theorem styleAt?_eq_some_iff {program : Program} {place : Nat × Nat} {b : Binder} :
    ((program.body[place.1]?).bind fun s => styleAt? (localStyles program) s place.2) = some b ↔
      NamesStyle program place b := by
  obtain ⟨i, j⟩ := place
  rw [Option.bind_eq_some_iff]
  constructor
  · rintro ⟨s, hs, hb⟩
    unfold styleAt? at hb
    split at hb
    · next span place reach bindings =>
      obtain ⟨binding, hbinding, hstyle⟩ := Option.bind_eq_some_iff.mp hb
      exact .declarator hs hbinding (styleName?_eq_some_iff.mp hstyle)
    · next span items =>
      obtain ⟨b', hb', hguard⟩ := Option.bind_eq_some_iff.mp hb
      obtain ⟨item, hitem, hinside⟩ := Option.bind_eq_some_iff.mp hb'
      obtain ⟨rfl, hlocal⟩ := Option.guard_eq_some_iff.mp hguard
      exact .item hs hitem (ExportName.plain?_eq_some_iff.mp hinside)
        (contains_localStyles_iff.mp hlocal)
    · cases hb
  · intro h
    cases h with
    | declarator hs hbinding hstyle =>
      exact ⟨_, hs, Option.bind_eq_some_iff.mpr
        ⟨_, hbinding, styleName?_eq_some_iff.mpr hstyle⟩⟩
    | item hs hitem hinside hlocal =>
      exact ⟨_, hs, Option.bind_eq_some_iff.mpr ⟨b, Option.bind_eq_some_iff.mpr
        ⟨_, hitem, ExportName.plain?_eq_some_iff.mpr hinside⟩,
        Option.guard_eq_some_iff.mpr ⟨rfl, contains_localStyles_iff.mpr hlocal⟩⟩⟩

/-- An item of an export list names a style only if the style is defined without being exported in
place. -/
theorem NamesStyle.definesLocally {program : Program} {i j : Nat} {span : Span}
    {items : List ExportItem} {fromElsewhere : Bool} {item : ExportItem} {b b' : Binder}
    (h : NamesStyle program (i, j) b')
    (hs : program.body[i]? = some (.exportList span items fromElsewhere))
    (hitem : items[j]? = some item) (hinside : item.inside = .plain b) :
    DefinesLocally program b.name := by
  cases h with
  | declarator hs' =>
    rw [hs] at hs'
    cases hs'
  | item hs' hitem' hinside' hlocal =>
    rw [hs] at hs'
    cases hs'
    rw [hitem] at hitem'
    cases hitem'
    rw [hinside] at hinside'
    cases hinside'
    exact hlocal

/-! ## A file -/

/-- Statements in another order define the same styles. -/
theorem contains_localStyles_of_perm {program program' : Program}
    (hperm : program'.body.Perm program.body) (name : String) :
    (localStyles program').contains name = (localStyles program).contains name := by
  rw [Bool.eq_iff_iff, List.contains_iff_mem, List.contains_iff_mem]
  exact (((hperm.flatMap_right _).filterMap _).map _).mem_iff

theorem exportedStyles_congr {styles styles' : List String}
    (h : ∀ name, styles'.contains name = styles.contains name) :
    exportedStyles styles' = exportedStyles styles := by
  funext s
  unfold exportedStyles listedStyles
  simp only [h]

/-- Statements in another order lead to the same findings in another order. -/
theorem check_perm {max : Nat} {file file' : SourceFile} (hpath : file'.path = file.path)
    (hperm : file'.program.body.Perm file.program.body) :
    (check max file').Perm (check max file) := by
  have hstyle : file'.isStyleModule = file.isStyleModule := by
    rw [SourceFile.isStyleModule, SourceFile.isStyleModule, hpath]
  have hexported : exportedStyles (localStyles file'.program) =
      exportedStyles (localStyles file.program) :=
    exportedStyles_congr (contains_localStyles_of_perm hperm)
  unfold check
  rw [hstyle, hexported]
  split_ifs
  · exact (hperm.flatMap_right _).filterMap _
  · exact List.Perm.refl _

theorem check_sublist_of_le {max higher : Nat} (h : max ≤ higher) (file : SourceFile) :
    (check higher file).Sublist (check max file) := by
  unfold check
  split_ifs
  · exact filterMap_sublist_filterMap (checkName_of_le h) _
  · exact List.Sublist.refl _

theorem located_check {max : Nat} {file : SourceFile}
    (hfile : ".css.ts".toList <:+ file.path.toList) :
    ∃ entries, Located (Prod.Lex (fun i i' : Nat => i < i') fun j j' : Nat => j < j')
      (fun place => ((file.program.body[place.1]?).bind fun s =>
        styleAt? (localStyles file.program) s place.2).bind (checkName max)) entries
      (check max file) := by
  obtain ⟨statements, hstatements⟩ := Located.getElem? file.program.body
  obtain ⟨named, hnamed⟩ := hstatements.flatMap (located_exportedStyles (localStyles file.program))
  rw [check, if_pos (SourceFile.isStyleModule_iff.mpr hfile)]
  exact hnamed.filterMap (checkName max)

/-- Something is reported at a place exactly if a style is named there with too many words. -/
theorem exists_checkName_iff {max : Nat} {file : SourceFile} {place : Nat × Nat} :
    (∃ d, ((file.program.body[place.1]?).bind fun s =>
        styleAt? (localStyles file.program) s place.2).bind (checkName max) = some d) ↔
      ∃ b, NamesStyle file.program place b ∧ max < (words b.name).length := by
  constructor
  · rintro ⟨d, hd⟩
    obtain ⟨b, hb, hcheck⟩ := Option.bind_eq_some_iff.mp hd
    exact ⟨b, styleAt?_eq_some_iff.mp hb, (checkName_eq_some_iff.mp hcheck).1⟩
  · rintro ⟨b, hb, hlt⟩
    exact ⟨_, Option.bind_eq_some_iff.mpr
      ⟨b, styleAt?_eq_some_iff.mpr hb, checkName_eq_some_iff.mpr ⟨hlt, rfl⟩⟩⟩

/-- In a style module every name of a style with too many words is reported, once and with the
number of its words, and nothing else is. An item is not reported if its style is only exported in
place. The order of the statements does not matter for what is reported, and a higher limit only
takes findings away. -/
theorem check_reports_long_names (max : Nat) (file : SourceFile) :
    (".css.ts".toList <:+ file.path.toList →
      ∃ places : List (Nat × Nat),
        places.Pairwise (Prod.Lex (· < ·) (· < ·)) ∧
        (∀ place, place ∈ places ↔
          ∃ b, NamesStyle file.program place b ∧ max < (words b.name).length) ∧
        List.Forall₂ (fun place d => ∃ b, NamesStyle file.program place b ∧ Counts b d) places
          (check max file) ∧
        ∀ i j span items fromElsewhere item b,
          file.program.body[i]? = some (.exportList span items fromElsewhere) →
          items[j]? = some item → item.inside = .plain b → ¬ DefinesLocally file.program b.name →
          (i, j) ∉ places) ∧
    (∀ body, body.Perm file.program.body →
      ((check max { file with program.body := body }).map (·.data)).Perm
        ((check max file).map (·.data))) ∧
    ∀ higher, max ≤ higher → (check higher file).Sublist (check max file) := by
  refine ⟨fun hfile => ?_, fun body hperm => ?_, fun higher h => check_sublist_of_le h file⟩
  · obtain ⟨entries, hentries⟩ := located_check hfile
    have hmem : ∀ place, place ∈ entries.map (·.1) ↔
        ∃ b, NamesStyle file.program place b ∧ max < (words b.name).length :=
      fun place => hentries.mem_positions_iff.trans exists_checkName_iff
    refine ⟨entries.map (·.1), List.pairwise_map.mpr hentries.ascending, hmem,
      hentries.forall₂.imp fun place d hd => ?_, ?_⟩
    · obtain ⟨b, hb, hcheck⟩ := Option.bind_eq_some_iff.mp hd
      exact ⟨b, styleAt?_eq_some_iff.mp hb, counts_of_checkName hcheck⟩
    · intro i j span items fromElsewhere item b hs hitem hinside hlocal hplace
      obtain ⟨b', hnames, -⟩ := (hmem (i, j)).mp hplace
      exact hlocal (hnames.definesLocally hs hitem hinside)
  · have hfound : (check max { file with program.body := body }).Perm (check max file) :=
      check_perm rfl hperm
    exact hfound.map _

end ComponentLint.StyleNames
