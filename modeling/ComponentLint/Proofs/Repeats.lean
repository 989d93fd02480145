import ComponentLint.Proofs.Configured
import ComponentLint.Proofs.FixOrder
import ComponentLint.Proofs.Independence
import ComponentLint.Proofs.SelectorKeys

/-!
# No finding twice

In a well-nested program every rule reports a place at most once: accesses, effects, keys, names and
imports have spans of their own. So a result repeats a finding only if its set of rules repeats a
rule. A configuration can do that, because its keys are told apart by their whole text while rules
are looked up by what stands after the last slash.
-/

namespace ComponentLint

open Script (Binder Binding Expr Node Program Stmt)

/-! ## Findings on expressions -/

/-- Findings on expressions that are larger than everything in them have different spans. -/
theorem nodup_spans_of_expressions {p : Program} (h : p.WellNested) {f : Expr → Option Diagnostic}
    (hf : ∀ e ∈ p.expressions, ∀ d, f e = some d → d.span = e.span ∧ e.span.start < e.span.stop ∧
      ∀ x ∈ (Node.expr e).below, e.span.StrictlyEncloses x.span) :
    ((p.expressions.filterMap f).map (·.span)).Nodup := by
  refine List.pairwise_map.mpr (List.pairwise_filterMap.mpr ?_)
  refine h.pairwise_expressions.imp_of_mem fun {e e'} he he' hrelated d hd d' hd' => ?_
  obtain ⟨hspan, hnonempty, hbelow⟩ := hf e he d hd
  obtain ⟨hspan', -, -⟩ := hf e' he' d' hd'
  rw [hspan, hspan']
  rcases hrelated with hinner | hapart
  · exact (hbelow e' hinner).2
  · exact hapart.ne hnonempty

/-- Every call in a program is longer than what is called. -/
def Script.Program.CallsLonger (p : Program) : Prop :=
  ∀ span callee types arguments optional,
    Expr.call span callee types arguments optional ∈ p.expressions →
    callee.span.stop - callee.span.start < span.stop - span.start

theorem ArrayAccess.nodup_spans {file : SourceFile} (h : file.program.WellNested) :
    ((check file).map (·.span)).Nodup := by
  rw [check_eq]
  refine nodup_spans_of_expressions h fun e he d hd => ?_
  obtain ⟨span, receiver, key, optional, rfl⟩ := eq_index_of_checkAccess hd
  exact ⟨(span_of_checkAccess hd).1, strictlyEncloses_of_mem_below (h.of_mem_walk he)⟩

theorem EffectComments.nodup_spans {file : SourceFile} (h : file.program.WellNested)
    (hcalls : file.program.CallsLonger) : ((check file).map (·.span)).Nodup := by
  refine nodup_spans_of_expressions h fun e he d hd => ?_
  unfold checkCall at hd
  split at hd
  · next span callee types arguments optional =>
    have hparts : (Node.expr (.call span callee types arguments optional)).children =
        Node.exprs (callee :: (types ++ arguments)) := by
      simp [Node.children, Node.exprs]
    refine ⟨?_, Expr.strictlyEncloses_of_mem_below hparts (h.of_mem_walk he)
      (hcalls span callee types arguments optional he)⟩
    split_ifs at hd
    obtain ⟨body, -, hbody⟩ := Option.bind_eq_some_iff.mp hd
    split_ifs at hbody
    rw [← Option.some.inj hbody]
    rfl
  · cases hd

/-! ## Findings on statements -/

/-- The marks of the statements of a well-nested program have different spans. -/
theorem nodup_of_statements {p : Program} (h : p.WellNested) {f : Stmt → List Span}
    (hf : ∀ s, (f s).Sublist (Node.stmt s).marks) : (p.body.flatMap f).Nodup := by
  have hmarks : (p.body.flatMap fun s => (Node.stmt s).marks).Sublist (Node.program p).inner := by
    have hbody : (Node.program p).children.flatMap Node.marks =
        p.body.flatMap fun s => (Node.stmt s).marks := by
      rw [Node.children, Node.stmts, List.flatMap_map]
    rw [← hbody]
    exact (List.sublist_append_right _ _).trans (List.sublist_append_left _ _)
  exact (h.separate.sublist hmarks).nodup.sublist
    (List.Sublist.flatMap_right _ fun s _ => hf s)

/-- The span of the name that a declarator binds, if it is a single one. -/
def nameSpan? (b : Binding) : Option Span := b.single?.map (·.span)

theorem marks_binding (b : Binding) : (Node.binding b).marks = (nameSpan? b).toList := by
  have hchildren : (Node.binding b).children.flatMap Node.marks = [] := by
    cases b
    simp [Node.children, Node.exprs, List.flatMap_map]
  rw [Node.marks_eq (by simp), hchildren, List.append_nil]
  obtain ⟨span, pattern, parts, value⟩ := b
  cases pattern <;> rfl

theorem exportedNames_sublist (s : Stmt) :
    (s.exportedVariables.filterMap nameSpan?).Sublist (Node.stmt s).marks := by
  unfold Stmt.exportedVariables
  split
  · next span span' reach bindings =>
    have hvariables : (Node.stmt (.variables span' reach bindings)).marks =
        bindings.filterMap nameSpan? := by
      rw [Node.marks_eq (by simp), Node.children, List.flatMap_map,
        List.filterMap_eq_flatMap_toList]
      exact congrArg (fun f => bindings.flatMap f) (funext marks_binding)
    have hmarks : (Node.stmt (.exportDeclaration span (.variables span' reach bindings))).marks =
        bindings.filterMap nameSpan? := by
      rw [Node.marks_eq (by simp), Node.children, List.flatMap_singleton, hvariables]
      rfl
    rw [hmarks]
  · exact List.nil_sublist _

theorem ContainerNames.span_of_checkName {name : String} {span : Span} {isContainer : Bool}
    {d : Diagnostic} (h : checkName name span isContainer = some d) : d.span = span := by
  unfold checkName at h
  split_ifs at h
  · unfold checkContainer at h
    split_ifs at h
    rw [← Option.some.inj h]
    rfl
  · rw [← Option.some.inj h]
    rfl
  · obtain ⟨banned, -, hend⟩ := List.exists_of_findSome?_eq_some h
    obtain ⟨suggestion, -, rfl⟩ := Option.map_eq_some_iff.mp hend
    rfl

theorem ContainerNames.nodup_spans {file : SourceFile} (h : file.program.WellNested) :
    ((check file).map (·.span)).Nodup := by
  unfold check
  split_ifs
  · have hnames : ((file.program.body.flatMap Stmt.exportedVariables).filterMap nameSpan?).Nodup := by
      rw [List.filterMap_flatMap]
      exact nodup_of_statements h exportedNames_sublist
    refine hnames.sublist (map_filterMap_sublist (fun b d hd => ?_) _)
    obtain ⟨binder, hbinder, hname⟩ := Option.bind_eq_some_iff.mp hd
    rw [nameSpan?, hbinder, span_of_checkName hname]
    rfl
  · exact List.nodup_nil

namespace StyleNames

theorem span_of_checkName {max : Nat} {b : Binder} {d : Diagnostic}
    (h : checkName max b = some d) : d.span = b.span := by
  unfold checkName at h
  simp only at h
  split_ifs at h
  rw [← Option.some.inj h]
  rfl

theorem exportedStyles_sublist (styles : List String) (s : Stmt) :
    ((exportedStyles styles s).map (·.span)).Sublist (Node.stmt s).marks := by
  have hlisted : ∀ items fromElsewhere, ∀ span, s = .exportList span items fromElsewhere →
      ((listedStyles styles s).map (·.span)).Sublist (Node.stmt s).marks := by
    rintro items fromElsewhere span rfl
    rw [Node.marks_eq (by simp)]
    refine List.Sublist.trans ?_ (List.sublist_append_left _ _)
    cases fromElsewhere with
    | true => exact List.nil_sublist _
    | false => exact List.filter_sublist.map _
  have hnames : ((s.exportedVariables.filterMap styleName?).map (·.span)).Sublist
      (Node.stmt s).marks := by
    refine List.Sublist.trans (map_filterMap_sublist (fun b binder hb => ?_) _)
      (exportedNames_sublist s)
    unfold styleName? at hb
    split_ifs at hb
    rw [nameSpan?, hb]
    rfl
  unfold exportedStyles
  cases s with
  | exportList span items fromElsewhere => exact hlisted items fromElsewhere span rfl
  | _ => simpa [listedStyles] using hnames

theorem nodup_spans {max : Nat} {file : SourceFile} (h : file.program.WellNested) :
    ((check max file).map (·.span)).Nodup := by
  unfold check
  split_ifs
  · have hnames : ((file.program.body.flatMap
        (exportedStyles (localStyles file.program))).map (·.span)).Nodup := by
      rw [List.map_flatMap]
      exact nodup_of_statements h (exportedStyles_sublist _)
    rw [← List.filterMap_eq_map] at hnames
    refine hnames.sublist (map_filterMap_sublist (fun b d hd => ?_) _)
    rw [Function.comp_apply, span_of_checkName hd]
  · exact List.nodup_nil

end StyleNames

namespace StyleImports

theorem span_of_complaint {p : StylePattern} {i : Import} {d : Diagnostic}
    (h : complaint? p i = some d) : d.span = i.span := by
  unfold complaint? at h
  simp only at h
  split_ifs at h
  · rw [← Option.some.inj h]
    rfl
  · split at h
    · rw [← Option.some.inj h]
      rfl
    · split_ifs at h
      rw [← Option.some.inj h]
      rfl

theorem map_span_complaints_sublist (p : StylePattern) (imports : List Import) :
    ((complaints p imports).map (·.span)).Sublist (imports.map (·.span)) := by
  induction imports with
  | nil => exact List.Sublist.refl _
  | cons i rest ih =>
    rw [complaints]
    split
    · exact List.nil_sublist _
    · next d hd =>
      rw [List.map_cons, List.map_cons, span_of_complaint hd]
      exact ih.cons_cons _

theorem nodup_spans_findings {p : StylePattern} {wanted : Bool} {file : SourceFile}
    (h : file.program.WellNested) : ((findings p wanted file).map (·.span)).Nodup := by
  unfold findings
  split
  · split_ifs
    · exact List.nodup_singleton _
    · exact List.nodup_nil
  · next i rest hcandidates =>
    have himports : ((file.program.body.filterMap import?).map (·.span)).Nodup := by
      rw [List.map_filterMap, List.filterMap_eq_flatMap_toList]
      refine nodup_of_statements h fun s => ?_
      rw [Node.marks_eq (by simp)]
      refine List.Sublist.trans ?_ (List.sublist_append_left _ _)
      unfold import?
      split
      · exact List.Sublist.refl _
      · exact List.nil_sublist _
    rw [← hcandidates]
    exact himports.sublist ((map_span_complaints_sublist p _).trans (List.filter_sublist.map _))

theorem nodup_spans {options : Options} {siblings : Siblings} {file : SourceFile}
    {found : List Diagnostic} (h : file.program.WellNested)
    (hv : verdict options siblings file = .ok found) : (found.map (·.span)).Nodup := by
  unfold verdict at hv
  split at hv
  · cases hv
    exact List.nodup_nil
  · split at hv
    · cases hv
      exact nodup_spans_findings h
    · split at hv
      · cases hv
        exact nodup_spans_findings h
      · cases hv

end StyleImports

theorem ComponentNames.nodup_spans (r : Requirement) (files : List String) (file : SourceFile) :
    ((check r files file).map (·.span)).Nodup := by
  unfold check
  simp only
  split_ifs
  · exact List.nodup_nil
  · exact List.nodup_singleton _
  · exact List.nodup_nil

/-! ## Whole runs -/

/-- In a well-nested program a rule reports no place twice. -/
theorem Rule.nodup_spans {r : Rule} {siblings : Siblings} {file : SourceFile}
    {found : List Diagnostic} (h : file.program.WellNested) (hcalls : file.program.CallsLonger)
    (hr : r.check siblings file = .ok found) : (found.map (·.span)).Nodup := by
  rw [check_eq_verdict] at hr
  cases r with
  | containerNames => exact Except.ok.inj hr ▸ ContainerNames.nodup_spans h
  | childSelectors => exact Except.ok.inj hr ▸ ChildSelectors.nodup_spans h
  | styleNames max => exact Except.ok.inj hr ▸ StyleNames.nodup_spans h
  | styleImports options => exact StyleImports.nodup_spans h hr
  | layoutName files => exact Except.ok.inj hr ▸ ComponentNames.nodup_spans _ files file
  | pageName files => exact Except.ok.inj hr ▸ ComponentNames.nodup_spans _ files file
  | arrayAccess => exact Except.ok.inj hr ▸ ArrayAccess.nodup_spans h
  | effectComments => exact Except.ok.inj hr ▸ EffectComments.nodup_spans h hcalls

/-- What tells one finding from another: its rule, its message and its place. -/
def Diagnostic.identity (d : Diagnostic) : String × String × Span := (d.rule, d.messageId, d.span)

/-- A configured rule has each of its findings once, and no findings of other rules. -/
theorem ConfiguredRule.count_identity_forced_le {c : ConfiguredRule} {siblings : Siblings}
    {file : SourceFile} {found : List Diagnostic} (h : file.program.WellNested)
    (hcalls : file.program.CallsLonger) (hc : c.rule.check siblings file = .ok found)
    (i : String × String × Span) :
    ((c.forced found).map (·.identity)).count i ≤ if c.rule.name = i.1 then 1 else 0 := by
  split_ifs with hname
  · refine List.nodup_iff_count_le_one.mp (List.Nodup.of_map (·.2.2) ?_) i
    rw [forced_eq, List.map_map, List.map_map]
    exact Rule.nodup_spans h hcalls hc
  · refine Nat.le_of_eq (List.count_eq_zero.mpr fun hi => ?_)
    obtain ⟨d, hd, rfl⟩ := List.mem_map.mp hi
    exact hname (rule_of_mem_forced hc hd).symm

/-- Configured rules have a finding at most as often as they name its rule. -/
theorem count_identity_flatMap_forced_le {siblings : Siblings} {file : SourceFile}
    (h : file.program.WellNested) (hcalls : file.program.CallsLonger)
    {rules : List ConfiguredRule} {found : Rule → List Diagnostic}
    (hfound : ∀ c ∈ rules, c.rule.check siblings file = .ok (found c.rule))
    (i : String × String × Span) :
    ((rules.flatMap fun c => c.forced (found c.rule)).map (·.identity)).count i ≤
      (rules.map (·.rule.name)).count i.1 := by
  induction rules with
  | nil => exact Nat.le_refl 0
  | cons c rest ih =>
    have hfirst := c.count_identity_forced_le h hcalls (hfound c List.mem_cons_self) i
    have hrest := ih fun c' hc' => hfound c' (List.mem_cons_of_mem c hc')
    rw [List.flatMap_cons, List.map_append, List.count_append, List.map_cons, List.count_cons]
    simp only [beq_iff_eq]
    omega

/-- Let the spans of a file nest as they should and its calls be longer than what they call. A result
under a configuration has a finding, as told by rule, message and place, at most as often as there are
entries that are not off and whose keys stand for its rule. So no finding is repeated if no two of
these keys stand for the same rule. -/
theorem lint_repeats_only_repeated_rules {config : Config} {set : RuleSet} {siblings : Siblings}
    {path source : String} {file : SourceFile} {result : LintResult}
    (hconfig : RuleSet.ofConfig config = .ok set)
    (hread : SourceFile.read path source set.typeAware = .ok file)
    (hspans : file.program.WellNested) (hcalls : file.program.CallsLonger)
    (hlint : set.lint siblings path source = .ok result) :
    let keys := config.enabled.map fun entry => Text.afterLast '/' entry.1.toList
    (∀ rule id span, (result.diagnostics.map (·.identity)).count (rule, id, span) ≤
      keys.count rule.toList) ∧
    (keys.Nodup → (result.diagnostics.map (·.identity)).Nodup) := by
  intro keys
  have hcount : ∀ i : String × String × Span,
      (result.diagnostics.map (·.identity)).count i ≤ keys.count i.1.toList := by
    intro i
    obtain ⟨found, hfound, hresult⟩ :=
      RuleSet.exists_found_of_run (RuleSet.run_of_lint hread hlint)
    have hkeys : keys.count i.1.toList = set.ruleNames.count i.1 := by
      rw [← List.count_map_of_injective _ String.toList fun _ _ => String.toList_inj.mp,
        RuleSet.ruleNames_of_ofConfig hconfig]
    rw [hkeys, hresult, ((inOrder_perm _).map _).count_eq]
    exact count_identity_flatMap_forced_le hspans hcalls hfound i
  refine ⟨fun rule id span => hcount (rule, id, span), fun hnodup => ?_⟩
  exact List.nodup_iff_count_le_one.mpr fun i =>
    (hcount i).trans (List.nodup_iff_count_le_one.mp hnodup _)

/-- What is read from a call with an access. Trees cannot be compared, but what is in a tree of this
form can. -/
theorem read_call_parts :
    ((SourceFile.read "layout.tsx" "f(ms[0]);" false).toOption.bind fun read =>
      match read with
      | ⟨path, source, ⟨s, [.expression s₁ (.call s₂ (.name s₃ f) []
          [.index s₄ (.name s₅ m) (.number s₆ v) false] false)], []⟩, none⟩ =>
        some (path, source, [s, s₁, s₂, s₃, s₄, s₅, s₆], [f, m], v)
      | _ => none) =
    some ("layout.tsx", "f(ms[0]);".toList,
      [⟨0, 9⟩, ⟨0, 9⟩, ⟨0, 8⟩, ⟨0, 1⟩, ⟨2, 7⟩, ⟨2, 4⟩, ⟨5, 6⟩], ["f", "ms"], .zero false) := by
  decide +kernel

/-- Two rules with a finding each at the same place and a third one with a finding in a call, under
keys that stand for different rules. -/
theorem lint_repeats_only_repeated_rules_call :
    let config : Config :=
      ⟨[("ui/enforce-layout-component-name", ⟨.error, none⟩),
        ("enforce-page-component-name",
          ⟨.warn, some (.object [("files", .array [.string "layout.tsx"])])⟩),
        ("prefer-array-at", ⟨.error, none⟩)], false⟩
    let set : RuleSet :=
      ⟨[⟨.layoutName ["layout.tsx"], some .error⟩, ⟨.pageName ["layout.tsx"], some .warning⟩,
        ⟨.arrayAccess, some .error⟩], false⟩
    let access : Expr :=
      .index ⟨2, 7⟩ (.name ⟨2, 4⟩ "ms") (.number ⟨5, 6⟩ (.zero false)) false
    let file : SourceFile := ⟨"layout.tsx", "f(ms[0]);".toList,
      ⟨⟨0, 9⟩, [.expression ⟨0, 9⟩ (.call ⟨0, 8⟩ (.name ⟨0, 1⟩ "f") [] [access] false)], []⟩, none⟩
    RuleSet.ofConfig config = .ok set ∧
      SourceFile.read "layout.tsx" "f(ms[0]);" false = .ok file ∧
      file.program.WellNested ∧ file.program.CallsLonger ∧
      ∃ result, set.lint (fun _ _ => .ok false) "layout.tsx" "f(ms[0]);" = .ok result ∧
        result.diagnostics.length = 3 ∧ (result.diagnostics.map (·.identity)).Nodup := by
  intro config set access file
  have hconfig : RuleSet.ofConfig config = .ok set := by rfl
  have hread : SourceFile.read "layout.tsx" "f(ms[0]);" false = .ok file := by
    have hparts := read_call_parts
    cases hresult : SourceFile.read "layout.tsx" "f(ms[0]);" false with
    | error fault =>
      rw [hresult] at hparts
      cases hparts
    | ok read =>
      rw [hresult] at hparts
      simp only [Except.toOption, Option.bind_some] at hparts
      split at hparts
      · cases hparts
        rfl
      · cases hparts
  have hexpressions : file.program.expressions =
      [.call ⟨0, 8⟩ (.name ⟨0, 1⟩ "f") [] [access] false, .name ⟨0, 1⟩ "f", access,
        .name ⟨2, 4⟩ "ms", .number ⟨5, 6⟩ (.zero false)] := by rfl
  have hspans : file.program.WellNested := by
    refine ⟨⟨?_, ?_⟩, ?_⟩
    · simp [file, Node.inner, Node.children, Node.stmts, Node.ownMarks, Node.tops_eq, Node.marks_eq,
        Expr.span]
    · simp [file, Node.inner, Node.children, Node.stmts, Node.ownMarks, Node.tops_eq, Node.marks_eq]
    · intro e he
      rw [hexpressions] at he
      simp only [List.mem_cons, List.not_mem_nil, or_false] at he
      rcases he with rfl | rfl | rfl | rfl | rfl
      all_goals
        refine ⟨⟨?_, ?_⟩, ?_, ?_⟩ <;>
          simp [access, Node.inner, Node.children, Node.exprs, Node.ownMarks, Expr.span, Span.Apart,
            Span.encloses]
  have hcalls : file.program.CallsLonger := by
    intro span callee types arguments optional hcall
    rw [hexpressions] at hcall
    simp only [List.mem_cons, List.not_mem_nil, or_false, reduceCtorEq, access] at hcall
    cases hcall
    decide
  have hrun : ∀ c ∈ set.rules, c.rule.check (fun _ _ => .ok false) file =
      .ok ((c.rule.verdict (fun _ _ => .ok false) file).toOption.getD []) := by
    intro c hc
    rw [Rule.check_eq_verdict]
    simp only [set, List.mem_cons, List.not_mem_nil, or_false] at hc
    rcases hc with rfl | rfl | rfl <;> rfl
  let found : List Diagnostic := set.rules.flatMap fun c =>
    c.forced ((c.rule.verdict (fun _ _ => .ok false) file).toOption.getD [])
  have hresult : set.run (fun _ _ => .ok false) file = .ok ⟨inOrder found⟩ :=
    @RuleSet.judge_of_ok set (.fresh (fun _ _ => .ok false) file) rfl
      (fun r => (r.verdict (fun _ _ => .ok false) file).toOption.getD []) hrun
  have hlint : set.lint (fun _ _ => .ok false) "layout.tsx" "f(ms[0]);" = .ok ⟨inOrder found⟩ := by
    have hlint := @RuleSet.lint_of_read set "layout.tsx" "f(ms[0]);" file hread fun _ _ => .ok false
    rwa [hresult] at hlint
  refine ⟨hconfig, hread, hspans, hcalls, ⟨inOrder found⟩, hlint, ?_, ?_⟩
  · rw [(inOrder_perm _).length_eq]
    decide +kernel
  · exact (lint_repeats_only_repeated_rules hconfig hread hspans hcalls hlint).2 (by decide)

/-- Two keys that differ only before the last slash run a rule twice, which repeats its finding. -/
theorem lint_repeats_under_two_keys :
    let config : Config :=
      ⟨[("enforce-layout-component-name", ⟨.error, none⟩),
        ("x/enforce-layout-component-name", ⟨.error, none⟩)], false⟩
    ∃ set file result, RuleSet.ofConfig config = .ok set ∧
      SourceFile.read "layout.tsx" "" set.typeAware = .ok file ∧
      set.lint (fun _ _ => .ok false) "layout.tsx" "" = .ok result ∧
      ¬ (result.diagnostics.map (·.identity)).Nodup := by
  intro config
  let set : RuleSet :=
    ⟨[⟨.layoutName ["layout.tsx"], some .error⟩, ⟨.layoutName ["layout.tsx"], some .error⟩], false⟩
  let file : SourceFile := ⟨"layout.tsx", [], ⟨⟨0, 0⟩, [], []⟩, none⟩
  let found : List Diagnostic := set.rules.flatMap fun c =>
    c.forced (ComponentNames.check ComponentNames.layout ["layout.tsx"] file)
  have hlint : set.lint (fun _ _ => .ok false) "layout.tsx" "" = .ok ⟨inOrder found⟩ := by
    simp only [set, found, file]
    rfl
  refine ⟨set, file, ⟨inOrder found⟩, by rfl, by rfl, hlint, ?_⟩
  rw [((inOrder_perm found).map _).nodup_iff]
  decide

end ComponentLint
