import ComponentLint.Diagnostic.Fixes
import ComponentLint.Proofs.AccessReports
import ComponentLint.Proofs.Nesting
import ComponentLint.Proofs.Runs

/-!
# The order of fixes

Accesses nest, and so do their fixes: `m[0][1]` has one for the whole and one for `m[0]`, which
begin together. In a well-nested program two fixes either lie apart or one strictly encloses the
other, and the outer one comes first in a result: accesses are met from the outside to the inside,
and sorting by beginnings keeps that order where it does not decide itself. Fixes in such an order
(`Fix.Ordered`) are made in one pass exactly as far as they are outermost.
-/

namespace ComponentLint

open Script (Expr Node)

namespace Fix

/-- Fixes that take up text, each before what follows it or around it. -/
structure Ordered (fixes : List Fix) : Prop where
  /-- No fix is for an empty span. -/
  nonempty : ∀ f ∈ fixes, f.span.start < f.span.stop
  /-- A fix ends before a later one begins or strictly encloses it. -/
  pairwise : fixes.Pairwise fun f g =>
    f.span.stop ≤ g.span.start ∨ f.span.StrictlyEncloses g.span

/-- A fix of a list that no other fix of the list strictly encloses. -/
def Outermost (fixes : List Fix) (f : Fix) : Prop :=
  ∀ g ∈ fixes, ¬ g.span.StrictlyEncloses f.span

/-- A source in which, from an offset on, exactly the given fixes have been made: none of them begins
before the one before it ends, and all bytes around them are those of the source. -/
inductive Made (source : List UInt8) : Nat → List Fix → List UInt8 → Prop
  /-- Behind the last fix everything is left. -/
  | rest (done : Nat) : Made source done [] (source.drop done)
  /-- What stands before a fix is left. -/
  | fix {done : Nat} {f : Fix} {fixes : List Fix} {tail : List UInt8} (hf : done ≤ f.span.start)
      (htail : Made source f.span.stop fixes tail) :
      Made source done (f :: fixes)
        ((source.take f.span.start).drop done ++ f.newBytes ++ tail)

instance (fixes : List Fix) (f : Fix) : Decidable (Outermost fixes f) :=
  inferInstanceAs (Decidable (∀ g ∈ fixes, ¬ g.span.StrictlyEncloses f.span))

theorem outermost_cons {f g : Fix} {rest : List Fix} :
    Outermost (f :: rest) g ↔ ¬ f.span.StrictlyEncloses g.span ∧ Outermost rest g := by
  simp [Outermost]

/-- A fix is strictly enclosed by none that follows it. -/
theorem Ordered.outermost_first {f : Fix} {rest : List Fix} (h : Ordered (f :: rest)) :
    Outermost (f :: rest) f := by
  refine outermost_cons.mpr ⟨fun henc => henc.2 rfl, fun g hg henc => ?_⟩
  have hnonempty := h.nonempty f List.mem_cons_self
  rcases (List.pairwise_cons.mp h.pairwise).1 g hg with hbefore | henc'
  · have hgf := Span.encloses_iff.mp henc.1
    omega
  · exact henc.asymm henc'

/-- Of ordered fixes that each begin behind an offset or end before it, one pass from the offset
makes exactly the outermost ones that begin behind it. -/
theorem Ordered.made_applyFrom (source : List UInt8) {fixes : List Fix} (h : Ordered fixes)
    {done : Nat} (hdone : ∀ f ∈ fixes, done ≤ f.span.start ∨ f.span.stop ≤ done) :
    Made source done (fixes.filter fun f => done ≤ f.span.start ∧ Outermost fixes f)
      (applyFrom source done fixes) := by
  -- The fixes that are passed over lie in the last one that was made, so that they enclose none of
  -- those that are left: this is what the hypothesis on the offset says.
  induction fixes generalizing done with
  | nil => exact Made.rest done
  | cons f rest ih =>
    obtain ⟨hfirst, hpairwise⟩ := List.pairwise_cons.mp h.pairwise
    have hnonempty := h.nonempty
    have hrest : Ordered rest := ⟨fun g hg => hnonempty g (List.mem_cons_of_mem f hg), hpairwise⟩
    rw [applyFrom]
    by_cases hbegins : f.span.start < done
    · have hends : f.span.stop ≤ done := by
        have := hdone f List.mem_cons_self
        omega
      have hsame : rest.filter (fun g => done ≤ g.span.start ∧ Outermost (f :: rest) g) =
          rest.filter fun g => done ≤ g.span.start ∧ Outermost rest g := by
        refine List.filter_congr fun g hg => ?_
        rw [decide_eq_decide, outermost_cons]
        refine and_congr_right fun hbehind => and_iff_right ?_
        rintro ⟨henc, -⟩
        have hg' := hnonempty g (List.mem_cons_of_mem f hg)
        rw [Span.encloses_iff] at henc
        omega
      have hskip : ¬ done ≤ f.span.start := by omega
      rw [if_pos hbegins, List.filter_cons_of_neg (by simp [hskip]), hsame]
      exact ih hrest fun g hg => hdone g (List.mem_cons_of_mem f hg)
    · have hbehind : done ≤ f.span.start := by omega
      have hsame : rest.filter (fun g => done ≤ g.span.start ∧ Outermost (f :: rest) g) =
          rest.filter fun g => f.span.stop ≤ g.span.start ∧ Outermost rest g := by
        refine List.filter_congr fun g hg => ?_
        have hf' := hnonempty f List.mem_cons_self
        have hg' := hnonempty g (List.mem_cons_of_mem f hg)
        rw [decide_eq_decide, outermost_cons, ← and_assoc]
        refine and_congr_left fun _ => ⟨fun hg => (hfirst _ ‹_›).resolve_right hg.2, fun hafter => ?_⟩
        refine ⟨by omega, ?_⟩
        rintro ⟨henc, -⟩
        rw [Span.encloses_iff] at henc
        omega
      have hout := h.outermost_first
      rw [if_neg hbegins, List.filter_cons_of_pos (by simp [hbehind, hout]), hsame]
      refine Made.fix hbehind (ih hrest fun g hg => ?_)
      rcases hfirst g hg with hbefore | ⟨henc, -⟩
      · exact Or.inl hbefore
      · rw [Span.encloses_iff] at henc
        exact Or.inr henc.2

/-- One pass over a source makes exactly the outermost of ordered fixes. -/
theorem Ordered.made_applyAll (source : List Char) {fixes : List Fix} (h : Ordered fixes) :
    Made (bytes source) 0 (fixes.filter fun f => Outermost fixes f) (applyAll source fixes) := by
  have hmade := h.made_applyFrom (bytes source) fun f _ => Or.inl (Nat.zero_le f.span.start)
  rw [applyAll]
  simpa only [Nat.zero_le, true_and] using hmade

end Fix

/-! ## Accesses -/

namespace ArrayAccess

/-- An access takes up text, and what stands in it takes up less. -/
theorem strictlyEncloses_of_mem_below {span : Span} {receiver key : Expr} {optional : Bool}
    (h : ∀ e ∈ (Expr.index span receiver key optional).walk, e.WellNested) :
    span.start < span.stop ∧ ∀ e ∈ (Node.expr (.index span receiver key optional)).below,
      span.StrictlyEncloses e.span := by
  have hself := h (.index span receiver key optional) (Node.mem_walk_self _)
  have hparts : (Node.expr (.index span receiver key optional)).children =
      Node.exprs (receiver :: [key]) := rfl
  exact Expr.strictlyEncloses_of_mem_below hparts h (hself.longer span receiver key optional rfl)

/-- The report on an access has its span, and its one fix has it too. -/
theorem span_of_checkAccess {source : List Char} {types : Option TypeQuery} {span : Span}
    {receiver key : Expr} {optional : Bool} {d : Diagnostic}
    (h : checkAccess source types (.index span receiver key optional) = some d) :
    d.span = span ∧ ∃ f, d.fixes = [f] ∧ f.span = span := by
  obtain ⟨-, index, -, rfl⟩ := checkAccess_index_iff.mp h
  exact ⟨rfl, _, rfl, rfl⟩

/-- What is reported takes up text and has one fix for all of it. -/
theorem span_of_mem_check {file : SourceFile} (h : file.program.WellNested) {d : Diagnostic}
    (hd : d ∈ check file) : d.span.start < d.span.stop ∧ ∃ f, d.fixes = [f] ∧ f.span = d.span := by
  rw [check_eq] at hd
  obtain ⟨e, he, hde⟩ := List.mem_filterMap.mp hd
  obtain ⟨span, receiver, key, optional, rfl⟩ := eq_index_of_checkAccess hde
  obtain ⟨hspan, hfix⟩ := span_of_checkAccess hde
  rw [hspan]
  exact ⟨(strictlyEncloses_of_mem_below (h.of_mem_walk he)).1, hfix⟩

/-- Of two accesses that are reported the first strictly encloses the second, or they lie apart. -/
theorem pairwise_check {file : SourceFile} (h : file.program.WellNested) :
    (check file).Pairwise fun a b => a.span.StrictlyEncloses b.span ∨ Span.Apart a.span b.span := by
  rw [check_eq]
  refine List.pairwise_filterMap.mpr (List.Pairwise.imp_of_mem ?_ h.pairwise_expressions)
  intro e e' he he' hrelated d hd d' hd'
  obtain ⟨span, receiver, key, optional, rfl⟩ := eq_index_of_checkAccess hd
  obtain ⟨span', receiver', key', optional', rfl⟩ := eq_index_of_checkAccess hd'
  rw [(span_of_checkAccess hd).1, (span_of_checkAccess hd').1]
  refine hrelated.imp_left fun hbelow => ?_
  exact (strictlyEncloses_of_mem_below (h.of_mem_walk he)).2 _ hbelow

end ArrayAccess

/-! ## Results -/

/-- The fixes that a result offers for the findings of a rule, in the order of the result. -/
def LintResult.fixesOf (r : LintResult) (rule : String) : List Fix :=
  (r.diagnostics.filter (·.rule == rule)).flatMap (·.fixes)

/-- Of what configured rules find, the findings of one rule are those of its configurations. -/
theorem filter_rule_flatMap_forced {siblings : Siblings} {file : SourceFile}
    {rules : List ConfiguredRule} {found : Rule → List Diagnostic}
    (h : ∀ c ∈ rules, c.rule.check siblings file = .ok (found c.rule)) (name : String) :
    (rules.flatMap fun c => c.forced (found c.rule)).filter (·.rule == name) =
      (rules.filter (·.rule.name == name)).flatMap fun c => c.forced (found c.rule) := by
  induction rules with
  | nil => rfl
  | cons c rest ih =>
    have hrest := ih fun c' hc' => h c' (List.mem_cons_of_mem c hc')
    have hnames : ∀ d ∈ c.forced (found c.rule), d.rule = c.rule.name :=
      fun d hd => ConfiguredRule.rule_of_mem_forced (h c List.mem_cons_self) hd
    rw [List.flatMap_cons, List.filter_append, hrest]
    by_cases hname : c.rule.name = name
    · rw [List.filter_cons_of_pos (by simpa using hname), List.flatMap_cons,
        List.filter_eq_self.mpr fun d hd => by simp [hnames d hd, hname]]
    · rw [List.filter_cons_of_neg (by simpa using hname),
        List.filter_eq_nil_iff.mpr fun d hd => by simp [hnames d hd, hname], List.nil_append]

/-- No other rule has the name of the rule on accesses. -/
theorem Rule.eq_arrayAccess_of_name {r : Rule} (h : r.name = ArrayAccess.rule) :
    r = .arrayAccess := by
  have hkind : r.kind = .arrayAccess :=
    List.inj_on_of_nodup_map RuleKind.nodup_names (RuleKind.mem_all r.kind)
      (RuleKind.mem_all .arrayAccess) h
  cases r <;> first | rfl | cases hkind

/-- The findings on accesses in the result of a set that has the rule once. -/
theorem RuleSet.exists_accesses_of_run {set : RuleSet} {siblings : Siblings} {file : SourceFile}
    {result : LintResult} (honce : set.ruleNames.count ArrayAccess.rule = 1)
    (hrun : set.run siblings file = .ok result) :
    ∃ c : ConfiguredRule, result.diagnostics.filter (·.rule == ArrayAccess.rule) =
      inOrder (c.forced (ArrayAccess.check file)) := by
  obtain ⟨found, hfound, hresult⟩ := exists_found_of_run hrun
  have hlength : (set.rules.filter (·.rule.name == ArrayAccess.rule)).length = 1 := by
    rw [ruleNames, List.count, List.countP_map, List.countP_eq_length_filter] at honce
    exact honce
  obtain ⟨c, hc⟩ := List.length_eq_one_iff.mp hlength
  obtain ⟨hmem, hname⟩ := List.mem_filter.mp (hc ▸ List.mem_singleton_self c)
  have hrule : c.rule = .arrayAccess := Rule.eq_arrayAccess_of_name (by simpa using hname)
  have hcheck := hfound c hmem
  rw [hrule, Rule.check_eq_verdict] at hcheck
  have hfindings : found c.rule = ArrayAccess.check file := by
    rw [hrule]
    exact (Except.ok.inj hcheck).symm
  refine ⟨c, ?_⟩
  rw [hresult, filter_inOrder, filter_rule_flatMap_forced hfound, hc]
  simp [hfindings]

/-- Findings that are met from the outside to the inside, each with one fix for all of it, offer
ordered fixes once they are sorted. -/
theorem Fix.ordered_of_findings {found : List Diagnostic}
    (hfix : ∀ d ∈ found, d.span.start < d.span.stop ∧ ∃ f, d.fixes = [f] ∧ f.span = d.span)
    (hnested : found.Pairwise fun a b =>
      a.span.StrictlyEncloses b.span ∨ Span.Apart a.span b.span) :
    Fix.Ordered ((inOrder found).flatMap (·.fixes)) := by
  have hmem : ∀ d ∈ inOrder found, d ∈ found := fun d hd => (inOrder_perm found).subset hd
  have hsorted : (inOrder found).Pairwise fun a b =>
      a.span.stop ≤ b.span.start ∨ a.span.StrictlyEncloses b.span := by
    refine pairwise_inOrder (hnested.imp_of_mem fun {a b} ha hb hab =>
      And.intro (hfix a ha).1 (And.intro (hfix b hb).1 hab)) ?_ ?_
    · rintro a b ⟨ha, hb, henc | hapart⟩ heq
      · exact Or.inr henc
      · -- spans that begin together and take up text do not lie apart
        unfold Span.Apart at hapart
        omega
    · rintro a b (⟨ha, hb, henc | hapart⟩ | ⟨hb, ha, henc | hapart⟩) hlt
      · exact Or.inr henc
      · unfold Span.Apart at hapart
        omega
      · have := Span.encloses_iff.mp henc.1
        omega
      · unfold Span.Apart at hapart
        omega
  refine ⟨fun f hf => ?_, List.pairwise_flatMap.mpr ⟨fun d hd => ?_, ?_⟩⟩
  · obtain ⟨d, hd, hfd⟩ := List.mem_flatMap.mp hf
    obtain ⟨hnonempty, g, hg, hspan⟩ := hfix d (hmem d hd)
    rw [hg, List.mem_singleton] at hfd
    rw [hfd, hspan]
    exact hnonempty
  · obtain ⟨-, g, hg, -⟩ := hfix d (hmem d hd)
    rw [hg]
    exact List.pairwise_singleton _ g
  · refine hsorted.imp_of_mem fun {a b} ha hb hab f hf g hg => ?_
    obtain ⟨-, f', hf', hfspan⟩ := hfix a (hmem a ha)
    obtain ⟨-, g', hg', hgspan⟩ := hfix b (hmem b hb)
    rw [hf', List.mem_singleton] at hf
    rw [hg', List.mem_singleton] at hg
    rw [hf, hg, hfspan, hgspan]
    exact hab

/-- Findings on accesses offer ordered fixes, whatever severity is forced onto them. -/
theorem ArrayAccess.ordered_fixes {file : SourceFile} (hspans : file.program.WellNested)
    (c : ConfiguredRule) : Fix.Ordered ((inOrder (c.forced (check file))).flatMap (·.fixes)) := by
  rw [ConfiguredRule.forced_eq]
  refine Fix.ordered_of_findings (fun d hd => ?_) ?_
  · obtain ⟨d', hd', rfl⟩ := List.mem_map.mp hd
    have hfix := span_of_mem_check hspans hd'
    exact hfix
  · exact List.pairwise_map.mpr (pairwise_check hspans)

/-- Let the spans of a file nest as they should and a set have the rule on accesses once. In a result
of the set any two fixes for accesses lie apart, the first before the second, or the first strictly
encloses the second; so none are equal, none overlap in part, and an outer fix precedes those inside
it. Making them in this order in one pass makes exactly the outermost ones and leaves every byte
around them as it is. -/
theorem access_fixes_ordered {set : RuleSet} {siblings : Siblings} {file : SourceFile}
    {result : LintResult} (hspans : file.program.WellNested)
    (honce : set.ruleNames.count ArrayAccess.rule = 1)
    (hrun : set.run siblings file = .ok result) :
    (∀ f ∈ result.fixesOf ArrayAccess.rule, f.span.start < f.span.stop) ∧
    ((result.fixesOf ArrayAccess.rule).Pairwise fun f g =>
      f.span.stop ≤ g.span.start ∨ f.span.StrictlyEncloses g.span) ∧
    Fix.Made (bytes file.source) 0
      ((result.fixesOf ArrayAccess.rule).filter fun f =>
        Fix.Outermost (result.fixesOf ArrayAccess.rule) f)
      (Fix.applyAll file.source (result.fixesOf ArrayAccess.rule)) := by
  obtain ⟨c, hc⟩ := RuleSet.exists_accesses_of_run honce hrun
  have hordered : Fix.Ordered (result.fixesOf ArrayAccess.rule) := by
    rw [LintResult.fixesOf, hc]
    exact ArrayAccess.ordered_fixes hspans c
  exact ⟨hordered.nonempty, hordered.pairwise, hordered.made_applyAll file.source⟩

/-- Accesses in the receiver and in the key of an access, beside another rule. -/
theorem access_fixes_ordered_matrix :
    let file : SourceFile :=
      ⟨"a.ts", "ms[0][k[1]+1]".toList,
        ⟨⟨0, 13⟩, [.expression ⟨0, 13⟩ (.index ⟨0, 13⟩
          (.index ⟨0, 5⟩ (.name ⟨0, 2⟩ "ms") (.number ⟨3, 4⟩ (.zero false)) false)
          (.binary ⟨6, 12⟩
            (.index ⟨6, 10⟩ (.name ⟨6, 7⟩ "k") (.number ⟨8, 9⟩ (.ofNat 1)) false)
            (.number ⟨11, 12⟩ (.ofNat 1))) false)], []⟩, none⟩
    let set : RuleSet := ⟨[⟨.effectComments, none⟩, ⟨.arrayAccess, some .error⟩], false⟩
    let siblings : Siblings := fun _ _ => .ok false
    file.program.WellNested ∧ set.ruleNames.count ArrayAccess.rule = 1 ∧
      ∃ result, set.run siblings file = .ok result ∧
        (result.fixesOf ArrayAccess.rule).Pairwise fun f g =>
          f.span.stop ≤ g.span.start ∨ f.span.StrictlyEncloses g.span := by
  intro file set siblings
  have hspans : file.program.WellNested := by
    refine ⟨⟨?_, ?_⟩, ?_⟩
    · simp [file, Node.inner, Node.children, Node.stmts, Node.ownMarks, Node.tops_eq, Node.marks_eq,
        Expr.span]
    · simp [file, Node.inner, Node.children, Node.stmts, Node.ownMarks, Node.tops_eq, Node.marks_eq]
    · intro e he
      simp only [file, Script.Program.expressions, Script.Program.visit, Script.visitStmts,
        Script.Stmt.visit, Expr.visitParts, Script.Visitor.collect, List.append_nil,
        List.cons_append, List.nil_append, List.mem_cons, List.not_mem_nil, or_false] at he
      rcases he with rfl | rfl | rfl | rfl | rfl | rfl | rfl | rfl | rfl
      all_goals
        refine ⟨⟨?_, ?_⟩, ?_, ?_⟩ <;>
          simp [Node.inner, Node.children, Node.ownMarks, Expr.span, Span.Apart, Span.encloses]
  have honce : set.ruleNames.count ArrayAccess.rule = 1 := by decide
  have hrun : ∀ c ∈ set.rules, c.rule.check siblings file =
      .ok ((c.rule.verdict siblings file).toOption.getD []) := by
    intro c hc
    rw [Rule.check_eq_verdict]
    rcases List.mem_cons.mp hc with rfl | hc
    · rfl
    · rw [List.mem_singleton.mp hc]
      rfl
  have hresult : set.run siblings file = .ok _ :=
    @RuleSet.judge_of_ok set (.fresh siblings file) rfl
      (fun r => (r.verdict siblings file).toOption.getD []) hrun
  exact ⟨hspans, honce, _, hresult, (access_fixes_ordered hspans honce hresult).2.1⟩

end ComponentLint
