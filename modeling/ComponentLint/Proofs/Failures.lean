import ComponentLint.Proofs.RuleNames

/-!
# How rules fail

A rule either adds its own findings to what has been reported or fails and adds nothing. Only the
rule on imports of styles fails, and only on its one question: it gets to the question if no import
comes into question and one is asked for just where the file with the styles exists. The conditions
are said here on the statements of a file and not on the scan over them.
-/

namespace ComponentLint

open Script (Stmt)

namespace StyleImports

/-- A statement imports a style sheet, from the same directory if the pattern wants that. -/
def ImportsStyles (p : StylePattern) (s : Stmt) : Prop :=
  ∃ span source items, s = .importFrom span source items ∧ ".css".toList <:+ source.toList ∧
    (p.requireRelativeImports = true → "./".toList <+: source.toList)

/-- The question that the rule has to ask about a file, by its first pattern, is not answered. -/
def Unanswered (options : Options) (siblings : Siblings) (file : SourceFile) (e : ProbeFailure) :
    Prop :=
  ∃ p fault, options.patterns.head? = some p ∧ (∀ s ∈ file.program.body, ¬ ImportsStyles p s) ∧
    options.requireWhenStylesExist = true ∧
    siblings file.path p.styleFileExtension = .error fault ∧
    e = ⟨file.path, p.styleFileExtension, fault⟩

theorem qualifies_iff {p : StylePattern} {i : Import} :
    qualifies p i = true ↔ ".css".toList <:+ i.source.toList ∧
      (p.requireRelativeImports = true → "./".toList <+: i.source.toList) := by
  unfold qualifies
  rw [Bool.and_eq_true, Text.endsWith_iff, Bool.or_eq_true, Text.beginsWith_iff]
  cases p.requireRelativeImports <;> simp

theorem importsStyles_iff {p : StylePattern} {s : Stmt} :
    ImportsStyles p s ↔ ∃ i, import? s = some i ∧ qualifies p i = true := by
  constructor
  · rintro ⟨span, source, items, rfl, hsource⟩
    exact ⟨⟨span, source, items.getD []⟩, rfl, qualifies_iff.mpr hsource⟩
  · rintro ⟨i, hi, hq⟩
    unfold import? at hi
    split at hi
    · next span source items =>
      obtain rfl := Option.some.inj hi
      exact ⟨span, source, items, rfl, qualifies_iff.mp hq⟩
    · cases hi

theorem candidates_eq_nil_iff {p : StylePattern} {body : List Stmt} :
    candidates p body = [] ↔ ∀ s ∈ body, ¬ ImportsStyles p s := by
  unfold candidates
  rw [List.filter_eq_nil_iff]
  constructor
  · intro h s hs himports
    obtain ⟨i, hi, hq⟩ := importsStyles_iff.mp himports
    exact h i (List.mem_filterMap.mpr ⟨s, hs, hi⟩) hq
  · intro h i hi hq
    obtain ⟨s, hs, hsi⟩ := List.mem_filterMap.mp hi
    exact h s hs (importsStyles_iff.mpr ⟨i, hsi, hq⟩)

/-- The rule asks for the file of its first pattern exactly if no import comes into question and the
file decides. -/
theorem probe?_eq_some_iff {options : Options} {file : SourceFile} {name : String} :
    probe? options file = some name ↔ ∃ p, options.patterns.head? = some p ∧
      (∀ s ∈ file.program.body, ¬ ImportsStyles p s) ∧ options.requireWhenStylesExist = true ∧
      name = p.styleFileExtension := by
  unfold probe?
  rw [Option.bind_eq_some_iff]
  refine exists_congr fun p => and_congr_right fun _ => ?_
  rw [← candidates_eq_nil_iff, ← List.isEmpty_iff]
  constructor
  · intro h
    split_ifs at h with hasks
    obtain ⟨hnone, hrequire⟩ := Bool.and_eq_true_iff.mp hasks
    exact ⟨hnone, hrequire, (Option.some.inj h).symm⟩
  · rintro ⟨hnone, hrequire, rfl⟩
    rw [if_pos (Bool.and_eq_true_iff.mpr ⟨hnone, hrequire⟩)]

/-- The verdict is a failure exactly if there is a question and no answer to it. -/
theorem verdict_eq_error_iff {options : Options} {siblings : Siblings} {file : SourceFile}
    {e : ProbeFailure} :
    verdict options siblings file = .error e ↔ ∃ name fault, probe? options file = some name ∧
      siblings file.path name = .error fault ∧ e = ⟨file.path, name, fault⟩ := by
  unfold verdict
  cases hp : options.patterns with
  | nil => simp [probe?, hp]
  | cons p more =>
    cases hprobe : probe? options file with
    | none => simp
    | some name =>
      cases hanswer : siblings file.path name with
      | ok found => simp [hanswer]
      | error fault => simp [hanswer, eq_comm]

theorem verdict_eq_error_iff_unanswered {options : Options} {siblings : Siblings}
    {file : SourceFile} {e : ProbeFailure} :
    verdict options siblings file = .error e ↔ Unanswered options siblings file e := by
  rw [verdict_eq_error_iff]
  constructor
  · rintro ⟨name, fault, hprobe, hanswer, rfl⟩
    obtain ⟨p, hp, hnone, hrequire, rfl⟩ := probe?_eq_some_iff.mp hprobe
    exact ⟨p, fault, hp, hnone, hrequire, hanswer, rfl⟩
  · rintro ⟨p, fault, hp, hnone, hrequire, hanswer, rfl⟩
    exact ⟨p.styleFileExtension, fault, probe?_eq_some_iff.mpr ⟨p, hp, hnone, hrequire, rfl⟩,
      hanswer, rfl⟩

end StyleImports

namespace Rule

/-- Only the rule on imports of styles fails, and exactly if its question is not answered. -/
theorem check_eq_error_iff {r : Rule} {siblings : Siblings} {file : SourceFile}
    {e : ProbeFailure} :
    r.check siblings file = .error e ↔
      ∃ options, r = .styleImports options ∧ StyleImports.Unanswered options siblings file e := by
  rw [check_eq_verdict]
  cases r with
  | styleImports options =>
    simp only [verdict, Rule.styleImports.injEq, exists_eq_left']
    exact StyleImports.verdict_eq_error_iff_unanswered
  | _ => simp [verdict]

/-- A rule fails in a context exactly as it fails alone. -/
theorem run_eq_error_iff {r : Rule} {c : LintContext} {e : ProbeFailure} :
    (∃ c', r.run c = .error e c') ↔ r.check c.siblings c.file = .error e := by
  rw [run_eq]
  cases r.check c.siblings c.file with
  | ok found => simp
  | error e' => simp

/-- In every context a rule succeeds and puts its own findings behind what was reported before, or
fails and leaves that as it was. It fails only if it is the rule on imports of styles, has a
pattern, asks for an import just where the file with the styles exists, finds no import that comes
into question by its first pattern, and gets no answer when it asks for the file; the failure names
the linted file and the one that was asked for. -/
theorem run_appends_or_fails (r : Rule) (c : LintContext) :
    ((∃ found c', r.check c.siblings c.file = .ok found ∧ (∀ d ∈ found, d.rule = r.name) ∧
        r.run c = .ok () c' ∧ c'.reported = c.reported ++ found) ∨
      ∃ e c', r.run c = .error e c' ∧ c'.reported = c.reported) ∧
    ∀ e, (∃ c', r.run c = .error e c') ↔
      ∃ options, r = .styleImports options ∧
        StyleImports.Unanswered options c.siblings c.file e := by
  refine ⟨?_, fun e => run_eq_error_iff.trans check_eq_error_iff⟩
  have hrun := r.run_eq c
  cases hcheck : r.check c.siblings c.file with
  | ok found =>
    rw [hcheck] at hrun
    refine Or.inl ⟨found, _, rfl, fun d hd => rule_of_mem_check hcheck hd, hrun, ?_⟩
    simp [LintContext.adding]
  | error e =>
    rw [hcheck] at hrun
    refine Or.inr ⟨e, _, hrun, ?_⟩
    simp [LintContext.adding]

end Rule

end ComponentLint
