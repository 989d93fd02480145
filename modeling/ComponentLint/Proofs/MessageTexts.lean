import ComponentLint.Diagnostic.Template
import ComponentLint.Proofs.Trimming
import ComponentLint.Rule.Basic
import Mathlib.Data.List.Flatten
import Mathlib.Data.List.Forall2

/-!
# What a message says

A template is written as texts with holes between them. Reading it finds exactly the holes that were
written (`read_written`), so that a message has the texts as they are and a value in the place of
each hole. A value is never looked at again, whatever it contains. Nothing of a template is lost by
reading it, whether it is well written or not (`flatMap_writtenPiece_read`).

The rules hold their templates as pieces. These are what is read from the written forms, but for the
blanks around keys (`read_ruleTexts`), and such blanks make no difference to a message whose keys all
have values (`fill_tidy`).
-/

namespace ComponentLint.Template

/-- A text of a template and the hole behind it, by what stands between the braces. -/
structure Part where
  /-- The text before the hole. -/
  text : List Char
  /-- What is written between the braces. -/
  inside : List Char

/-- A template as it is written: texts with holes behind them, and the last text. -/
def written (parts : List Part) (last : List Char) : List Char :=
  parts.flatMap (fun part => part.text ++ writtenHole part.inside) ++ last

/-- The pieces of a part. -/
def Part.pieces (part : Part) : Template := [.text part.text, .hole part.inside]

/-- The braces of a hole are seen as they are meant: the text before it has no two opening braces in
a row and does not end with one, and there is no closing brace between its own. -/
structure Part.Readable (part : Part) : Prop where
  text : ¬ ['\x7b', '\x7b'] <:+: part.text
  last : ¬ ['\x7b'] <:+ part.text
  inside : '\x7d' ∉ part.inside

/-- `Names inside key`: between the braces stands the key, perhaps with blanks around it. -/
def Names (inside key : List Char) : Prop :=
  Text.Trimmed key ∧ ∃ a b, Text.AllBlank a ∧ Text.AllBlank b ∧ inside = a ++ (key ++ b)

/-- `Shows data inside shown`: in the place of a hole stands `shown`. -/
inductive Shows (data : TemplateData) (inside : List Char) : List Char → Prop where
  /-- It is the value of the key. -/
  | value {earlier name value later} (hdata : data = earlier ++ (name, value) :: later)
      (hname : Names inside name.toList)
      (hearlier : ∀ entry ∈ earlier, ¬ Names inside entry.1.toList) :
      Shows data inside value.toList
  /-- There is no such key, and the hole stays as it is written. -/
  | hole (h : ∀ entry ∈ data, ¬ Names inside entry.1.toList) :
      Shows data inside (['\x7b', '\x7b'] ++ inside ++ ['\x7d', '\x7d'])

/-! ## Marks -/

/-- Nothing is lost where a text is split. -/
theorem eq_of_breakAt? {mark : Char} {s before after : List Char}
    (h : breakAt? mark s = some (before, after)) : s = before ++ mark :: mark :: after := by
  fun_induction breakAt? mark s generalizing before with
  | case1 => cases h
  | case2 => cases h
  | case3 c d rest hmark =>
    obtain ⟨rfl, rfl⟩ : c = mark ∧ d = mark := by simpa using hmark
    cases h
    rfl
  | case4 c d rest hmark ih =>
    obtain ⟨⟨before', after'⟩, hbreak, heq⟩ := Option.map_eq_some_iff.mp h
    cases heq
    rw [List.cons_append, ← ih hbreak]

/-- Before the place where a text is split the mark stands nowhere twice in a row. -/
theorem breakAt?_append {mark : Char} {before : List Char}
    (h : ¬ [mark, mark] <:+: before ++ [mark]) (after : List Char) :
    breakAt? mark (before ++ mark :: mark :: after) = some (before, after) := by
  induction before with
  | nil => simp [breakAt?]
  | cons c before ih =>
    have htail : breakAt? mark (before ++ mark :: mark :: after) = some (before, after) :=
      ih fun htwice => h (htwice.trans (List.suffix_cons c _).isInfix)
    obtain ⟨d, more, hmore⟩ := List.exists_cons_of_ne_nil
      (List.append_ne_nil_of_right_ne_nil before (List.cons_ne_nil mark []))
    have hsplit : before ++ mark :: mark :: after = d :: (more ++ mark :: after) := by
      rw [← List.cons_append, ← hmore, List.append_assoc, List.singleton_append]
    have hpair : ¬ (c == mark && d == mark) = true := by
      intro hmarks
      obtain ⟨rfl, rfl⟩ : c = mark ∧ d = mark := by simpa using hmarks
      have hbegins : [d, d] <+: d :: (before ++ [d]) := ⟨more, by rw [hmore]; rfl⟩
      exact h hbegins.isInfix
    rw [List.cons_append, hsplit, breakAt?, if_neg hpair, ← hsplit, htail]
    rfl

theorem breakAt?_eq_none {mark : Char} {s : List Char} (h : ¬ [mark, mark] <:+: s) :
    breakAt? mark s = none := by
  cases hbreak : breakAt? mark s with
  | none => rfl
  | some split =>
    obtain ⟨before, after⟩ := split
    refine absurd ⟨before, after, ?_⟩ h
    rw [eq_of_breakAt? hbreak, List.append_assoc]
    rfl

/-- If a text with a mark behind it has two marks in a row, the text has them itself or ends with a
mark. -/
theorem infix_concat_cases {mark : Char} {s : List Char} (h : [mark, mark] <:+: s ++ [mark]) :
    [mark, mark] <:+: s ∨ [mark] <:+ s := by
  obtain ⟨before, after, heq⟩ := h
  rcases List.eq_nil_or_concat after with rfl | ⟨after, c, rfl⟩
  · refine Or.inr ⟨before, ?_⟩
    rw [List.append_nil, ← List.singleton_append, ← List.append_assoc] at heq
    exact List.append_cancel_right heq
  · refine Or.inl ⟨before, after, ?_⟩
    rw [List.concat_eq_append, ← List.append_assoc] at heq
    exact (List.append_inj' heq rfl).1

/-! ## Reading -/

theorem firstHole?_eq (s : List Char) :
    (firstHole? s).map Subtype.val = (breakAt? '\x7b' s).bind fun opened =>
      (breakAt? '\x7d' opened.2).map fun closed => (opened.1, closed) := by
  unfold firstHole?
  split
  · next hopen => simp [hopen]
  · next before after hopen =>
    split
    · next hclose => simp [hopen, hclose]
    · next inside rest hclose => simp [hopen, hclose]

/-- A text without two opening braces in a row has no hole. -/
theorem read_text {s : List Char} (h : ¬ ['\x7b', '\x7b'] <:+: s) : read s = [.text s] := by
  have hnone : firstHole? s = none := by
    have heq := firstHole?_eq s
    rwa [breakAt?_eq_none h, Option.bind_none, Option.map_eq_none_iff] at heq
  rw [read]
  split
  · rfl
  · next hsome =>
    rw [hnone] at hsome
    cases hsome

/-- The first part of a template is read as it is meant. -/
theorem read_part {part : Part} (h : part.Readable) (rest : List Char) :
    read (part.text ++ writtenHole part.inside ++ rest) =
      .text part.text :: .hole part.inside :: read rest := by
  have hopen : ¬ ['\x7b', '\x7b'] <:+: part.text ++ ['\x7b'] := by
    intro htwice
    rcases infix_concat_cases htwice with htext | hlast
    · exact h.text htext
    · exact h.last hlast
  have hclose : ¬ ['\x7d', '\x7d'] <:+: part.inside ++ ['\x7d'] := by
    intro htwice
    rcases infix_concat_cases htwice with hinside | hinside
    · exact h.inside (hinside.subset List.mem_cons_self)
    · exact h.inside (hinside.subset List.mem_cons_self)
  have hsplit : part.text ++ writtenHole part.inside ++ rest =
      part.text ++ '\x7b' :: '\x7b' :: (part.inside ++ '\x7d' :: '\x7d' :: rest) := by
    simp [writtenHole]
  have heq := firstHole?_eq (part.text ++ writtenHole part.inside ++ rest)
  rw [hsplit, breakAt?_append hopen, Option.bind_some, breakAt?_append hclose, ← hsplit] at heq
  obtain ⟨⟨_, hlt⟩, hhole, rfl⟩ := Option.map_eq_some_iff.mp heq
  rw [read]
  split
  · next hnone =>
    rw [hnone] at hhole
    cases hhole
  · next hsome =>
    rw [hsome] at hhole
    cases hhole
    rfl

/-- Reading finds exactly the holes that were written. -/
theorem read_written {parts : List Part} {last : List Char} (hparts : ∀ part ∈ parts, part.Readable)
    (hlast : ¬ ['\x7b', '\x7b'] <:+: last) :
    read (written parts last) = parts.flatMap Part.pieces ++ [.text last] := by
  induction parts with
  | nil => exact read_text hlast
  | cons part parts ih =>
    obtain ⟨hpart, hparts⟩ := List.forall_mem_cons.mp hparts
    have hsplit : written (part :: parts) last =
        part.text ++ writtenHole part.inside ++ written parts last := by
      simp [written]
    rw [hsplit, read_part hpart, ih hparts]
    rfl

/-! ## Filling -/

/-- What stands between braces names the key that is left of it by trimming. -/
theorem names_iff {inside key : List Char} : Names inside key ↔ Text.trim inside = key := by
  constructor
  · rintro ⟨hkey, a, b, ha, hb, rfl⟩
    rw [← List.append_assoc]
    exact Text.trim_blanks ha hb hkey
  · rintro rfl
    exact ⟨Text.trimmed_trim inside, Text.exists_trim inside⟩

/-- A hole is filled as it is to be shown. -/
theorem shows_fillPiece (data : TemplateData) (inside : List Char) :
    Shows data inside (fillPiece data (.hole inside)) := by
  rw [fillPiece, TemplateData.value?]
  cases hfind : data.find? fun entry => entry.1.toList == Text.trim inside with
  | none =>
    refine .hole fun entry hentry hnames => ?_
    have hnot := List.find?_eq_none.mp hfind entry hentry
    exact hnot (beq_iff_eq.mpr (names_iff.mp hnames).symm)
  | some entry =>
    obtain ⟨hname, earlier, later, hdata, hearlier⟩ := List.find?_eq_some_iff_append.mp hfind
    refine .value hdata (names_iff.mpr (beq_iff_eq.mp hname).symm) fun entry hentry hnames => ?_
    have hnot := hearlier entry hentry
    simp [names_iff.mp hnames] at hnot

/-- The written form of a piece. -/
def writtenPiece : TemplatePiece → List Char
  | .text content => content
  | .hole inside => writtenHole inside

/-- Nothing of a template is lost by reading it. -/
theorem flatMap_writtenPiece_read (s : List Char) : (read s).flatMap writtenPiece = s := by
  fun_induction read s with
  | case1 s hnone => simp [writtenPiece]
  | case2 s before inside rest hlt hsome ih =>
    have heq := firstHole?_eq s
    rw [hsome] at heq
    obtain ⟨⟨_, after⟩, hopen, hrest⟩ := Option.bind_eq_some_iff.mp heq.symm
    obtain ⟨_, hclose, hparts⟩ := Option.map_eq_some_iff.mp hrest
    cases hparts
    obtain rfl : after = inside ++ '\x7d' :: '\x7d' :: rest := eq_of_breakAt? hclose
    rw [List.flatMap_cons, List.flatMap_cons, ih, eq_of_breakAt? hopen]
    simp [writtenPiece, writtenHole]

theorem fill_nil (template : Template) : template.fill [] = template.flatMap writtenPiece := by
  refine List.flatMap_congr fun piece _ => ?_
  cases piece with
  | text content => rfl
  | hole inside => rfl

/-- A message has the texts of its template as they are and, in the place of each hole, the value of
the key between the braces or, without one, the hole itself. Values are not looked at, whatever they
contain. Without any data a template stays as it is written, whatever it looks like. -/
theorem fill_read (data : TemplateData) :
    (∀ parts last, (∀ part ∈ parts, part.Readable) → ¬ ['\x7b', '\x7b'] <:+: last →
      ∃ shown, List.Forall₂ (fun part text => Shows data part.inside text) parts shown ∧
        (read (written parts last)).fill data =
          (List.zipWith (fun part text => part.text ++ text) parts shown).flatten ++ last) ∧
    ∀ s, (read s).fill [] = s := by
  refine ⟨fun parts last hparts hlast => ?_, fun s => ?_⟩
  · refine ⟨parts.map fun part => fillPiece data (.hole part.inside), ?_, ?_⟩
    · rw [List.forall₂_map_right_iff, List.forall₂_same]
      exact fun part _ => shows_fillPiece data part.inside
    · rw [read_written hparts hlast, fill, List.flatMap_append, List.flatMap_assoc,
        List.zipWith_map_right, List.zipWith_self, List.flatMap_singleton, ← List.flatMap_def]
      congr 1
      refine List.flatMap_congr fun part _ => ?_
      simp [Part.pieces, fillPiece]
  · rw [fill_nil, flatMap_writtenPiece_read]

example : (read "a\x7d\x7d \x7b\x7b k \x7d\x7d\x7b\x7bm\x7d\x7d".toList).fill [("k", "\x7b\x7bm\x7d\x7d")] =
    "a\x7d\x7d \x7b\x7bm\x7d\x7d\x7b\x7bm\x7d\x7d".toList := by cbv

/-! ## Templates of rules -/

/-- A piece without the blanks around its key. -/
def tidy : TemplatePiece → TemplatePiece
  | .text content => .text content
  | .hole inside => .hole (Text.trim inside)

/-- Blanks around keys make no difference where every key has a value. -/
theorem fill_tidy {template : Template} {data : TemplateData}
    (h : ∀ inside, .hole inside ∈ template → ∃ value, data.value? (Text.trim inside) = some value) :
    fill (template.map tidy) data = template.fill data := by
  unfold fill
  rw [List.flatMap_map]
  refine List.flatMap_congr fun piece hpiece => ?_
  cases piece with
  | text content => rfl
  | hole inside =>
    obtain ⟨value, hvalue⟩ := h inside hpiece
    have htwice : Text.trim (Text.trim inside) = Text.trim inside :=
      Text.trim_of_trimmed (Text.trimmed_trim inside)
    rw [tidy, fillPiece, fillPiece, htwice, hvalue]
    rfl

/-- The written forms of the rules' templates, with the templates. -/
def ruleTexts : List (String × Template) :=
  [("Variable name \"\x7b\x7bname\x7d\x7d\" is banned in *.css.ts files. Use \"root\" or " ++
      "\"\x7b\x7bsuggestion\x7d\x7d\".",
      ContainerNames.bannedExactName),
    ("Variable name \"\x7b\x7bname\x7d\x7d\" contains banned pattern " ++
      "\"\x7b\x7bpattern\x7d\x7d\" in *.css.ts files. " ++
      "Use \"\x7b\x7bsuggestion\x7d\x7d\" instead.",
      ContainerNames.bannedPattern),
    ("Variable name \"\x7b\x7bname\x7d\x7d\" using createContainer must end with " ++
      "\"Container\". Use \"\x7b\x7bsuggestion\x7d\x7d\" instead.",
      ContainerNames.requireContainerSuffix),
    ("Style name '\x7b\x7b name \x7d\x7d' has \x7b\x7b count \x7d\x7d words. Component is too " ++
      "large and needs refactoring.",
      StyleNames.tooManyWords),
    ("\x7b\x7b componentDescription \x7d\x7d must import styles from '\x7b\x7b expectedImport " ++
      "\x7d\x7d' using 'import * as styles from \"\x7b\x7b expectedImport \x7d\x7d\"'",
      StyleImports.missingImport),
    ("\x7b\x7b componentDescription \x7d\x7d must use namespace import: 'import * as styles " ++
      "from \"\x7b\x7b expectedImport \x7d\x7d\"'",
      StyleImports.incorrectImportType),
    ("\x7b\x7b componentDescription \x7d\x7d must import styles with alias 'styles', not " ++
      "'\x7b\x7b alias \x7d\x7d'",
      StyleImports.incorrectAlias),
    ("\x7b\x7b componentDescription \x7d\x7d must import from '\x7b\x7b expectedImport " ++
      "\x7d\x7d', not '\x7b\x7b source \x7d\x7d'",
      StyleImports.incorrectSource),
    ("layout.tsx must export a component named 'Layout' (found '\x7b\x7b name \x7d\x7d')",
      ComponentNames.incorrectName ComponentNames.layout),
    ("layout.tsx must export a component named 'Layout'",
      ComponentNames.missingExport ComponentNames.layout),
    ("page.tsx must export a component named 'Page' (found '\x7b\x7b name \x7d\x7d')",
      ComponentNames.incorrectName ComponentNames.page),
    ("page.tsx must export a component named 'Page'",
      ComponentNames.missingExport ComponentNames.page),
    ("Child selector '\x7b\x7b selector \x7d\x7d' is not allowed in Vanilla Extract. Create a " ++
      "separate style export instead.",
      ChildSelectors.noChildSelector),
    ("Use .at(\x7b\x7bindex\x7d\x7d) instead of [\x7b\x7bindex\x7d\x7d] for array access",
      ArrayAccess.preferArrayAt),
    ("useEffect must have a comment explaining why this side effect is necessary",
      EffectComments.missingComment)]

theorem append_of_chars {a b : String} {cs ds : List Char} (ha : a = String.ofList cs)
    (hb : b = String.ofList ds) : a ++ b = String.ofList (cs ++ ds) := by
  rw [ha, hb, String.ofList_append]

/-- A text is read by its characters, which need not be computed for a literal. -/
theorem read_of_chars {text : String} {chars : List Char} {template : Template}
    (htext : text = String.ofList chars) (h : (read chars).map tidy = template) :
    (read text.toList).map tidy = template := by
  rw [htext, String.toList_ofList, h]

set_option maxRecDepth 1000 in
/-- The templates of the rules are what is read from their written forms. -/
theorem read_ruleTexts : ∀ entry ∈ ruleTexts, (read entry.1.toList).map tidy = entry.2 := by
  simp only [ruleTexts, List.forall_mem_cons]
  refine ⟨?_, ?_, ?_, ?_, ?_, ?_, ?_, ?_, ?_, ?_, ?_, ?_, ?_, ?_, ?_, nofun⟩
  all_goals first
    | exact read_of_chars rfl (by cbv)
    | exact read_of_chars (append_of_chars rfl rfl) (by cbv)
    | exact read_of_chars (append_of_chars (append_of_chars rfl rfl) rfl) (by cbv)

end ComponentLint.Template
