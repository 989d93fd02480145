import ComponentLint.Proofs.AccessReports
import ComponentLint.Proofs.NumeralTexts
import ComponentLint.Run

/-!
# What a fix writes for an index

A fix puts the text of the index between the parentheses of the call. A name, an operation or a call
is copied, from the brackets in which it stands alone into parentheses in which it stands alone. That
the parser makes the same expression of the copy is not stated here: for these keys `Denotes` says
that the text is the key's own, character by character.

A number is written anew from its value: every finite value is written as a numeral that is read as
this value again, with a minus sign in front if the index has one and is not zero. An infinite value,
which is what too large a numeral stands for, is written as a name.
-/

namespace ComponentLint.ArrayAccess

open Number (Double Fits)
open Script (Expr IsLiteralValue)

/-- A text is a numeral of a value, up to the parenthesis that closes the call. -/
def ReadsAs (text : List Char) (v : Double) : Prop :=
  ∀ after, Script.numeral (text ++ ')' :: after) = some (.number v, ')' :: after)

/-- The value of the literal in a numeric key. -/
def literal? : Expr → Option Double
  | .number _ v => some v
  | .negation _ (.number _ v) => some v
  | _ => none

/-- A text stands for a key in a call: the text of the key itself, or a numeral of the same value. A
zero keeps no sign. -/
inductive Denotes (source : List Char) : Expr → List Char → Prop where
  | name (span text) : Denotes source (.name span text) (span.text source)
  | binary (span left right) : Denotes source (.binary span left right) (span.text source)
  | call (span callee types args optional) :
    Denotes source (.call span callee types args optional) (span.text source)
  | number (span) {v text} (h : ReadsAs text v) : Denotes source (.number span v) text
  | negated (outer inner) {v text} (h : ReadsAs text v) (hv : v.isZero = false) :
    Denotes source (.negation outer (.number inner v)) ('-' :: text)
  | zero (outer inner) {v text} (h : ReadsAs text v) (hv : v.isZero = true) :
    Denotes source (.negation outer (.number inner v)) text

/-! ## Numbers -/

/-- A text is a numeral of one value at most. -/
theorem ReadsAs.unique {text : List Char} {v w : Double} (hv : ReadsAs text v)
    (hw : ReadsAs text w) : v = w := by
  have h := (hv []).symm.trans (hw [])
  exact Script.TokenKind.number.inj (Prod.mk.inj (Option.some.inj h)).1

theorem not_readsAs_infinite (v : Double) : ¬ ReadsAs "inf".toList v := by
  intro h
  have hnone : Script.numeral ("inf".toList ++ [')']) = none := by decide
  rw [h []] at hnone
  cases hnone

theorem readsAs_positional {m : Nat} {e : Int} (h : Fits m e) :
    ReadsAs (Double.finite false m e).positional (.finite false m e) := by
  obtain ⟨p, htext, hdouble⟩ := Script.exists_plain_of_fits h
  intro after
  rw [← htext, ← hdouble]
  exact p.numeral_append after

/-- What is written for the value of a numeral is a numeral of this value exactly if the value is
finite. -/
theorem readsAs_positional_iff {v : Double} (h : IsLiteralValue v) :
    ReadsAs v.positional v ↔ v.isFinite = true := by
  cases h with
  | infinite => exact ⟨fun hreads => absurd hreads (not_readsAs_infinite _), nofun⟩
  | finite hfits => exact ⟨fun _ => rfl, fun _ => readsAs_positional hfits⟩

theorem denotes_number_iff (source : List Char) (span : Span) {v : Double}
    (h : IsLiteralValue v) :
    Denotes source (.number span v) v.positional ↔ v.isFinite = true := by
  rw [← readsAs_positional_iff h]
  constructor
  · intro hdenotes
    cases hdenotes with
    | number _ hreads => exact hreads
  · exact .number span

/-- The same for a number with a minus sign before it. -/
theorem denotes_negation_iff (source : List Char) (outer inner : Span) {v : Double}
    (h : IsLiteralValue v) :
    Denotes source (.negation outer (.number inner v)) v.negate.positional ↔
      v.isFinite = true := by
  cases h with
  | infinite =>
    refine ⟨fun hdenotes => ?_, nofun⟩
    generalize htext : (Double.negate (.infinite false)).positional = text at hdenotes
    cases hdenotes with
    | negated _ _ hreads _ =>
      obtain rfl := (List.cons.inj htext).2
      exact absurd hreads (not_readsAs_infinite _)
    | zero _ _ _ hzero => cases hzero
  | @finite m e hfits =>
    refine ⟨fun _ => rfl, fun _ => ?_⟩
    have hreads := readsAs_positional hfits
    by_cases hm : m = 0
    · subst hm
      exact .zero outer inner hreads rfl
    · have hsign : (Double.negate (.finite false m e)).positional =
          '-' :: (Double.finite false m e).positional := Script.positional_negative e hm
      rw [hsign]
      exact .negated outer inner hreads (beq_eq_false_iff_ne.mpr hm)

/-- The text of an index stands for the key exactly if the key holds no infinite number. -/
theorem denotes_index_iff {source : List Char} {key : Expr} {index : Index}
    (hindex : index? source key = some index)
    (hliteral : ∀ v, literal? key = some v → IsLiteralValue v) :
    Denotes source key index.text ↔ ∀ v, literal? key = some v → v.isFinite = true := by
  unfold index? at hindex
  split at hindex
  · next span v =>
    obtain rfl := Option.some.inj hindex
    have hiff := denotes_number_iff source span (hliteral v rfl)
    exact hiff.trans ⟨fun hv w hw => Option.some.inj hw ▸ hv, fun hall => hall v rfl⟩
  · next outer span v =>
    obtain rfl := Option.some.inj hindex
    have hiff := denotes_negation_iff source outer span (hliteral v rfl)
    exact hiff.trans ⟨fun hv w hw => Option.some.inj hw ▸ hv, fun hall => hall v rfl⟩
  · obtain rfl := Option.some.inj hindex
    exact ⟨fun _ => nofun, fun _ => .name ..⟩
  · obtain rfl := Option.some.inj hindex
    exact ⟨fun _ => nofun, fun _ => .binary ..⟩
  · obtain rfl := Option.some.inj hindex
    exact ⟨fun _ => nofun, fun _ => .call ..⟩
  · cases hindex

/-! ## Fixes -/

/-- The fix of a reported access calls `at` on the receiver, with a text for the key. Where the key
is a number that a numeral can have, the text stands for the key exactly if the number is finite; the
text for any other key always does. -/
theorem check_fix_denotes_key (file : SourceFile) {d : Diagnostic} (hd : d ∈ check file) :
    ∃ span receiver key optional text,
      .index span receiver key optional ∈ file.program.expressions ∧ d.span = span ∧
      d.fixes = [⟨span, String.ofList (receiver.span.text file.source ++
        (if optional then "?.at(".toList else ".at(".toList) ++ text ++ [')']),
        some "Use `.at()`"⟩] ∧
      ((∀ v, literal? key = some v → ∃ s rest, Script.numeral s = some (.number v, rest)) →
        (Denotes file.source key text ↔ ∀ v, literal? key = some v → v.isFinite = true)) := by
  rw [check_eq] at hd
  obtain ⟨e, he, hcheck⟩ := List.mem_filterMap.mp hd
  obtain ⟨span, receiver, key, optional, rfl⟩ := eq_index_of_checkAccess hcheck
  obtain ⟨-, index, hindex, rfl⟩ := checkAccess_index_iff.mp hcheck
  refine ⟨span, receiver, key, optional, index.text, he, rfl, rfl, fun hnumeral => ?_⟩
  refine denotes_index_iff hindex fun v hv => ?_
  obtain ⟨s, rest, hs⟩ := hnumeral v hv
  exact Script.isLiteralValue_of_numeral hs

/-- A hexadecimal index is written in decimal digits. -/
theorem check_fix_denotes_key_hexadecimal :
    let key : Expr := .number ⟨3, 7⟩ (.ofNat 31)
    let file : SourceFile :=
      ⟨"a.ts", "xs[0x1F];".toList,
        ⟨⟨0, 9⟩, [.expression ⟨0, 9⟩ (.index ⟨0, 8⟩ (.name ⟨0, 2⟩ "xs") key false)], []⟩, none⟩
    ∃ d ∈ check file, ∃ text,
      d.fixes = [⟨⟨0, 8⟩, String.ofList ("xs".toList ++ ".at(".toList ++ text ++ [')']),
        some "Use `.at()`"⟩] ∧ Denotes file.source key text := by
  intro key file
  have hd : complaint file.source ⟨0, 8⟩ (.name ⟨0, 2⟩ "xs") false (.numeric "31".toList) ∈
      check file := by decide
  obtain ⟨span, receiver, key', optional, text, hmem, -, hfixes, hdenotes⟩ :=
    check_fix_denotes_key file hd
  have heq : Expr.index span receiver key' optional =
      .index ⟨0, 8⟩ (.name ⟨0, 2⟩ "xs") key false := by
    rcases List.mem_cons.mp hmem with heq | hmem
    · exact heq
    · rcases List.mem_cons.mp hmem with heq | hmem
      · cases heq
      · exact absurd (List.mem_singleton.mp hmem) nofun
  cases heq
  refine ⟨_, hd, text, hfixes, (hdenotes fun v hv => ?_).mpr fun v hv => ?_⟩
  · obtain rfl := Option.some.inj hv
    exact ⟨"0x1F];".toList, "];".toList, by decide⟩
  · obtain rfl := Option.some.inj hv
    decide

/-- An index that is too large for a number is written as a name. -/
theorem check_writes_infinity_as_name :
    ((SourceFile.read "a.ts" "xs[1e999];" false).toOption.map fun file =>
      (file.program.expressions.filterMap literal?, (check file).map (·.fixes))) =
      some ([.infinite false], [[⟨⟨0, 9⟩, "xs.at(inf)", some "Use `.at()`"⟩]]) ∧
    ∀ source span, ¬ Denotes source (.number span (.infinite false)) "inf".toList := by
  refine ⟨by decide +kernel, fun source span hdenotes => ?_⟩
  cases hdenotes with
  | number _ hreads => exact not_readsAs_infinite _ hreads

end ComponentLint.ArrayAccess
