import ComponentLint.Proofs.Trimming
import ComponentLint.Selector
import Mathlib.Data.List.Infix
import Mathlib.Logic.Relation

/-!
# Deleting the calls of a selector

Calls of pseudo-classes are deleted from the inside out until none is left. One deletion of one call
is a step on texts (`Deletes`). Two calls in a text never overlap, so two steps can be made in either
order, and what is left in the end does not depend on the order (`deleteCalls_eq`). A reader of the
other passes only has to know that a text comes down to another one without calls, by whatever steps.

A character that belongs to no call parts a text if no parenthesis is open before it
(`deleteCalls_append`).
-/

namespace ComponentLint.Selector

/-! ## Names -/

/-- A name: one or more name characters. -/
structure IsName (n : List Char) : Prop where
  ne_nil : n ≠ []
  chars : ∀ c ∈ n, isNameChar c = true

instance (n : List Char) : Decidable (IsName n) :=
  decidable_of_iff (n ≠ [] ∧ n.all isNameChar = true) (by
    rw [List.all_eq_true]
    exact ⟨fun h => ⟨h.1, h.2⟩, fun h => ⟨h.ne_nil, h.chars⟩⟩)

/-- A text that does not begin with a name character, so that it ends the name before it. -/
def EndsName (s : List Char) : Prop := ∀ c ∈ s.head?, isNameChar c = false

theorem EndsName.cons {c : Char} (hc : isNameChar c = false) (s : List Char) : EndsName (c :: s) := by
  rintro c' ⟨⟩
  exact hc

theorem IsName.notMem {n : List Char} (h : IsName n) {c : Char} (hc : isNameChar c = false) :
    c ∉ n := by
  intro hmem
  rw [h.chars c hmem] at hc
  cases hc

theorem takeWhile_name {n s : List Char} (hn : ∀ c ∈ n, isNameChar c = true) (hs : EndsName s) :
    (n ++ s).takeWhile isNameChar = n := by
  rw [List.takeWhile_append_of_pos hn]
  cases s with
  | nil => simp
  | cons c s => rw [List.takeWhile_cons_of_neg (by simpa using hs c rfl), List.append_nil]

theorem IsName.nameLength_append {n s : List Char} (h : IsName n) (hs : EndsName s) :
    nameLength (n ++ s) = n.length := by
  rw [nameLength, takeWhile_name h.chars hs]

/-- The codes of all blanks. -/
def blankCodes : List Nat :=
  List.range' 0x09 5 ++ [0x20, 0x85, 0xA0, 0x1680] ++ List.range' 0x2000 11 ++
    [0x2028, 0x2029, 0x202F, 0x205F, 0x3000]

theorem toNat_mem_blankCodes {c : Char} (h : Text.isBlank c = true) : c.toNat ∈ blankCodes := by
  simp only [Text.isBlank, Bool.or_eq_true, Bool.and_eq_true, decide_eq_true_eq, beq_iff_eq] at h
  simp only [blankCodes, List.mem_append, List.mem_range'_1, List.mem_cons, List.not_mem_nil]
  omega

/-- What holds of all blanks can be seen from their codes. -/
theorem of_isBlank {p : Char → Bool} (h : ∀ n ∈ blankCodes, p (Char.ofNat n) = true) {c : Char}
    (hc : Text.isBlank c = true) : p c = true := by
  have hp := h c.toNat (toNat_mem_blankCodes hc)
  rwa [Char.ofNat_toNat] at hp

/-- No blank stands in a name. -/
theorem isNameChar_of_isBlank {c : Char} (h : Text.isBlank c = true) : isNameChar c = false := by
  have hnot := @of_isBlank (!isNameChar ·) (by decide +kernel) c h
  simpa using hnot

/-! ## Deleting pieces -/

section Pieces

variable {piece : List Char → Nat}

theorem deleteFrom_eq (n : Nat) (s : List Char) :
    deleteFrom piece n s = deleteAll piece (s.drop n) := by
  induction n generalizing s with
  | zero => rfl
  | succ n ih =>
    cases s with
    | nil => rfl
    | cons c s => exact ih s

/-- Where no piece begins, a character stays. -/
theorem deleteAll_cons {c : Char} {s : List Char} (h : piece (c :: s) = 0) :
    deleteAll piece (c :: s) = c :: deleteAll piece s := by
  rw [deleteAll, deleteFrom, h]
  rfl

/-- A piece at the beginning of a text goes. -/
theorem deleteAll_drop {s : List Char} (h : 0 < piece s) :
    deleteAll piece s = deleteAll piece (s.drop (piece s)) := by
  obtain ⟨n, hn⟩ := Nat.exists_eq_add_of_lt h
  rw [Nat.zero_add] at hn
  cases s with
  | nil => rw [List.drop_nil]
  | cons c s =>
    rw [deleteAll, deleteFrom, hn, List.drop_succ_cons, ← deleteFrom_eq]

theorem deleteAll_piece {m s : List Char} (hm : m ≠ []) (h : piece (m ++ s) = m.length) :
    deleteAll piece (m ++ s) = deleteAll piece s := by
  rw [deleteAll_drop (by rw [h]; exact List.length_pos_iff.mpr hm), h, List.drop_left]

/-- Where no piece begins inside of a text, all of it stays. -/
theorem deleteAll_keep {m s : List Char} (h : ∀ t, t <:+ m → t ≠ [] → piece (t ++ s) = 0) :
    deleteAll piece (m ++ s) = m ++ deleteAll piece s := by
  induction m with
  | nil => rfl
  | cons c m ih =>
    have hm : ∀ t, t <:+ m → t ≠ [] → piece (t ++ s) = 0 :=
      fun t ht => h t (ht.trans (List.suffix_cons c m))
    have hhere : piece (c :: (m ++ s)) = 0 := h (c :: m) List.suffix_rfl (List.cons_ne_nil c m)
    rw [List.cons_append, deleteAll_cons hhere, ih hm, List.cons_append]

/-- Induction along a deletion: a character stays, or a piece goes. -/
theorem deleteAll_induct (hle : ∀ s, piece s ≤ s.length) {motive : List Char → Prop}
    (nil : motive [])
    (keep : ∀ c s, piece (c :: s) = 0 → motive s → motive (c :: s))
    (delete : ∀ m s, m ≠ [] → piece (m ++ s) = m.length → motive s → motive (m ++ s))
    (s : List Char) : motive s := by
  generalize hn : s.length = n
  induction n using Nat.strong_induction_on generalizing s with
  | _ n ih =>
    by_cases hpiece : 0 < piece s
    · have hlength : (s.take (piece s)).length = piece s := List.length_take_of_le (hle s)
      have hdrop : (s.drop (piece s)).length < n := by
        have := hle s
        rw [List.length_drop]
        omega
      have hrest := delete (s.take (piece s)) (s.drop (piece s))
        (List.length_pos_iff.mp (by omega)) (by rw [List.take_append_drop, hlength])
        (ih _ hdrop _ rfl)
      rwa [List.take_append_drop] at hrest
    · cases s with
      | nil => exact nil
      | cons c s =>
        rw [List.length_cons] at hn
        exact keep c s (by omega) (ih s.length (by omega) s rfl)

variable (hle : ∀ s, piece s ≤ s.length)
include hle

theorem deleteAll_sublist (s : List Char) : (deleteAll piece s).Sublist s := by
  induction s using deleteAll_induct hle with
  | nil => exact List.Sublist.slnil
  | keep c s h ih =>
    rw [deleteAll_cons h]
    exact ih.cons_cons c
  | delete m s hm h ih =>
    rw [deleteAll_piece hm h]
    exact ih.trans (List.sublist_append_right m s)

/-- If a text gets no shorter, a piece begins nowhere in it. -/
theorem piece_eq_zero_of_length_le {s : List Char} (h : s.length ≤ (deleteAll piece s).length) :
    ∀ t, t <:+ s → piece t = 0 := by
  induction s using deleteAll_induct hle with
  | nil =>
    intro t ht
    obtain rfl := List.suffix_nil.mp ht
    exact Nat.le_zero.mp (hle [])
  | keep c s hzero ih =>
    rw [deleteAll_cons hzero, List.length_cons, List.length_cons] at h
    intro t ht
    rcases List.suffix_cons_iff.mp ht with rfl | ht
    · exact hzero
    · exact ih (by omega) t ht
  | delete m s hm hpiece _ =>
    have hshorter := (deleteAll_sublist hle s).length_le
    have hpos := List.length_pos_iff.mpr hm
    rw [deleteAll_piece hm hpiece, List.length_append] at h
    omega

/-- Two texts are treated apart if every place of the first is judged without the second. -/
theorem deleteAll_append {p r : List Char}
    (h : ∀ t, t <:+ p → t ≠ [] → piece (t ++ r) = piece t) :
    deleteAll piece (p ++ r) = deleteAll piece p ++ deleteAll piece r := by
  induction p using deleteAll_induct hle with
  | nil => rfl
  | keep c p hzero ih =>
    have hhere : piece (c :: (p ++ r)) = 0 :=
      (h (c :: p) List.suffix_rfl (List.cons_ne_nil c p)).trans hzero
    rw [List.cons_append, deleteAll_cons hhere, deleteAll_cons hzero, List.cons_append,
      ih fun t ht => h t (ht.trans (List.suffix_cons c p))]
  | delete m p hm hpiece ih =>
    have hhere : piece (m ++ (p ++ r)) = m.length := by
      rw [← hpiece, ← h (m ++ p) List.suffix_rfl (List.append_ne_nil_of_left_ne_nil hm p),
        List.append_assoc]
    rw [List.append_assoc, deleteAll_piece hm hhere, deleteAll_piece hm hpiece,
      ih fun t ht => h t (ht.trans (List.suffix_append m p))]

end Pieces

/-! ## Calls -/

/-- The call of a pseudo-class with no parentheses in its arguments. -/
inductive IsCall : List Char → Prop
  | mk (n a : List Char) (hn : IsName n) (ha : ∀ c ∈ a, isArgumentChar c = true) :
      IsCall (':' :: n ++ '(' :: (a ++ [')']))

theorem pseudoClass_append {n s : List Char} (hn : IsName n) (hs : EndsName s) :
    pseudoClass (':' :: (n ++ s)) = n.length + 1 := by
  have hlength : nameLength (n ++ s) = n.length := hn.nameLength_append hs
  have hpos := List.length_pos_iff.mpr hn.ne_nil
  rw [pseudoClass, hlength, if_neg (by omega)]

theorem arguments_append {a : List Char} (ha : ∀ c ∈ a, isArgumentChar c = true) (s : List Char) :
    arguments ('(' :: (a ++ ')' :: s)) = a.length + 2 := by
  have hclose : ¬ isArgumentChar ')' = true := by decide
  simp only [arguments, List.dropWhile_append_of_pos ha, List.takeWhile_append_of_pos ha,
    List.dropWhile_cons_of_neg hclose, List.takeWhile_cons_of_neg hclose, List.append_nil]

theorem IsCall.pseudoCall_append {m : List Char} (hm : IsCall m) (s : List Char) :
    pseudoCall (m ++ s) = m.length := by
  obtain ⟨n, a, hn, ha⟩ := hm
  have hshape : ':' :: n ++ '(' :: (a ++ [')']) ++ s = ':' :: (n ++ '(' :: (a ++ ')' :: s)) := by
    simp
  have hname := pseudoClass_append hn (EndsName.cons (c := '(') (by decide) (a ++ ')' :: s))
  have hdrop : (':' :: (n ++ '(' :: (a ++ ')' :: s))).drop (n.length + 1) =
      '(' :: (a ++ ')' :: s) := by
    rw [List.drop_succ_cons, List.drop_left]
  simp only [hshape, pseudoCall, hname, hdrop, arguments_append ha]
  rw [if_neg (Nat.succ_ne_zero _), if_neg (Nat.succ_ne_zero _)]
  simp only [List.length_append, List.length_cons, List.length_nil]

theorem exists_of_pseudoClass_pos {s : List Char} (h : 0 < pseudoClass s) :
    ∃ n r, IsName n ∧ s = ':' :: (n ++ r) ∧ pseudoClass s = n.length + 1 := by
  rw [pseudoClass.eq_def] at h ⊢
  split at h
  · next rest =>
    split_ifs at h with hname
    · exact absurd h (Nat.lt_irrefl 0)
    · refine ⟨rest.takeWhile isNameChar, rest.dropWhile isNameChar, ⟨?_, ?_⟩, ?_, ?_⟩
      · exact List.length_pos_iff.mp (Nat.pos_of_ne_zero hname)
      · exact fun c hc => List.mem_takeWhile_imp hc
      · rw [List.takeWhile_append_dropWhile]
      · rw [if_neg hname, nameLength]
  · exact absurd h (Nat.lt_irrefl 0)

theorem exists_of_arguments_pos {s : List Char} (h : 0 < arguments s) :
    ∃ a r, (∀ c ∈ a, isArgumentChar c = true) ∧ s = '(' :: (a ++ ')' :: r) := by
  rw [arguments.eq_def] at h
  split at h
  · next rest =>
    split at h
    · next r hr =>
      refine ⟨rest.takeWhile isArgumentChar, r, fun c hc => List.mem_takeWhile_imp hc, ?_⟩
      rw [← hr, List.takeWhile_append_dropWhile]
    · exact absurd h (Nat.lt_irrefl 0)
  · exact absurd h (Nat.lt_irrefl 0)

/-- What the search finds is a call. -/
theorem exists_isCall_of_pos {s : List Char} (h : 0 < pseudoCall s) :
    ∃ m r, IsCall m ∧ s = m ++ r := by
  by_cases hname : 0 < pseudoClass s
  · obtain ⟨n, r, hn, rfl, hlength⟩ := exists_of_pseudoClass_pos hname
    by_cases hargs : 0 < arguments r
    · obtain ⟨a, r', ha, rfl⟩ := exists_of_arguments_pos hargs
      exact ⟨_, r', IsCall.mk n a hn ha, by simp⟩
    · have hnone : arguments r = 0 := by omega
      rw [pseudoCall, hlength, List.drop_succ_cons, List.drop_left, hnone] at h
      simp at h
  · have hnone : pseudoClass s = 0 := by omega
    rw [pseudoCall, hnone] at h
    exact absurd h (Nat.lt_irrefl 0)

theorem pseudoCall_le (s : List Char) : pseudoCall s ≤ s.length := by
  by_cases h : 0 < pseudoCall s
  · obtain ⟨m, r, hm, rfl⟩ := exists_isCall_of_pos h
    rw [hm.pseudoCall_append, List.length_append]
    omega
  · omega

theorem IsCall.head {m : List Char} (hm : IsCall m) : ∃ r, m = ':' :: r := by
  obtain ⟨n, a, -, -⟩ := hm
  exact ⟨_, rfl⟩

theorem IsCall.ne_nil {m : List Char} (hm : IsCall m) : m ≠ [] := by
  obtain ⟨r, rfl⟩ := hm.head
  exact List.cons_ne_nil ':' r

theorem ne_of_isArgumentChar {c : Char} (h : isArgumentChar c = true) : c ≠ '(' ∧ c ≠ ')' := by
  simpa [isArgumentChar] using h

/-- Inside of a call no other one begins. -/
theorem IsCall.not_inside {w x v m r : List Char} (hm : IsCall (w ++ x)) (hw : w ≠ []) (hx : x ≠ [])
    (hm' : IsCall m) : x ++ v ≠ m ++ r := by
  intro heq
  generalize hwx : w ++ x = call at hm
  obtain ⟨n, a, hn, ha⟩ := hm
  obtain ⟨n', a', hn', -⟩ := hm'
  obtain ⟨e, w, rfl⟩ := List.exists_cons_of_ne_nil hw
  obtain ⟨e', x, rfl⟩ := List.exists_cons_of_ne_nil hx
  obtain ⟨rfl, heq⟩ := List.cons.inj heq
  obtain ⟨-, hwx⟩ := List.cons.inj hwx
  -- The colon stands in the arguments, since there is none in the name.
  rcases Text.append_cons_eq_append_cons (by decide) hwx with ⟨s, rfl, hs⟩ | ⟨s, rfl, -⟩
  · rcases Text.append_cons_eq_append_cons (by decide) hs with ⟨t, rfl, rfl⟩ | ⟨t, -, ht⟩
    · -- A parenthesis would have to open behind it, before the one that closes the call.
      have heq' : t ++ ')' :: v = n' ++ '(' :: (a' ++ ')' :: r) := by simpa using heq
      rcases Text.append_cons_eq_append_cons (by decide) heq' with ⟨u, rfl, -⟩ | ⟨u, rfl, -⟩
      · exact (ne_of_isArgumentChar (ha '(' (by simp))).1 rfl
      · exact hn'.notMem (c := ')') (by decide) (by simp)
    · exact absurd ht (by simp)
  · exact hn.notMem (c := ':') (by decide) (by simp)

/-- Two calls at one place are one call. -/
theorem IsCall.unique {m m' r r' : List Char} (hm : IsCall m) (hm' : IsCall m')
    (heq : m ++ r = m' ++ r') : m = m' ∧ r = r' := by
  refine List.append_inj heq ?_
  rw [← hm.pseudoCall_append r, ← hm'.pseudoCall_append r', heq]

/-- Of two calls in a text that begin at different places, one ends before the other begins. -/
theorem IsCall.apart {m v w m' v' : List Char} (hm : IsCall m) (hm' : IsCall m')
    (heq : m ++ v = w ++ (m' ++ v')) :
    (w = [] ∧ v = v') ∨ ∃ x, w = m ++ x ∧ v = x ++ (m' ++ v') := by
  rcases List.append_eq_append_iff.mp heq with ⟨x, hw, hv⟩ | ⟨x, rfl, hx⟩
  · exact Or.inr ⟨x, hw, hv⟩
  · by_cases hw : w = []
    · subst hw
      exact Or.inl ⟨rfl, (hm.unique hm' heq).2⟩
    · by_cases hx' : x = []
      · subst hx'
        exact Or.inr ⟨[], by simp, hx.symm⟩
      · exact absurd hx.symm (hm.not_inside hw hx' hm')

/-! ## One deletion -/

/-- One call is deleted. -/
inductive Deletes : List Char → List Char → Prop
  | mk (u m v : List Char) (hm : IsCall m) : Deletes (u ++ m ++ v) (u ++ v)

/-- Calls are deleted one after another. -/
abbrev Reduces : List Char → List Char → Prop := Relation.ReflTransGen Deletes

/-- A text without calls. -/
def CallFree (s : List Char) : Prop := ∀ t, ¬ Deletes s t

theorem Deletes.around {s t : List Char} (h : Deletes s t) (x y : List Char) :
    Deletes (x ++ s ++ y) (x ++ t ++ y) := by
  obtain ⟨u, m, v, hm⟩ := h
  have hstep := Deletes.mk (x ++ u) m (v ++ y) hm
  simpa using hstep

theorem Reduces.around {s t : List Char} (h : Reduces s t) (x y : List Char) :
    Reduces (x ++ s ++ y) (x ++ t ++ y) :=
  h.lift (fun w => x ++ w ++ y) fun _ _ hstep => hstep.around x y

theorem Reduces.append {s s' t t' : List Char} (hs : Reduces s s') (ht : Reduces t t') :
    Reduces (s ++ t) (s' ++ t') := by
  have hfirst : Reduces (s ++ t) (s' ++ t) := by simpa using hs.around [] t
  have hsecond : Reduces (s' ++ t) (s' ++ t') := by simpa using ht.around s' []
  exact hfirst.trans hsecond

theorem Reduces.cons {s t : List Char} (h : Reduces s t) (c : Char) :
    Reduces (c :: s) (c :: t) := by
  simpa using h.around [c] []

/-- Two deletions can be made in either order. -/
theorem Deletes.diamond {s t₁ t₂ : List Char} (h₁ : Deletes s t₁) (h₂ : Deletes s t₂) :
    t₁ = t₂ ∨ ∃ d, Deletes t₁ d ∧ Deletes t₂ d := by
  have hapart : ∀ {u m x m' v : List Char}, IsCall m → IsCall m' →
      Deletes (u ++ (x ++ (m' ++ v))) (u ++ (x ++ v)) ∧
        Deletes (u ++ (m ++ x) ++ v) (u ++ (x ++ v)) := by
    intro u m x m' v hm hm'
    constructor
    · simpa using Deletes.mk (u ++ x) m' v hm'
    · simpa using Deletes.mk u m (x ++ v) hm
  obtain ⟨u₁, m₁, v₁, hm₁⟩ := h₁
  generalize hs : u₁ ++ m₁ ++ v₁ = s at h₂
  obtain ⟨u₂, m₂, v₂, hm₂⟩ := h₂
  rw [List.append_assoc, List.append_assoc] at hs
  rcases List.append_eq_append_iff.mp hs with ⟨w, rfl, heq⟩ | ⟨w, rfl, heq⟩
  · rcases hm₁.apart hm₂ heq with ⟨rfl, rfl⟩ | ⟨x, rfl, rfl⟩
    · exact Or.inl (by simp)
    · exact Or.inr ⟨_, hapart hm₁ hm₂⟩
  · rcases hm₂.apart hm₁ heq with ⟨rfl, rfl⟩ | ⟨x, rfl, rfl⟩
    · exact Or.inl (by simp)
    · exact Or.inr ⟨_, (hapart hm₂ hm₁).symm⟩

theorem CallFree.eq_of_reduces {s t : List Char} (hs : CallFree s) (h : Reduces s t) : t = s := by
  rcases h.cases_head with rfl | ⟨w, hstep, -⟩
  · rfl
  · exact absurd hstep (hs w)

/-- What is left without calls does not depend on the order of the deletions. -/
theorem Reduces.unique {s t₁ t₂ : List Char} (h₁ : Reduces s t₁) (h₂ : Reduces s t₂)
    (hfree₁ : CallFree t₁) (hfree₂ : CallFree t₂) : t₁ = t₂ := by
  obtain ⟨d, hd₁, hd₂⟩ := Relation.church_rosser
    (fun a b c hab hac => by
      rcases Deletes.diamond hab hac with rfl | ⟨d, hbd, hcd⟩
      · exact ⟨b, .refl, .refl⟩
      · exact ⟨d, .single hbd, .single hcd⟩) h₁ h₂
  rw [← hfree₁.eq_of_reduces hd₁, ← hfree₂.eq_of_reduces hd₂]

/-! ## The deletion of all calls -/

theorem callFree_iff {s : List Char} : CallFree s ↔ ∀ t, t <:+ s → pseudoCall t = 0 := by
  constructor
  · rintro h t ⟨u, rfl⟩
    by_contra hne
    obtain ⟨m, r, hm, rfl⟩ := exists_isCall_of_pos (Nat.pos_of_ne_zero hne)
    refine h (u ++ r) ?_
    rw [← List.append_assoc]
    exact .mk u m r hm
  · rintro h t ⟨u, m, v, hm⟩
    have hzero := h (m ++ v) ⟨u, (List.append_assoc u m v).symm⟩
    rw [hm.pseudoCall_append] at hzero
    exact hm.ne_nil (List.length_eq_zero_iff.mp hzero)

/-- A pass over a text deletes calls and nothing else. -/
theorem reduces_deleteAll (s : List Char) : Reduces s (deleteAll pseudoCall s) := by
  induction s using deleteAll_induct pseudoCall_le with
  | nil => exact .refl
  | keep c s h ih =>
    rw [deleteAll_cons h]
    exact ih.cons c
  | delete m s hm h ih =>
    have hpos : 0 < pseudoCall (m ++ s) := by
      rw [h]
      exact List.length_pos_iff.mpr hm
    obtain ⟨m', r, hm', heq⟩ := exists_isCall_of_pos hpos
    obtain ⟨rfl, -⟩ := List.append_inj heq (by rw [← h, heq, hm'.pseudoCall_append])
    rw [deleteAll_piece hm h]
    exact Relation.ReflTransGen.head (Deletes.mk [] m s hm') ih

theorem reduces_deleteCalls (s : List Char) : Reduces s (deleteCalls s) := by
  fun_induction deleteCalls s with
  | case1 s _ ih => exact (reduces_deleteAll s).trans ih
  | case2 s _ => exact .refl

theorem callFree_deleteCalls (s : List Char) : CallFree (deleteCalls s) := by
  fun_induction deleteCalls s with
  | case1 s _ ih => exact ih
  | case2 s hlength =>
    exact callFree_iff.mpr (piece_eq_zero_of_length_le pseudoCall_le (Nat.not_lt.mp hlength))

/-- Whatever order calls are deleted in, all that is left without calls is what `deleteCalls`
leaves. -/
theorem deleteCalls_eq {s t : List Char} (h : Reduces s t) (ht : CallFree t) : deleteCalls s = t :=
  (reduces_deleteCalls s).unique h (callFree_deleteCalls s) ht

/-! ## Texts side by side -/

theorem callFree_of_notMem {s : List Char} (h : '(' ∉ s) : CallFree s := by
  rintro t ⟨u, m, v, n, a, -, -⟩
  exact h (by simp)

/-- Whether all parentheses that open in a text are closed in it: from every place on there are at
least as many that close as open. -/
def Closed (s : List Char) : Prop := ∀ t ∈ s.tails, t.count '(' ≤ t.count ')'

instance (s : List Char) : Decidable (Closed s) :=
  inferInstanceAs (Decidable (∀ t ∈ s.tails, t.count '(' ≤ t.count ')'))

theorem Closed.of_suffix {s t : List Char} (h : Closed s) (ht : t <:+ s) :
    t.count '(' ≤ t.count ')' := h t ((List.mem_tails t s).mpr ht)

theorem closed_iff {s : List Char} : Closed s ↔ ∀ t, t <:+ s → t.count '(' ≤ t.count ')' := by
  simp only [Closed, List.mem_tails]

theorem Closed.suffix {s t : List Char} (h : Closed s) (ht : t <:+ s) : Closed t :=
  closed_iff.mpr fun _ hx => h.of_suffix (hx.trans ht)

/-- Closed texts in a row are closed. -/
theorem Closed.append {s t : List Char} (hs : Closed s) (ht : Closed t) : Closed (s ++ t) := by
  rw [closed_iff]
  intro x hx
  rcases Text.suffix_append_cases hx with hx | ⟨y, hy, rfl⟩
  · exact ht.of_suffix hx
  · have hfirst := hs.of_suffix hy
    have hsecond := ht.of_suffix List.suffix_rfl
    rw [List.count_append, List.count_append]
    omega

theorem Closed.of_notMem {s : List Char} (h : '(' ∉ s) : Closed s := by
  rw [closed_iff]
  intro t ht
  rw [List.count_eq_zero_of_not_mem fun hmem => h (ht.mem hmem)]
  exact Nat.zero_le _

theorem Closed.enclosed {s : List Char} (h : Closed s) : Closed ('(' :: (s ++ [')'])) := by
  have hclose : Closed [')'] := .of_notMem (by decide)
  rw [closed_iff]
  intro t ht
  rcases List.suffix_cons_iff.mp ht with rfl | ht
  · have := h.of_suffix List.suffix_rfl
    simp only [List.count_cons, List.count_append, List.count_nil]
    simp
    omega
  · exact (h.append hclose).of_suffix ht

/-- A deletion takes as many parentheses that open as close. -/
theorem Closed.of_deletes {s t : List Char} (hs : Closed s) (h : Deletes s t) : Closed t := by
  obtain ⟨u, m, v, n, a, hn, ha⟩ := h
  have hname : ∀ c, isNameChar c = false → n.count c = 0 :=
    fun c hc => List.count_eq_zero_of_not_mem (hn.notMem hc)
  have harguments : ∀ c, isArgumentChar c = false → a.count c = 0 := by
    intro c hc
    refine List.count_eq_zero_of_not_mem fun hmem => ?_
    rw [ha c hmem] at hc
    cases hc
  rw [closed_iff]
  intro t ht
  rcases Text.suffix_append_cases ht with ht | ⟨x, hx, rfl⟩
  · exact hs.of_suffix (ht.trans (List.suffix_append _ v))
  · obtain ⟨u, rfl⟩ := hx
    have hcount := hs.of_suffix (t := x ++ (':' :: n ++ '(' :: (a ++ [')']) ++ v))
      ⟨u, by simp⟩
    simp [hname '(' (by decide), hname ')' (by decide), harguments '(' (by decide),
      harguments ')' (by decide)] at hcount
    rw [List.count_append, List.count_append]
    omega

theorem Closed.of_reduces {s t : List Char} (hs : Closed s) (h : Reduces s t) : Closed t := by
  induction h with
  | refl => exact hs
  | tail _ hstep ih => exact ih.of_deletes hstep

/-- The characters that no deletion goes across, unless it deletes parentheses or brackets with
all that they hold. -/
def isBarrier (c : Char) : Bool := !isNameChar c && c != ':' && c != '(' && c != ')' && c != '['

theorem isBarrier_iff {c : Char} :
    isBarrier c = true ↔ isNameChar c = false ∧ c ≠ ':' ∧ c ≠ '(' ∧ c ≠ ')' ∧ c ≠ '[' := by
  simp [isBarrier, and_assoc]

/-- No call goes across a barrier if the parentheses before it are closed, or if none is closed
behind it. -/
theorem pseudoCall_append {p r : List Char} {c : Char} (hc : isBarrier c = true)
    (hclosed : Closed p ∨ ')' ∉ r) :
    ∀ t, t <:+ p → t ≠ [] → pseudoCall (t ++ c :: r) = pseudoCall t := by
  intro t ht hne
  obtain ⟨hname, -, hopen, hclose, -⟩ := isBarrier_iff.mp hc
  by_cases hpos : 0 < pseudoCall t
  · obtain ⟨m, r', hm, rfl⟩ := exists_isCall_of_pos hpos
    rw [List.append_assoc, hm.pseudoCall_append, hm.pseudoCall_append]
  by_contra hacross
  obtain ⟨m, r', hm, heq⟩ := exists_isCall_of_pos (s := t ++ c :: r) (by omega)
  obtain ⟨n, a, hn, ha⟩ := id hm
  obtain ⟨e, t, rfl⟩ := List.exists_cons_of_ne_nil hne
  obtain ⟨rfl, heq'⟩ : e = ':' ∧ t ++ c :: r = n ++ '(' :: (a ++ ')' :: r') := by simpa using heq
  -- The barrier stands behind the parenthesis that opens, and before the one that closes.
  rcases Text.append_cons_eq_append_cons hopen heq' with ⟨s, rfl, hs⟩ | ⟨s, rfl, -⟩
  · rcases Text.append_cons_eq_append_cons hclose.symm hs with ⟨u, rfl, rfl⟩ | ⟨u, rfl, -⟩
    · rcases hclosed with hclosed | hclosed
      · have hcount := hclosed.of_suffix (t := '(' :: s) ((List.suffix_append (':' :: n) _).trans ht)
        have hnone : s.count ')' = 0 := List.count_eq_zero_of_not_mem fun hmem =>
          (ne_of_isArgumentChar (ha ')' (by simp [hmem]))).2 rfl
        rw [List.count_cons_self, List.count_cons_of_ne (by decide), hnone] at hcount
        omega
      · exact hclosed (by simp)
    · refine hpos ?_
      have hcall := hm.pseudoCall_append u
      have hshape : ':' :: (n ++ '(' :: (a ++ ')' :: u)) = ':' :: n ++ '(' :: (a ++ [')']) ++ u := by
        simp
      rw [hshape, hcall]
      exact List.length_pos_iff.mpr hm.ne_nil
  · rw [hn.chars c (by simp)] at hname
    cases hname

theorem pseudoCall_cons {c : Char} (hc : c ≠ ':') (s : List Char) : pseudoCall (c :: s) = 0 := by
  by_contra hne
  obtain ⟨m, r, hm, heq⟩ := exists_isCall_of_pos (Nat.pos_of_ne_zero hne)
  obtain ⟨t, rfl⟩ := hm.head
  exact hc (List.cons.inj heq).1

theorem CallFree.cons {c : Char} {s : List Char} (hs : CallFree s) (hc : c ≠ ':') :
    CallFree (c :: s) := by
  rw [callFree_iff] at hs ⊢
  intro t ht
  rcases List.suffix_cons_iff.mp ht with rfl | ht
  · exact pseudoCall_cons hc s
  · exact hs t ht

theorem CallFree.append {p r : List Char} {c : Char} (hp : CallFree p) (hr : CallFree r)
    (hc : isBarrier c = true) (hclosed : Closed p ∨ ')' ∉ r) : CallFree (p ++ c :: r) := by
  have hrest := hr.cons (isBarrier_iff.mp hc).2.1
  rw [callFree_iff] at hp hrest ⊢
  intro t ht
  rcases Text.suffix_append_cases ht with hsuffix | ⟨x, hx, rfl⟩
  · exact hrest t hsuffix
  · by_cases hne : x = []
    · subst hne
      exact hrest _ List.suffix_rfl
    · rw [pseudoCall_append hc hclosed x hx hne]
      exact hp x hx

theorem notMem_of_reduces {c : Char} {s t : List Char} (h : Reduces s t) (hs : c ∉ s) : c ∉ t := by
  induction h with
  | refl => exact hs
  | tail _ hstep ih =>
    obtain ⟨u, m, v, -⟩ := hstep
    intro hmem
    exact ih (by rcases List.mem_append.mp hmem with h | h <;> simp [h])

/-- The calls before a barrier and those behind it are deleted apart. -/
theorem deleteCalls_append {p r : List Char} {c : Char} (hc : isBarrier c = true)
    (hclosed : Closed p ∨ ')' ∉ r) :
    deleteCalls (p ++ c :: r) = deleteCalls p ++ c :: deleteCalls r := by
  refine deleteCalls_eq ((reduces_deleteCalls p).append ((reduces_deleteCalls r).cons c)) ?_
  refine (callFree_deleteCalls p).append (callFree_deleteCalls r) hc ?_
  exact hclosed.imp (fun h => h.of_reduces (reduces_deleteCalls p))
    (notMem_of_reduces (reduces_deleteCalls r))

end ComponentLint.Selector
