import ComponentLint.Proofs.SelectorResidue

/-!
# Selectors that stay with their element

A selector may be written from pseudo-elements, pseudo-classes, calls of pseudo-classes with
arguments of any depth, attributes and separators (`Token`). Each pass deletes the tokens of one kind
and leaves the others in place, if only with less text inside of them (`passes_texts`). So nothing
remains of such a text (`residue_texts`), and the selector does not reach other elements
(`reachesOthers_own`). Neither does the text leave anything open for what stands behind it: a
combinator behind it remains, and so does the beginning of a descendant (`reachesOthers_behind_own`).
-/

namespace ComponentLint.Selector

/-! ## Tokens -/

/-- The arguments of a call: characters other than parentheses and colons, pseudo-classes,
pseudo-elements and calls. No part begins with a parenthesis, so none stands behind a name that is
not called. -/
inductive Arguments : List Char → Prop
  | nil : Arguments []
  | char {c : Char} {s : List Char} (hc : isArgumentChar c = true) (hcolon : c ≠ ':')
      (rest : Arguments s) : Arguments (c :: s)
  | pseudoClass {n s : List Char} (hn : IsName n) (rest : Arguments s) : Arguments (':' :: (n ++ s))
  | pseudoElement {n s : List Char} (hn : IsName n) (rest : Arguments s) :
      Arguments (':' :: ':' :: (n ++ s))
  | call {n a s : List Char} (hn : IsName n) (ha : Arguments a) (rest : Arguments s) :
      Arguments (':' :: (n ++ '(' :: (a ++ ')' :: s)))

/-- A part of a selector that only refines the styled element. -/
inductive Token where
  | separator (c : Char) (hc : isSeparator c = true)
  | attributeTest (n t : List Char) (hn : IsName n) (ht : ∀ c ∈ t, c ≠ ']' ∧ isArgumentChar c = true)
  | pseudoClass (n : List Char) (hn : IsName n)
  | call (n a : List Char) (hn : IsName n) (ha : Arguments a)
  | pseudoElement (n : List Char) (hn : IsName n)

namespace Token

/-- The text of a token. -/
def text : Token → List Char
  | .separator c _ => [c]
  | .attributeTest n t _ _ => '[' :: (n ++ (t ++ [']']))
  | .pseudoClass n _ => ':' :: n
  | .call n a _ _ => ':' :: (n ++ '(' :: (a ++ [')']))
  | .pseudoElement n _ => ':' :: ':' :: n

/-- The place of a token's kind in the order of the passes, counted from the last one. No pass
deletes separators. -/
def rank : Token → Nat
  | .separator _ _ => 0
  | .attributeTest _ _ _ _ => 1
  | .pseudoClass _ _ => 2
  | .call _ _ _ _ => 3
  | .pseudoElement _ _ => 4

end Token

/-- The text of some tokens. -/
def texts (ts : List Token) : List Char := ts.flatMap Token.text

@[simp] theorem texts_nil : texts [] = [] := rfl

@[simp] theorem texts_cons (t : Token) (ts : List Token) : texts (t :: ts) = t.text ++ texts ts :=
  List.flatMap_cons

@[simp] theorem texts_append (ts us : List Token) : texts (ts ++ us) = texts ts ++ texts us :=
  List.flatMap_append

/-- Tokens of the ranks up to `k` only. -/
def UpTo (k : Nat) (ts : List Token) : Prop := ∀ t ∈ ts, t.rank ≤ k

theorem UpTo.nil (k : Nat) : UpTo k [] := fun _ h => absurd h List.not_mem_nil

theorem UpTo.single {k : Nat} {t : Token} (h : t.rank ≤ k) : UpTo k [t] := by
  intro t' ht'
  obtain rfl := List.mem_singleton.mp ht'
  exact h

theorem UpTo.append {k : Nat} {ts us : List Token} (hts : UpTo k ts) (hus : UpTo k us) :
    UpTo k (ts ++ us) := by
  intro t ht
  rcases List.mem_append.mp ht with ht | ht
  · exact hts t ht
  · exact hus t ht

theorem isNameChar_of_isSeparator {c : Char} (h : isSeparator c = true) : isNameChar c = false := by
  simp only [isSeparator, Bool.or_eq_true, beq_iff_eq] at h
  rcases h with (h | rfl) | rfl
  · exact isNameChar_of_isBlank h
  · decide
  · decide

theorem isBarrier_of_isSeparator {c : Char} (h : isSeparator c = true) : isBarrier c = true := by
  refine isBarrier_iff.mpr ⟨isNameChar_of_isSeparator h, ?_, ?_, ?_, ?_⟩
  all_goals
    rintro rfl
    exact absurd h (by decide)

/-- Tokens end the name before them. -/
theorem endsName_texts (ts : List Token) : EndsName (texts ts) := by
  cases ts with
  | nil => exact fun c hc => by cases hc
  | cons t ts =>
    rw [texts_cons]
    cases t with
    | separator c hc => exact EndsName.cons (isNameChar_of_isSeparator hc) _
    | attributeTest n t hn ht => exact EndsName.cons (by decide) _
    | pseudoClass n hn => exact EndsName.cons (by decide) _
    | call n a hn ha => exact EndsName.cons (by decide) _
    | pseudoElement n hn => exact EndsName.cons (by decide) _

/-! ## Passes over tokens -/

section Passes

variable {piece : List Char → Nat} {k : Nat}

/-- A pass takes the tokens of the highest rank if it takes each of them where it stands. -/
theorem exists_texts_deleteAll
    (hstep : ∀ t : Token, t.rank ≤ k + 1 → ∀ s, EndsName s → ∃ us, UpTo k us ∧
      deleteAll piece (t.text ++ s) = texts us ++ deleteAll piece s)
    {ts : List Token} (hts : UpTo (k + 1) ts) :
    ∃ us, UpTo k us ∧ deleteAll piece (texts ts) = texts us := by
  induction ts with
  | nil => exact ⟨[], UpTo.nil k, rfl⟩
  | cons t ts ih =>
    obtain ⟨ht, hts⟩ := List.forall_mem_cons.mp hts
    obtain ⟨us, hus, hhere⟩ := hstep t ht (texts ts) (endsName_texts ts)
    obtain ⟨vs, hvs, hrest⟩ := ih hts
    refine ⟨us ++ vs, hus.append hvs, ?_⟩
    rw [texts_cons, hhere, hrest, texts_append]

/-- A name stays where pieces begin with colons. -/
theorem deleteAll_name (hcons : ∀ c, c ≠ ':' → ∀ s, piece (c :: s) = 0) {n : List Char}
    (hn : IsName n) (s : List Char) : deleteAll piece (n ++ s) = n ++ deleteAll piece s := by
  refine deleteAll_keep fun t ht hne => ?_
  obtain ⟨c, t, rfl⟩ := List.exists_cons_of_ne_nil hne
  refine hcons c ?_ (t ++ s)
  rintro rfl
  exact hn.notMem (c := ':') (by decide) (ht.mem List.mem_cons_self)

/-- An attribute stays where pieces begin with colons, with less text in it. -/
theorem exists_attribute_deleteAll (hle : ∀ s, piece s ≤ s.length)
    (hcons : ∀ c, c ≠ ':' → ∀ s, piece (c :: s) = 0)
    (happend : ∀ t, t ≠ [] → ∀ s, piece (t ++ ']' :: s) = piece t) {n t : List Char} (hn : IsName n)
    (ht : ∀ c ∈ t, c ≠ ']' ∧ isArgumentChar c = true) (s : List Char) :
    ∃ u : Token, u.rank = 1 ∧
      deleteAll piece ((Token.attributeTest n t hn ht).text ++ s) = u.text ++ deleteAll piece s := by
  have ht' : ∀ c ∈ deleteAll piece t, c ≠ ']' ∧ isArgumentChar c = true :=
    fun c hc => ht c ((deleteAll_sublist hle t).mem hc)
  refine ⟨.attributeTest n (deleteAll piece t) hn ht', rfl, ?_⟩
  calc deleteAll piece ((Token.attributeTest n t hn ht).text ++ s)
      = deleteAll piece ('[' :: (n ++ (t ++ ']' :: s))) := by simp [Token.text]
    _ = '[' :: (n ++ deleteAll piece (t ++ ']' :: s)) := by
      rw [deleteAll_cons (hcons '[' (by decide) _), deleteAll_name hcons hn]
    _ = '[' :: (n ++ (deleteAll piece t ++ ']' :: deleteAll piece s)) := by
      rw [deleteAll_append hle fun x _ hx => happend x hx s,
        deleteAll_cons (hcons ']' (by decide) s)]
    _ = (Token.attributeTest n (deleteAll piece t) hn ht').text ++ deleteAll piece s := by
      simp [Token.text]

end Passes

/-! ## The first pass: pseudo-elements -/

theorem pseudoElement_name {n : List Char} (hn : IsName n) (s : List Char) :
    pseudoElement (':' :: (n ++ s)) = 0 := by
  obtain ⟨c, n', rfl⟩ := List.exists_cons_of_ne_nil hn.ne_nil
  have hc : c ≠ ':' := by
    rintro rfl
    exact hn.notMem (c := ':') (by decide) List.mem_cons_self
  simp [pseudoElement, hc]

/-- A name behind a colon stays. -/
theorem deleteAll_pseudoElement_name {n : List Char} (hn : IsName n) (s : List Char) :
    deleteAll pseudoElement (':' :: (n ++ s)) = ':' :: (n ++ deleteAll pseudoElement s) := by
  rw [deleteAll_cons (pseudoElement_name hn s), deleteAll_name (fun _ => pseudoElement_cons) hn]

/-- A pseudo-element goes with all that continues its name. -/
theorem deleteAll_pseudoElement_element {n : List Char} (hn : IsName n) (s : List Char) :
    deleteAll pseudoElement (':' :: ':' :: (n ++ s)) =
      deleteAll pseudoElement (s.dropWhile isNameChar) := by
  have hname : nameLength (n ++ s) = (n ++ s.takeWhile isNameChar).length := by
    rw [nameLength, List.takeWhile_append_of_pos hn.chars]
  have hpos := List.length_pos_iff.mpr hn.ne_nil
  have hlength : nameLength (n ++ s) ≠ 0 := by
    rw [hname, List.length_append]
    omega
  have hpiece : pseudoElement ((':' :: ':' :: (n ++ s.takeWhile isNameChar)) ++
      s.dropWhile isNameChar) = (':' :: ':' :: (n ++ s.takeWhile isNameChar)).length := by
    rw [List.cons_append, List.cons_append, List.append_assoc, List.takeWhile_append_dropWhile,
      pseudoElement, if_neg hlength, hname]
    rfl
  have hdelete := deleteAll_piece (List.cons_ne_nil _ _) hpiece
  rwa [List.cons_append, List.cons_append, List.append_assoc,
    List.takeWhile_append_dropWhile] at hdelete

/-- The arguments of a call are treated apart from what stands behind it. -/
theorem deleteAll_pseudoElement_call {n : List Char} (hn : IsName n) (a s : List Char) :
    deleteAll pseudoElement (':' :: (n ++ '(' :: (a ++ ')' :: s))) =
      ':' :: (n ++ '(' :: (deleteAll pseudoElement a ++ ')' :: deleteAll pseudoElement s)) := by
  rw [deleteAll_pseudoElement_name hn, deleteAll_cons (pseudoElement_cons (by decide) _),
    deleteAll_append pseudoElement_le fun x _ hx =>
      pseudoElement_append (by decide) (by decide) hx s,
    deleteAll_cons (pseudoElement_cons (by decide) s)]

namespace Arguments

theorem chars {x s : List Char} (hx : ∀ c ∈ x, isArgumentChar c = true ∧ c ≠ ':')
    (hs : Arguments s) : Arguments (x ++ s) := by
  induction x with
  | nil => exact hs
  | cons c x ih =>
    obtain ⟨⟨hc, hcolon⟩, hx⟩ := List.forall_mem_cons.mp hx
    exact char hc hcolon (ih hx)

theorem dropWhile_name {s : List Char} (h : Arguments s) : Arguments (s.dropWhile isNameChar) := by
  have hcolon : ¬ isNameChar ':' = true := by decide
  induction h with
  | nil => exact nil
  | @char c s hc hc' rest ih =>
    by_cases hname : isNameChar c = true
    · rw [List.dropWhile_cons_of_pos hname]
      exact ih
    · rw [List.dropWhile_cons_of_neg hname]
      exact char hc hc' rest
  | pseudoClass hn rest _ =>
    rw [List.dropWhile_cons_of_neg hcolon]
    exact pseudoClass hn rest
  | pseudoElement hn rest _ =>
    rw [List.dropWhile_cons_of_neg hcolon]
    exact pseudoElement hn rest
  | call hn ha rest _ _ =>
    rw [List.dropWhile_cons_of_neg hcolon]
    exact call hn ha rest

/-- Arguments stay arguments without their pseudo-elements. -/
theorem deleteAll_pseudoElement {s : List Char} (h : Arguments s) :
    Arguments (deleteAll Selector.pseudoElement s) := by
  generalize hn : s.length = n
  induction n using Nat.strong_induction_on generalizing s with
  | _ n ih =>
    subst hn
    cases h with
    | nil => exact nil
    | char hc hcolon rest =>
      rw [deleteAll_cons (pseudoElement_cons hcolon _)]
      exact char hc hcolon (ih _ (by simp) rest rfl)
    | @pseudoClass n s hn rest =>
      rw [deleteAll_pseudoElement_name hn]
      refine pseudoClass hn (ih _ ?_ rest rfl)
      simp only [List.length_cons, List.length_append]
      omega
    | @pseudoElement n s hn rest =>
      -- What follows may continue the name, so the rest begins behind that.
      rw [deleteAll_pseudoElement_element hn]
      refine ih _ ?_ rest.dropWhile_name rfl
      have := List.length_dropWhile_le isNameChar s
      simp only [List.length_cons, List.length_append]
      omega
    | call hn ha rest =>
      rw [deleteAll_pseudoElement_call hn]
      refine call hn (ih _ ?_ ha rfl) (ih _ ?_ rest rfl)
      all_goals
        simp only [List.length_cons, List.length_append]
        omega

end Arguments

theorem exists_texts_pseudoElement (t : Token) {s : List Char} (hs : EndsName s) :
    ∃ us, UpTo 3 us ∧
      deleteAll pseudoElement (t.text ++ s) = texts us ++ deleteAll pseudoElement s := by
  cases t with
  | separator c hc =>
    have hcolon := (isBarrier_iff.mp (isBarrier_of_isSeparator hc)).2.1
    exact ⟨[.separator c hc], .single (by simp [Token.rank]),
      deleteAll_cons (pseudoElement_cons hcolon s)⟩
  | attributeTest n x hn hx =>
    obtain ⟨u, hu, h⟩ := exists_attribute_deleteAll pseudoElement_le (fun _ => pseudoElement_cons)
      (fun _ hne s => pseudoElement_append (by decide) (by decide) hne s) hn hx s
    exact ⟨[u], .single (by omega), by simpa using h⟩
  | pseudoClass n hn =>
    exact ⟨[.pseudoClass n hn], .single (by simp [Token.rank]),
      by simpa [Token.text] using deleteAll_pseudoElement_name hn s⟩
  | call n a hn ha =>
    exact ⟨[.call n _ hn ha.deleteAll_pseudoElement], .single (by simp [Token.rank]),
      by simpa [Token.text] using deleteAll_pseudoElement_call hn a s⟩
  | pseudoElement n hn =>
    have hrest : s.dropWhile isNameChar = s := by
      cases s with
      | nil => rfl
      | cons c s => exact List.dropWhile_cons_of_neg (by simpa using hs c rfl)
    refine ⟨[], .nil 3, ?_⟩
    have h := deleteAll_pseudoElement_element hn s
    rwa [hrest] at h

/-! ## The second pass: calls -/

theorem Reduces.of_call {n a : List Char} (hn : IsName n) (ha : ∀ c ∈ a, isArgumentChar c = true) :
    Reduces (':' :: (n ++ '(' :: (a ++ [')']))) [] :=
  .single (by simpa using Deletes.mk [] _ [] (IsCall.mk n a hn ha))

/-- From the inside out all calls in arguments can be deleted. -/
theorem Arguments.exists_reduces {a : List Char} (h : Arguments a) :
    ∃ b, (∀ c ∈ b, isArgumentChar c = true) ∧ Reduces a b := by
  have hname : ∀ {n : List Char}, IsName n → ∀ c ∈ n, isArgumentChar c = true := by
    intro n hn c hc
    have hopen : c ≠ '(' := fun heq => hn.notMem (c := '(') (by decide) (heq ▸ hc)
    have hclose : c ≠ ')' := fun heq => hn.notMem (c := ')') (by decide) (heq ▸ hc)
    simp [isArgumentChar, hopen, hclose]
  have hcolon : isArgumentChar ':' = true := by decide
  induction h with
  | nil => exact ⟨[], fun _ hc => absurd hc List.not_mem_nil, .refl⟩
  | @char c s hc _ _ ih =>
    obtain ⟨b, hb, hs⟩ := ih
    exact ⟨c :: b, List.forall_mem_cons.mpr ⟨hc, hb⟩, hs.cons c⟩
  | @pseudoClass n s hn _ ih =>
    obtain ⟨b, hb, hs⟩ := ih
    refine ⟨':' :: (n ++ b), List.forall_mem_cons.mpr ⟨hcolon, ?_⟩, (Reduces.append .refl hs).cons ':'⟩
    exact List.forall_mem_append.mpr ⟨hname hn, hb⟩
  | @pseudoElement n s hn _ ih =>
    obtain ⟨b, hb, hs⟩ := ih
    refine ⟨':' :: ':' :: (n ++ b), List.forall_mem_cons.mpr ⟨hcolon, List.forall_mem_cons.mpr
      ⟨hcolon, ?_⟩⟩, ((Reduces.append .refl hs).cons ':').cons ':'⟩
    exact List.forall_mem_append.mpr ⟨hname hn, hb⟩
  | @call n a s hn _ _ iha ih =>
    obtain ⟨a', ha', ha⟩ := iha
    obtain ⟨b, hb, hs⟩ := ih
    refine ⟨b, hb, ?_⟩
    have hinside := (ha.around (':' :: (n ++ ['('])) [')']).trans
      (by simpa using Reduces.of_call hn ha')
    simpa using Reduces.append hinside hs

theorem exists_reduces_text {t : Token} (ht : t.rank ≤ 3) :
    ∃ us, UpTo 2 us ∧ Reduces t.text (texts us) := by
  cases t with
  | call n a hn ha =>
    obtain ⟨a', ha', h⟩ := ha.exists_reduces
    refine ⟨[], .nil 2, ?_⟩
    have hinside := h.around (':' :: (n ++ ['('])) [')']
    have hcall := Reduces.of_call hn ha'
    exact .trans (by simpa [Token.text] using hinside) hcall
  | pseudoElement n hn => exact absurd ht (by simp [Token.rank])
  | separator c hc =>
    exact ⟨[.separator c hc], .single (by simp [Token.rank]), by simpa using .refl⟩
  | attributeTest n x hn hx =>
    exact ⟨[.attributeTest n x hn hx], .single (by simp [Token.rank]), by simpa using .refl⟩
  | pseudoClass n hn =>
    exact ⟨[.pseudoClass n hn], .single (by simp [Token.rank]), by simpa using .refl⟩

/-- Only calls have parentheses. -/
theorem notMem_text {t : Token} (h : t.rank ≠ 3) : '(' ∉ t.text := by
  have hname : ∀ {n : List Char}, IsName n → '(' ∉ n := fun hn => hn.notMem (by decide)
  cases t with
  | separator c hc =>
    intro hmem
    obtain rfl := List.mem_singleton.mp hmem
    exact absurd hc (by decide)
  | attributeTest n x hn hx =>
    have hx' : '(' ∉ x := fun hmem => absurd (hx '(' hmem).2 (by decide)
    simp [Token.text, hname hn, hx']
  | pseudoClass n hn => simp [Token.text, hname hn]
  | call n a hn ha => exact absurd rfl h
  | pseudoElement n hn => simp [Token.text, hname hn]

theorem notMem_texts {ts : List Token} (hts : UpTo 2 ts) : '(' ∉ texts ts := by
  intro h
  obtain ⟨t, ht, hmem⟩ := List.mem_flatMap.mp h
  have hrank := hts t ht
  exact notMem_text (by omega) hmem

theorem exists_texts_deleteCalls {ts : List Token} (hts : UpTo 3 ts) :
    ∃ us, UpTo 2 us ∧ deleteCalls (texts ts) = texts us := by
  have hreduces : ∃ us, UpTo 2 us ∧ Reduces (texts ts) (texts us) := by
    induction ts with
    | nil => exact ⟨[], .nil 2, .refl⟩
    | cons t ts ih =>
      obtain ⟨ht, hts⟩ := List.forall_mem_cons.mp hts
      obtain ⟨us, hus, hhere⟩ := exists_reduces_text ht
      obtain ⟨vs, hvs, hrest⟩ := ih hts
      exact ⟨us ++ vs, hus.append hvs, by simpa using hhere.append hrest⟩
  obtain ⟨us, hus, h⟩ := hreduces
  exact ⟨us, hus, deleteCalls_eq h (callFree_of_notMem (notMem_texts hus))⟩

/-! ## The last passes: pseudo-classes and attributes -/

theorem exists_texts_pseudoClass {t : Token} (ht : t.rank ≤ 2) {s : List Char} (hs : EndsName s) :
    ∃ us, UpTo 1 us ∧
      deleteAll pseudoClass (t.text ++ s) = texts us ++ deleteAll pseudoClass s := by
  cases t with
  | separator c hc =>
    have hcolon := (isBarrier_iff.mp (isBarrier_of_isSeparator hc)).2.1
    exact ⟨[.separator c hc], .single (by simp [Token.rank]),
      deleteAll_cons (pseudoClass_cons hcolon s)⟩
  | attributeTest n x hn hx =>
    obtain ⟨u, hu, h⟩ := exists_attribute_deleteAll pseudoClass_le (fun _ => pseudoClass_cons)
      (fun _ hne s => pseudoClass_append_of_endsName hne (EndsName.cons (by decide) s)) hn hx s
    exact ⟨[u], .single (by omega), by simpa using h⟩
  | pseudoClass n hn =>
    have hpiece : pseudoClass (':' :: n ++ s) = (':' :: n).length := pseudoClass_append hn hs
    exact ⟨[], .nil 1, deleteAll_piece (List.cons_ne_nil _ _) hpiece⟩
  | call n a hn ha => exact absurd ht (by simp [Token.rank])
  | pseudoElement n hn => exact absurd ht (by simp [Token.rank])

theorem exists_texts_attributeTest {t : Token} (ht : t.rank ≤ 1) (s : List Char) :
    ∃ us, UpTo 0 us ∧
      deleteAll attributeTest (t.text ++ s) = texts us ++ deleteAll attributeTest s := by
  cases t with
  | separator c hc =>
    have hbracket := (isBarrier_iff.mp (isBarrier_of_isSeparator hc)).2.2.2.2
    exact ⟨[.separator c hc], .single (by simp [Token.rank]),
      deleteAll_cons (attributeTest_cons hbracket s)⟩
  | attributeTest n x hn hx =>
    have hclose : ']' ∉ n ++ x := by
      rw [List.mem_append]
      exact not_or.mpr ⟨hn.notMem (by decide), fun h => (hx ']' h).1 rfl⟩
    have hpos := List.length_pos_iff.mpr hn.ne_nil
    have hname : nameLength (n ++ x) ≠ 0 := by
      rw [nameLength, List.takeWhile_append_of_pos hn.chars, List.length_append]
      omega
    have hpiece : attributeTest ((Token.attributeTest n x hn hx).text ++ s) =
        (Token.attributeTest n x hn hx).text.length := by
      have hclosed := attributeTest_closed hclose s
      rw [if_neg hname] at hclosed
      simp only [Token.text, List.cons_append, List.append_assoc, List.nil_append,
        List.length_cons, List.length_append, List.length_nil] at hclosed ⊢
      omega
    exact ⟨[], .nil 0, deleteAll_piece (List.cons_ne_nil _ _) hpiece⟩
  | pseudoClass n hn => exact absurd ht (by simp [Token.rank])
  | call n a hn ha => exact absurd ht (by simp [Token.rank])
  | pseudoElement n hn => exact absurd ht (by simp [Token.rank])

/-! ## All passes -/

theorem exists_texts_withoutPseudo (ts : List Token) :
    ∃ us, UpTo 1 us ∧ withoutPseudo (texts ts) = texts us := by
  have hall : UpTo 4 ts := by
    intro t _
    cases t <;> simp [Token.rank]
  obtain ⟨us₃, hus₃, h₃⟩ :=
    exists_texts_deleteAll (fun t _ s hs => exists_texts_pseudoElement t hs) hall
  obtain ⟨us₂, hus₂, h₂⟩ := exists_texts_deleteCalls hus₃
  obtain ⟨us₁, hus₁, h₁⟩ :=
    exists_texts_deleteAll (fun t ht s hs => exists_texts_pseudoClass ht hs) hus₂
  exact ⟨us₁, hus₁, by rw [withoutPseudo, h₃, h₂, h₁]⟩

/-- Nothing remains of tokens. -/
theorem residue_texts (ts : List Token) : residue (texts ts) = [] := by
  obtain ⟨us, hus, h⟩ := exists_texts_withoutPseudo ts
  obtain ⟨vs, hvs, h'⟩ :=
    exists_texts_deleteAll (fun t ht s _ => exists_texts_attributeTest ht s) hus
  rw [residue_eq, h, h', List.filter_eq_nil_iff]
  intro c hc
  obtain ⟨t, ht, hmem⟩ := List.mem_flatMap.mp hc
  have hrank := hvs t ht
  cases t with
  | separator c' hc' =>
    obtain rfl := List.mem_singleton.mp hmem
    simp [hc']
  | _ => exact absurd hrank (by simp [Token.rank])

/-! ## What tokens leave open -/

theorem Arguments.closed {a : List Char} (h : Arguments a) : Closed a := by
  have hname : ∀ {n : List Char}, IsName n → Closed n :=
    fun hn => Closed.of_notMem (hn.notMem (by decide))
  have hcons : ∀ {c : Char} {s : List Char}, c ≠ '(' → Closed s → Closed (c :: s) :=
    fun hc hs => Closed.append (s := [_]) (.of_notMem (by simpa using hc.symm)) hs
  induction h with
  | nil => exact .of_notMem List.not_mem_nil
  | char hc _ _ ih => exact hcons (ne_of_isArgumentChar hc).1 ih
  | pseudoClass hn _ ih => exact hcons (by decide) ((hname hn).append ih)
  | pseudoElement hn _ ih => exact hcons (by decide) (hcons (by decide) ((hname hn).append ih))
  | call hn _ _ iha ih =>
    refine hcons (by decide) ((hname hn).append ?_)
    simpa using iha.enclosed.append ih

theorem closed_texts (ts : List Token) : Closed (texts ts) := by
  induction ts with
  | nil => exact .of_notMem List.not_mem_nil
  | cons t ts ih =>
    rw [texts_cons]
    refine Closed.append ?_ ih
    by_cases hcall : t.rank = 3
    · cases t with
      | call n a hn ha =>
        have hname : Closed (':' :: n) :=
          .of_notMem (by simp [hn.notMem (c := '(') (by decide)])
        exact hname.append ha.closed.enclosed
      | _ => exact absurd hcall (by simp [Token.rank])
    · exact .of_notMem (notMem_text hcall)

theorem bracketsClosed_texts {ts : List Token} (hts : UpTo 1 ts) : BracketsClosed (texts ts) := by
  induction ts with
  | nil => exact .of_notMem List.not_mem_nil
  | cons t ts ih =>
    obtain ⟨ht, hts⟩ := List.forall_mem_cons.mp hts
    rw [texts_cons]
    refine BracketsClosed.append ?_ (ih hts)
    cases t with
    | separator c hc =>
      refine .of_notMem fun hmem => ?_
      obtain rfl := List.mem_singleton.mp hmem
      exact absurd hc (by decide)
    | attributeTest n x hn hx =>
      have hends := BracketsClosed.concat ('[' :: (n ++ x))
      simpa [Token.text] using hends
    | _ => exact absurd ht (by simp [Token.rank])

/-- Tokens leave nothing open. -/
theorem selfContained_texts (ts : List Token) : SelfContained (texts ts) where
  parentheses := closed_texts ts
  brackets := by
    obtain ⟨us, hus, h⟩ := exists_texts_withoutPseudo ts
    rw [h]
    exact bracketsClosed_texts hus

/-! ## Verdicts -/

/-- A selector that is written from tokens stays with its element. -/
theorem reachesOthers_own (ts : List Token) : reachesOthers ('&' :: texts ts) = false := by
  rw [← Bool.not_eq_true, reachesOthers_iff, residue_texts]
  exact fun h => h.1 rfl

theorem residue_texts_append (ts : List Token) {c : Char} (hc : isBarrier c = true)
    (r : List Char) :
    residue (texts ts ++ c :: r) = [c].filter (!isSeparator ·) ++ residue r := by
  rw [residue_append hc (Or.inl (selfContained_texts ts)), residue_texts, List.nil_append]

theorem ne_of_beginsElement {x : Char} (hx : beginsElement x = true) :
    x ≠ ':' ∧ x ≠ '[' ∧ isSeparator x = false ∧ Text.isBlank x = false := by
  have hne : ∀ c, beginsElement c = false → x ≠ c := by
    rintro c hc rfl
    rw [hx] at hc
    cases hc
  have hblank : Text.isBlank x = false := by
    by_contra hblank
    have hnot := @of_isBlank (!beginsElement ·) (by decide) x (by simpa using hblank)
    simp [hx] at hnot
  refine ⟨hne ':' (by decide), hne '[' (by decide), ?_, hblank⟩
  simp [isSeparator, hblank, hne '&' (by decide), hne ',' (by decide)]

/-- Whatever stands behind tokens and a combinator, the selector reaches other elements. So it does
behind tokens, blanks and the beginning of an element name, an identifier or a class. -/
theorem reachesOthers_behind_own (ts : List Token) (q : List Char) :
    (∀ c ∈ ['>', '+', '~'], reachesOthers ('&' :: (texts ts ++ c :: q)) = true) ∧
    (∀ blanks x, blanks ≠ [] → Text.AllBlank blanks → beginsElement x = true →
      reachesOthers ('&' :: (texts ts ++ (blanks ++ x :: q))) = true) := by
  constructor
  · intro c hc
    have hcombinator : isBarrier c = true ∧ isSeparator c = false ∧ isCombinator c = true ∧
        Text.isBlank c = false := by
      simp only [List.mem_cons, List.not_mem_nil, or_false] at hc
      rcases hc with rfl | rfl | rfl <;> decide
    obtain ⟨hbarrier, hseparator, hleads, hblank⟩ := hcombinator
    refine reachesOthers_iff.mpr ⟨?_, Or.inl ⟨c, ?_, hleads⟩⟩
    · rw [residue_texts_append ts hbarrier]
      simp [hseparator]
    · exact Text.mem_trim_of_mem (by simp) hblank
  · intro blanks x hne hblanks hx
    obtain ⟨hcolon, hbracket, hseparator, hblank⟩ := ne_of_beginsElement hx
    obtain ⟨b, blanks, rfl⟩ := List.exists_cons_of_ne_nil hne
    obtain ⟨hb, hblanks'⟩ := List.forall_mem_cons.mp hblanks
    refine reachesOthers_iff.mpr ⟨?_, ?_⟩
    · rw [List.cons_append, residue_texts_append ts (isBarrier_of_isBlank hb),
        residue_blanks_append hblanks', residue_cons hcolon hbracket]
      simp [hseparator]
    · -- The blank is trimmed only if nothing but blanks stands before it.
      by_cases hall : Text.AllBlank (texts ts)
      · refine Or.inr ⟨x, ?_, hx⟩
        rw [← List.append_assoc]
        exact Text.head?_trim (List.forall_mem_append.mpr ⟨hall, hblanks⟩) hblank
      · refine Or.inl ⟨b, ?_, by simp [isCombinator, hb]⟩
        exact Text.mem_trim_of_between hall b (Text.not_allBlank (by simp) hblank)

/-- Behind nested calls a combinator remains whatever is left open after it, and so does an element
name behind a list. -/
theorem reachesOthers_behind_own_nested :
    reachesOthers "&:not(:is(.a > b, :hover))::before>[x(".toList = true ∧
    reachesOthers "&:hover, &[data-x=\"a b\"]  li:not(".toList = true := by
  have hhover : IsName "hover".toList := by decide
  have hclasses : Arguments ".a > b, :hover".toList :=
    .chars (x := ".a > b, ".toList) (by simp [isArgumentChar]) (.pseudoClass hhover .nil)
  have hcall : Arguments ":is(.a > b, :hover)".toList :=
    .call (n := "is".toList) (by decide) hclasses .nil
  have hcombinator := (reachesOthers_behind_own [.call "not".toList _ (by decide) hcall,
    .pseudoElement "before".toList (by decide)] "[x(".toList).1 '>' (by decide)
  have helement := (reachesOthers_behind_own [.pseudoClass "hover".toList hhover,
    .separator ',' (by decide), .separator ' ' (by decide), .separator '&' (by decide),
    .attributeTest "data-x".toList "=\"a b\"".toList (by decide) (by simp [isArgumentChar])]
    "i:not(".toList).2 "  ".toList 'l' (by decide) (by decide) (by decide)
  exact ⟨hcombinator, helement⟩

end ComponentLint.Selector
