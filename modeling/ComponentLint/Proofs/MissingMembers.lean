import ComponentLint.Proofs.UnionTexts

/-!
# Members beside missing values

A type that is no union keeps its kind and its text when `null` and `undefined` are written beside
it, so long as the scan for bars sees none in it (`classify_beside_missing`). Whether a text is one
member is a question of its brackets, where the `>` of an arrow is none (`isMember`). The scan for
bars counts it as one all the same, and so it is never deeper in brackets than the text is
(`depthOver_of_isMember`): it may see a bar inside of an argument behind a function type. Then the
member falls apart into several, and the whole union decides instead of it.
-/

namespace ComponentLint.Types

/-! ## One member -/

/-- Whether a text is one member of a union behind `depth` open brackets: its brackets are balanced,
and its bars and arrows stand inside of them. The `>` of an arrow is no bracket; `afterEquals` tells
whether an equals sign stands just before. -/
def isMember (depth : Nat) (afterEquals : Bool) : List Char → Bool
  | [] => depth == 0
  | c :: rest =>
    if c == '>' && afterEquals then depth != 0 && isMember depth false rest
    else if closes c then depth != 0 && isMember (depth - 1) false rest
    else if c == '|' then depth != 0 && isMember depth false rest
    else isMember (depthAfter depth c) (c == '=') rest

/-- What a member begins with, and what is left of it. -/
theorem isMember_cons {d : Nat} {f : Bool} {c : Char} {s : List Char}
    (h : isMember d f (c :: s) = true) :
    (c = '>' ∧ f = true ∧ 0 < d ∧ isMember d false s = true) ∨
      (closes c = true ∧ 0 < d ∧ isMember (d - 1) false s = true) ∨
      (c = '|' ∧ 0 < d ∧ isMember d false s = true) ∨
      (c ≠ '|' ∧ closes c = false ∧ isMember (depthAfter d c) (c == '=') s = true) := by
  rw [isMember] at h
  split_ifs at h with harrow hcloses hbar
  · simp only [Bool.and_eq_true, beq_iff_eq] at harrow
    simp only [Bool.and_eq_true, bne_iff_ne, ne_eq] at h
    exact Or.inl ⟨harrow.1, harrow.2, Nat.pos_of_ne_zero h.1, h.2⟩
  · simp only [Bool.and_eq_true, bne_iff_ne, ne_eq] at h
    exact Or.inr (Or.inl ⟨hcloses, Nat.pos_of_ne_zero h.1, h.2⟩)
  · simp only [Bool.and_eq_true, bne_iff_ne, ne_eq] at h
    exact Or.inr (Or.inr (Or.inl ⟨beq_iff_eq.mp hbar, Nat.pos_of_ne_zero h.1, h.2⟩))
  · exact Or.inr (Or.inr (Or.inr ⟨by simpa using hbar, by simpa using hcloses, h⟩))

/-- The scan for bars is never deeper in brackets than the text, so it leaves none open. -/
theorem depthOver_of_isMember {d e : Nat} {f : Bool} {s : List Char} (h : isMember d f s = true)
    (he : e ≤ d) : depthOver e s = 0 := by
  induction s generalizing d e f with
  | nil =>
    have hd : d = 0 := beq_iff_eq.mp h
    rw [depthOver_nil]
    omega
  | cons c s ih =>
    rw [depthOver_cons]
    rcases isMember_cons h with ⟨rfl, -, -, hs⟩ | ⟨hc, -, hs⟩ | ⟨rfl, -, hs⟩ | ⟨-, hc, hs⟩
    · have hdepth : depthAfter e '>' = e - 1 := depthAfter_of_closes rfl e
      exact ih hs (by omega)
    · exact ih hs (by rw [depthAfter_of_closes hc]; omega)
    · exact ih hs he
    · refine ih hs ?_
      cases ho : opens c with
      | true =>
        rw [depthAfter_of_opens ho, depthAfter_of_opens ho]
        omega
      | false =>
        rw [depthAfter_of_inert ho hc, depthAfter_of_inert ho hc]
        exact he

/-- The first bar of a member stands behind a bracket that opens. -/
theorem opening_of_isMember {f : Bool} {s : List Char} (h : isMember 0 f s = true)
    (hbar : '|' ∈ s) : Opening s := by
  induction s generalizing f with
  | nil => exact absurd hbar List.not_mem_nil
  | cons c s ih =>
    rcases isMember_cons h with ⟨-, -, hpos, -⟩ | ⟨-, hpos, -⟩ | ⟨-, hpos, -⟩ | ⟨hc, hcloses, hs⟩
    · exact absurd hpos (Nat.lt_irrefl 0)
    · exact absurd hpos (Nat.lt_irrefl 0)
    · exact absurd hpos (Nat.lt_irrefl 0)
    · cases ho : opens c with
      | true => exact Opening.of_opens ho s
      | false =>
        have hs' : '|' ∈ s := (List.mem_cons.mp hbar).resolve_left hc.symm
        rw [depthAfter_of_inert ho hcloses] at hs
        exact (ih hs hs').behind (x := [c]) (by simpa using hc.symm)

/-- The last bar of a member stands before a bracket that closes, and so does any text inside of
brackets. -/
theorem closing_of_isMember {d : Nat} {f : Bool} {s : List Char} (h : isMember d f s = true)
    (hinside : 0 < d ∨ '|' ∈ s) : Closing s := by
  induction s generalizing d f with
  | nil =>
    have hd : d = 0 := beq_iff_eq.mp h
    rcases hinside with hpos | hbar
    · omega
    · exact absurd hbar List.not_mem_nil
  | cons c s ih =>
    have hbehind : ∀ d' f', isMember d' f' s = true → 0 < d' ∨ '|' ∈ s → Closing (c :: s) :=
      fun d' f' hs hin => (ih hs hin).behind [c]
    have hbar : c ≠ '|' → '|' ∈ c :: s → '|' ∈ s :=
      fun hc hmem => (List.mem_cons.mp hmem).resolve_left hc.symm
    rcases isMember_cons h with ⟨-, -, hpos, hs⟩ | ⟨hc, -, hs⟩ | ⟨-, hpos, hs⟩ | ⟨hc, hcloses, hs⟩
    · exact hbehind d false hs (Or.inl hpos)
    · -- Either more brackets or bars follow, or this bracket is the last of both.
      by_cases hmore : 0 < d - 1 ∨ '|' ∈ s
      · exact hbehind (d - 1) false hs hmore
      · exact ⟨[], c, s, rfl, hc, fun hmem => hmore (Or.inr hmem)⟩
    · exact hbehind d false hs (Or.inl hpos)
    · refine hbehind _ _ hs (hinside.imp (fun hpos => ?_) (hbar hc))
      cases ho : opens c with
      | true =>
        rw [depthAfter_of_opens ho]
        omega
      | false =>
        rw [depthAfter_of_inert ho hcloses]
        exact hpos

/-- Without arrows the scan for bars counts the brackets right and sees no bar in a member. -/
theorem showsBar_of_isMember {d : Nat} {f : Bool} {s : List Char} (h : isMember d f s = true)
    (hfirst : f = true → s.head? ≠ some '>') (harrow : ¬ ['=', '>'] <:+: s) :
    showsBar d s = false := by
  induction s generalizing d f with
  | nil => rfl
  | cons c s ih =>
    have hrest : ¬ ['=', '>'] <:+: s := fun hs => harrow (hs.trans (List.suffix_cons c s).isInfix)
    rw [showsBar_cons]
    rcases isMember_cons h with ⟨rfl, rfl, -, -⟩ | ⟨hc, -, hs⟩ | ⟨rfl, hpos, hs⟩ | ⟨hc, -, hs⟩
    · exact absurd rfl (hfirst rfl)
    · have hne : (c == '|') = false := beq_eq_false_iff_ne.mpr (ne_bar_of_bracket (Or.inr hc)).symm
      rw [hne, depthAfter_of_closes hc]
      exact ih hs (fun hf => by cases hf) hrest
    · have hd : (d == 0) = false := beq_eq_false_iff_ne.mpr (by omega)
      rw [hd, Bool.and_false]
      exact ih hs (fun hf => by cases hf) hrest
    · rw [beq_eq_false_iff_ne.mpr hc]
      refine ih hs (fun hf hhead => harrow ?_) hrest
      obtain rfl := beq_iff_eq.mp hf
      obtain ⟨r, rfl⟩ := List.head?_eq_some_iff.mp hhead
      exact (List.prefix_append ['=', '>'] r).isInfix

/-! ## Missing values beside a member -/

theorem missing_cases {s : List Char} (h : isMissing s = true) :
    s = "undefined".toList ∨ s = "null".toList := by
  simpa [isMissing] using h

theorem trimmed_of_isMissing {s : List Char} (h : isMissing s = true) :
    Text.Trimmed s ∧ s ≠ [] := by
  rcases missing_cases h with rfl | rfl <;> decide

theorem depthOver_of_isMissing {s : List Char} (h : isMissing s = true) : depthOver 0 s = 0 := by
  rcases missing_cases h with rfl | rfl <;> decide

theorem presentMembers_of_isMissing {s : List Char} (h : isMissing s = true) :
    presentMembers s = [] := by
  rcases missing_cases h with rfl | rfl <;> decide

section Beside

variable {member : List Char} {before after : List (List Char)}

/-- Missing values before and behind a member change nothing about what the scan finds in it. -/
theorem presentMembers_beside_missing (hmember : isMember 0 false member = true)
    (hbefore : ∀ s ∈ before, isMissing s = true) (hafter : ∀ s ∈ after, isMissing s = true) :
    presentMembers (bar.intercalate (before ++ member :: after)) = presentMembers member := by
  have hnone : ∀ texts : List (List Char), (∀ s ∈ texts, isMissing s = true) →
      texts.flatMap presentMembers = [] := fun texts htexts =>
    List.flatMap_eq_nil_iff.mpr fun s hs => presentMembers_of_isMissing (htexts s hs)
  rw [presentMembers_intercalate, List.flatMap_append, List.flatMap_cons, hnone before hbefore,
    hnone after hafter, List.nil_append, List.append_nil]
  intro s hs
  rcases List.mem_append.mp hs with hs | hs
  · exact depthOver_of_isMissing (hbefore s hs)
  · rcases List.mem_cons.mp hs with rfl | hs
    · exact depthOver_of_isMember hmember (Nat.le_refl 0)
    · exact depthOver_of_isMissing (hafter s hs)

/-- A member in which the scan sees no bar is the only one. One in which it sees a bar falls apart. -/
theorem presentMembers_member (htrimmed : Text.Trimmed member) (hne : member ≠ [])
    (hpresent : isMissing member = false) (hmember : isMember 0 false member = true) :
    (showsBar 0 member = false ∧ presentMembers member = [member]) ∨
      (showsBar 0 member = true ∧ 2 ≤ (presentMembers member).length) := by
  cases hbar : showsBar 0 member with
  | false =>
    have hsome : member.isEmpty = false := List.isEmpty_eq_false_iff.mpr hne
    refine Or.inl ⟨rfl, ?_⟩
    rw [presentMembers, unionMembers_of_not_showsBar hbar, Text.trim_of_trimmed htrimmed, hsome]
    simp [hpresent]
  | true =>
    have hmem : '|' ∈ member := by
      by_contra hnone
      rw [showsBar_of_notMem hnone] at hbar
      cases hbar
    have hends : BracketEnds member :=
      ⟨opening_of_isMember hmember hmem, closing_of_isMember hmember (Or.inr hmem)⟩
    exact Or.inr ⟨rfl, hends.two_le hbar⟩

/-- A text that is one member of a union is classified alike with missing values beside it and
without them exactly if the scan for bars sees none in it. It sees none in a text without arrows. -/
theorem classify_beside_missing (htrimmed : Text.Trimmed member) (hne : member ≠ [])
    (hpresent : isMissing member = false) (hmember : isMember 0 false member = true)
    (hbefore : ∀ s ∈ before, isMissing s = true) (hafter : ∀ s ∈ after, isMissing s = true)
    (hany : before ≠ [] ∨ after ≠ []) :
    (classify (bar.intercalate (before ++ member :: after)) = classify member ↔
      showsBar 0 member = false) ∧
    (¬ ['=', '>'] <:+: member →
      classify (bar.intercalate (before ++ member :: after)) = classify member) := by
  have htexts : ∀ s ∈ before ++ member :: after, Text.Trimmed s ∧ s ≠ [] := by
    intro s hs
    rcases List.mem_append.mp hs with hs | hs
    · exact trimmed_of_isMissing (hbefore s hs)
    · rcases List.mem_cons.mp hs with rfl | hs
      · exact ⟨htrimmed, hne⟩
      · exact trimmed_of_isMissing (hafter s hs)
  have hunion := (Text.Trimmed.intercalate htexts (by simp) bar).1
  have hsame := presentMembers_beside_missing hmember hbefore hafter
  have hiff : classify (bar.intercalate (before ++ member :: after)) = classify member ↔
      showsBar 0 member = false := by
    rw [classify, classify, Text.trim_of_trimmed hunion, Text.trim_of_trimmed htrimmed]
    rcases presentMembers_member htrimmed hne hpresent hmember with ⟨hbar, hone⟩ | ⟨hbar, hmany⟩
    · rw [decisive_of_singleton (hsame.trans hone), decisive_of_singleton hone]
      exact iff_of_true rfl hbar
    · -- Both texts decide as they are, and the union is the longer one.
      have hmany' := hsame.symm ▸ hmany
      have hlonger : member.length < (bar.intercalate (before ++ member :: after)).length := by
        refine Text.length_lt_intercalate (by simp) ?_ (by decide)
        rw [List.length_append, List.length_cons]
        rcases hany with hany | hany
        · have := List.length_pos_iff.mpr hany
          omega
        · have := List.length_pos_iff.mpr hany
          omega
      rw [decisive_of_length_ne (by omega), decisive_of_length_ne (by omega), hbar]
      refine iff_of_false (fun heq => ?_) (by decide)
      have hdisplay := congrArg (fun t => t.display.length) heq
      exact absurd hdisplay (Nat.ne_of_gt hlonger)
  exact ⟨hiff, fun harrow => hiff.mpr (showsBar_of_isMember hmember (fun hf => by cases hf) harrow)⟩

/-- A bar inside of brackets does no harm, nor does an arrow with no bar behind it. -/
theorem classify_beside_missing_map :
    classify "null | Map<string, A | B> | undefined".toList = classify "Map<string, A | B>".toList ∧
    classify "Array<() => A> | null".toList = classify "Array<() => A>".toList := by
  have hmap := @classify_beside_missing "Map<string, A | B>".toList ["null".toList]
    ["undefined".toList] (by decide) (by decide) (by decide) (by decide +kernel)
    (by decide) (by decide) (Or.inl (by decide))
  have harray := @classify_beside_missing "Array<() => A>".toList [] ["null".toList]
    (by decide) (by decide) (by decide) (by decide +kernel) (by decide) (by decide)
    (Or.inr (by decide))
  exact ⟨hmap.2 (by decide +kernel), harray.1.mpr (by decide +kernel)⟩

/-- An arrow hides that the bar behind it stands in brackets: the type is an array by itself and an
object with `null` beside it. -/
theorem classify_arrow_beside_missing :
    Text.Trimmed "Array<() => A | B>".toList ∧ isMissing "Array<() => A | B>".toList = false ∧
    isMember 0 false "Array<() => A | B>".toList = true ∧ isMissing "null".toList = true ∧
    classify "Array<() => A | B>".toList = ⟨.array, "Array<() => A | B>".toList⟩ ∧
    classify (bar.intercalate ["null".toList, "Array<() => A | B>".toList]) =
      ⟨.object, "null | Array<() => A | B>".toList⟩ :=
  ⟨by decide, by decide, by decide +kernel, by decide, by decide +kernel,
    by decide +kernel⟩

end Beside

end ComponentLint.Types
