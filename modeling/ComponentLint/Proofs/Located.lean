import Mathlib.Data.List.Basic
import Mathlib.Data.List.Forall2
import Mathlib.Data.List.Flatten

/-!
# What is found where

Rules go through lists: the statements of a file, the declarators of a statement, the items of an
export list. `Located` says that a list is made of what can be found at certain positions, with the
positions in ascending order. It is kept by what rules do to lists, so that the position of every
finding can be told without counting.
-/

namespace ComponentLint

/-- What is found in a list, seen through a function, is met in the list in the same order. -/
theorem map_filterMap_sublist {α β γ : Type} {f : α → Option β} {g : α → Option γ} {h : β → γ}
    (hfg : ∀ a b, f a = some b → g a = some (h b)) (l : List α) :
    ((l.filterMap f).map h).Sublist (l.filterMap g) := by
  induction l with
  | nil => exact List.Sublist.refl _
  | cons a l ih =>
    cases hf : f a with
    | none =>
      rw [List.filterMap_cons_none hf]
      exact ih.trans ((List.sublist_cons_self a l).filterMap g)
    | some b =>
      rw [List.filterMap_cons_some hf, List.filterMap_cons_some (hfg a b hf)]
      exact ih.cons_cons _

/-- Who finds less finds it in the same order. -/
theorem filterMap_sublist_filterMap {α β : Type} {f g : α → Option β}
    (h : ∀ a b, f a = some b → g a = some b) (l : List α) :
    (l.filterMap f).Sublist (l.filterMap g) := by
  have hmap := map_filterMap_sublist (h := id) h l
  rwa [List.map_id] at hmap

/-- The list `l` is made of what `at?` finds, in the order of the positions: `entries` are its
members with their positions. -/
structure Located {ι α : Type} (lt : ι → ι → Prop) (at? : ι → Option α) (entries : List (ι × α))
    (l : List α) : Prop where
  /-- The entries are the members of the list in the same order. -/
  values : entries.map (·.2) = l
  /-- Their positions ascend. -/
  ascending : entries.Pairwise fun e e' => lt e.1 e'.1
  /-- They are all that can be found. -/
  mem_iff : ∀ i a, (i, a) ∈ entries ↔ at? i = some a

namespace Located

variable {ι κ α β : Type} {lt : ι → ι → Prop} {at? : ι → Option α} {entries : List (ι × α)}
  {l : List α}

/-- Nothing is found anywhere. -/
theorem nil : Located lt (fun _ => none) ([] : List (ι × α)) [] :=
  ⟨rfl, List.Pairwise.nil, by simp⟩

/-- What is found somewhere is a member of the list. -/
theorem mem (h : Located lt at? entries l) {i : ι} {a : α} (ha : at? i = some a) : a ∈ l := by
  rw [← h.values]
  exact List.mem_map.mpr ⟨(i, a), (h.mem_iff i a).mpr ha, rfl⟩

/-- The positions are those where something is found. -/
theorem mem_positions_iff (h : Located lt at? entries l) {i : ι} :
    i ∈ entries.map (·.1) ↔ ∃ a, at? i = some a := by
  rw [List.mem_map]
  constructor
  · rintro ⟨⟨i, a⟩, ha, rfl⟩
    exact ⟨a, (h.mem_iff i a).mp ha⟩
  · rintro ⟨a, ha⟩
    exact ⟨(i, a), (h.mem_iff i a).mpr ha, rfl⟩

/-- Every member of the list is found at its position. -/
theorem forall₂ (h : Located lt at? entries l) :
    List.Forall₂ (fun i a => at? i = some a) (entries.map (·.1)) l := by
  rw [← h.values, List.forall₂_map_left_iff, List.forall₂_map_right_iff, List.forall₂_same]
  rintro ⟨i, a⟩ ha
  exact (h.mem_iff i a).mp ha

/-- No position is met twice. -/
theorem nodup_positions (hirrefl : ∀ i, ¬ lt i i) (h : Located lt at? entries l) :
    (entries.map (·.1)).Nodup := by
  refine List.pairwise_map.mpr (h.ascending.imp fun {e e'} hlt heq => ?_)
  rw [heq] at hlt
  exact hirrefl e'.1 hlt

/-- The list begins with what is found before everything else. -/
theorem head?_eq_some_iff (hasymm : ∀ i j, lt i j → ¬ lt j i) (h : Located lt at? entries l)
    {a : α} :
    l.head? = some a ↔ ∃ i, at? i = some a ∧ ∀ j b, at? j = some b → i = j ∨ lt i j := by
  rw [← h.values, List.head?_map]
  cases hentries : entries with
  | nil =>
    refine ⟨nofun, ?_⟩
    rintro ⟨i, ha, -⟩
    have hmem := (h.mem_iff i a).mpr ha
    rw [hentries] at hmem
    cases hmem
  | cons e more =>
    obtain ⟨i, b⟩ := e
    have hfirst : ∀ j c, at? j = some c → i = j ∨ lt i j := by
      intro j c hc
      have hmem := (h.mem_iff j c).mpr hc
      have hascending := h.ascending
      rw [hentries] at hmem hascending
      rcases List.mem_cons.mp hmem with heq | hmore
      · exact Or.inl (congrArg Prod.fst heq).symm
      · exact Or.inr ((List.pairwise_cons.mp hascending).1 _ hmore)
    have hb : at? i = some b := (h.mem_iff i b).mp (by rw [hentries]; exact List.mem_cons_self)
    rw [List.head?_cons, Option.map_some, Option.some.injEq]
    constructor
    · rintro rfl
      exact ⟨i, hb, hfirst⟩
    · rintro ⟨j, ha, hleast⟩
      have hsame : i = j := by
        rcases hleast i b hb with heq | hlt
        · exact heq.symm
        · rcases hfirst j a ha with heq | hlt'
          · exact heq
          · exact absurd hlt (hasymm i j hlt')
      rw [← hsame, hb] at ha
      exact Option.some.inj ha

/-- The members of a list are found at their indices. -/
theorem getElem? (l : List α) :
    ∃ entries : List (Nat × α), Located (· < ·) (fun i => l[i]?) entries l := by
  refine ⟨l.zipIdx.map Prod.swap, ?_, ?_, fun i a => ?_⟩
  · rw [List.map_map]
    exact List.zipIdx_map_fst 0 l
  · have hindices : (l.zipIdx.map Prod.snd).Pairwise (· < ·) := by
      rw [List.zipIdx_map_snd]
      exact List.pairwise_lt_range'
    exact List.pairwise_map.mpr (List.pairwise_map.mp hindices)
  · simp [List.mem_zipIdx_iff_getElem?]

/-- The positions may be written differently, in the same order. -/
theorem reindex {lt' : κ → κ → Prop} {at' : κ → Option α} (h : Located lt at? entries l)
    (f : ι → κ) (hlt : ∀ i j, lt i j → lt' (f i) (f j))
    (hat : ∀ k a, at' k = some a ↔ ∃ i, f i = k ∧ at? i = some a) :
    Located lt' at' (entries.map (Prod.map f id)) l := by
  refine ⟨?_, ?_, fun k a => ?_⟩
  · rw [← h.values, List.map_map]
    rfl
  · exact List.pairwise_map.mpr (h.ascending.imp fun {e e'} he => hlt e.1 e'.1 he)
  · rw [hat, List.mem_map]
    constructor
    · rintro ⟨⟨i, a'⟩, hmem, heq⟩
      cases heq
      exact ⟨i, rfl, (h.mem_iff i a').mp hmem⟩
    · rintro ⟨i, rfl, ha⟩
      exact ⟨(i, a), (h.mem_iff i a).mpr ha, rfl⟩

/-- What a function makes of some members is found where these are. -/
theorem filterMap (h : Located lt at? entries l) (f : α → Option β) :
    ∃ kept, Located lt (fun i => (at? i).bind f) kept (l.filterMap f) := by
  refine ⟨entries.filterMap fun e => (f e.2).map (e.1, ·), ?_, ?_, fun i b => ?_⟩
  · rw [← h.values, List.map_filterMap, List.filterMap_map]
    refine List.filterMap_congr fun e _ => ?_
    rw [Option.map_map]
    exact Option.map_id'
  · refine List.pairwise_filterMap.mpr (h.ascending.imp fun {e e'} hlt b hb b' hb' => ?_)
    obtain ⟨_, -, rfl⟩ := Option.map_eq_some_iff.mp hb
    obtain ⟨_, -, rfl⟩ := Option.map_eq_some_iff.mp hb'
    exact hlt
  · rw [List.mem_filterMap, Option.bind_eq_some_iff]
    constructor
    · rintro ⟨⟨j, a⟩, ha, hb⟩
      obtain ⟨b', hb', heq⟩ := Option.map_eq_some_iff.mp hb
      obtain ⟨rfl, rfl⟩ := Prod.mk.inj heq
      exact ⟨a, (h.mem_iff _ _).mp ha, hb'⟩
    · rintro ⟨a, ha, hb⟩
      exact ⟨(i, a), (h.mem_iff i a).mpr ha, Option.map_eq_some_iff.mpr ⟨b, hb, rfl⟩⟩

/-- What is found in members is found where these are and where it is in them. -/
theorem flatMap {lt' : κ → κ → Prop} (h : Located lt at? entries l) {g : α → List β}
    {sub? : α → κ → Option β} (hg : ∀ a, ∃ inner, Located lt' (sub? a) inner (g a)) :
    ∃ all, Located (Prod.Lex lt lt') (fun p => (at? p.1).bind fun a => sub? a p.2) all
      (l.flatMap g) := by
  choose inner hinner using hg
  refine ⟨entries.flatMap fun e => (inner e.2).map fun e' => ((e.1, e'.1), e'.2), ?_, ?_, ?_⟩
  · rw [← h.values, List.map_flatMap, List.flatMap_map]
    refine List.flatMap_congr fun e _ => ?_
    rw [List.map_map]
    exact (hinner e.2).values
  · refine List.pairwise_flatMap.mpr ⟨fun e _ => ?_, h.ascending.imp fun {e e'} hlt => ?_⟩
    · exact List.pairwise_map.mpr ((hinner e.2).ascending.imp fun hlt => .right _ hlt)
    · intro a ha b hb
      obtain ⟨_, -, rfl⟩ := List.mem_map.mp ha
      obtain ⟨_, -, rfl⟩ := List.mem_map.mp hb
      exact .left _ _ hlt
  · rintro ⟨i, k⟩ b
    rw [List.mem_flatMap, Option.bind_eq_some_iff]
    constructor
    · rintro ⟨⟨i', a⟩, ha, hb⟩
      obtain ⟨⟨k', b'⟩, hb', heq⟩ := List.mem_map.mp hb
      cases heq
      exact ⟨a, (h.mem_iff _ _).mp ha, ((hinner a).mem_iff _ _).mp hb'⟩
    · rintro ⟨a, ha, hb⟩
      exact ⟨(i, a), (h.mem_iff i a).mpr ha,
        List.mem_map.mpr ⟨(k, b), ((hinner a).mem_iff k b).mpr hb, rfl⟩⟩

/-- The members of the lists that belong to the members of a list are found at pairs of indices. -/
theorem getElem?_flatMap (l : List α) (g : α → List β) :
    ∃ entries, Located (Prod.Lex (fun i i' : Nat => i < i') fun j j' : Nat => j < j')
      (fun place => (l[place.1]?).bind fun a => (g a)[place.2]?) entries (l.flatMap g) := by
  obtain ⟨_, hmembers⟩ := getElem? l
  exact hmembers.flatMap fun a => getElem? (g a)

end Located

end ComponentLint
