import Mathlib.Algebra.BigOperators.Group.List.Basic
import Mathlib.Algebra.Ring.Nat
import Mathlib.Data.List.Sort
import Mathlib.Tactic.Common

/-!
# Going over lists in rounds

Several lists are gone over in rounds: round `k` looks at the element with index `k` of every list that
has one. The places that the rounds look at, a list by its number and an element by its index, stand in
lexicographic order, round first. All that is used of them follows from this order and from which places
there are: what stands before a place in it was looked at before.

A prefix of the places is what a loop has looked at when it stops. It is fair: of two lists, the one of
which fewer elements were looked at is behind by at most one, unless it has no more.
-/

namespace Rounds

/-- A place: the number of a list, and an index in it. -/
abbrev Place := ℕ × ℕ

/-- The round of a place comes first, then the list. -/
def Before (p q : Place) : Prop := p.2 < q.2 ∨ p.2 = q.2 ∧ p.1 < q.1

theorem Before.le {p q : Place} (h : Before p q) : p.2 ≤ q.2 := h.elim Nat.le_of_lt fun h ↦ h.1.le

instance : Std.Irrefl Before where
  irrefl p := by
    rintro (h | ⟨-, h⟩)
    · exact lt_irrefl _ h
    · exact lt_irrefl _ h

instance : Std.Antisymm Before where
  antisymm p q hpq hqp := by
    rcases hpq with hlt | ⟨heq, hlt⟩
    · rcases hqp with hlt' | ⟨heq', -⟩
      · exact absurd hlt' hlt.asymm
      · exact absurd heq' hlt.ne'
    · rcases hqp with hlt' | ⟨-, hlt'⟩
      · exact absurd heq hlt'.ne'
      · exact absurd hlt' hlt.asymm

section

variable (lengths : List ℕ)

/-- The places of a round. -/
def round (k : ℕ) : List Place :=
  ((List.range lengths.length).filter fun i ↦ k < lengths.getD i 0).map (·, k)

/-- The places of the first rounds. -/
def places (rounds : ℕ) : List Place := (List.range rounds).flatMap (round lengths)

variable {lengths} {rounds : ℕ}

theorem lt_length_of_lt_getD {i k : ℕ} (h : k < lengths.getD i 0) : i < lengths.length := by
  by_contra hge
  rw [List.getD_eq_getElem?_getD, List.getElem?_eq_none (Nat.le_of_not_lt hge)] at h
  exact Nat.not_lt_zero k h

theorem mem_round {k : ℕ} {p : Place} : p ∈ round lengths k ↔ p.2 = k ∧ k < lengths.getD p.1 0 := by
  obtain ⟨i, j⟩ := p
  simp only [round, List.mem_map, List.mem_filter, List.mem_range, decide_eq_true_eq, Prod.mk.injEq]
  constructor
  · rintro ⟨i', ⟨-, hlt⟩, rfl, rfl⟩
    exact ⟨rfl, hlt⟩
  · rintro ⟨rfl, hlt⟩
    exact ⟨i, ⟨lt_length_of_lt_getD hlt, hlt⟩, rfl, rfl⟩

theorem mem_places {p : Place} :
    p ∈ places lengths rounds ↔ p.2 < rounds ∧ p.2 < lengths.getD p.1 0 := by
  simp only [places, List.mem_flatMap, List.mem_range, mem_round]
  constructor
  · rintro ⟨k, hk, rfl, hlt⟩
    exact ⟨hk, hlt⟩
  · rintro ⟨hk, hlt⟩
    exact ⟨p.2, hk, rfl, hlt⟩

/-- **The places stand in order.** -/
theorem pairwise_places (lengths : List ℕ) (rounds : ℕ) :
    (places lengths rounds).Pairwise Before := by
  rw [places, List.pairwise_flatMap]
  constructor
  · intro k _
    rw [round, List.pairwise_map]
    exact (List.pairwise_lt_range.filter _).imp fun hlt ↦ .inr ⟨rfl, hlt⟩
  · refine List.pairwise_lt_range.imp fun hlt p hp q hq ↦ .inl ?_
    rw [(mem_round.mp hp).1, (mem_round.mp hq).1]
    exact hlt

theorem nodup_places (lengths : List ℕ) (rounds : ℕ) : (places lengths rounds).Nodup :=
  (pairwise_places lengths rounds).nodup

/-- The places in one list are its indexes, in order. -/
theorem filter_places (lengths : List ℕ) (rounds i : ℕ) :
    (places lengths rounds).filter (·.1 = i) =
      (List.range (min (lengths.getD i 0) rounds)).map (i, ·) := by
  refine ((pairwise_places lengths rounds).filter _).eq_of_mem_iff ?_ fun p ↦ ?_
  · rw [List.pairwise_map]
    exact List.pairwise_lt_range.imp .inl
  · simp only [List.mem_filter, mem_places, decide_eq_true_eq, List.mem_map, List.mem_range,
      Nat.lt_min]
    constructor
    · rintro ⟨⟨hround, hlt⟩, rfl⟩
      exact ⟨p.2, ⟨hlt, hround⟩, rfl⟩
    · rintro ⟨k, ⟨hlt, hround⟩, rfl⟩
      exact ⟨⟨hround, hlt⟩, rfl⟩

/-- As many places as the lists have elements, not counting those past the last round. -/
theorem length_places (lengths : List ℕ) (rounds : ℕ) :
    (places lengths rounds).length = (lengths.map (min · rounds)).sum := by
  have hlists : (places lengths rounds).Perm ((List.range lengths.length).flatMap fun i ↦
      (List.range (min (lengths.getD i 0) rounds)).map (i, ·)) := by
    refine (List.perm_ext_iff_of_nodup (nodup_places lengths rounds) ?_).mpr fun p ↦ ?_
    · refine List.nodup_flatMap.mpr ⟨fun i _ ↦ ?_, ?_⟩
      · exact List.nodup_range.map fun a b h ↦ (Prod.mk.inj h).2
      · refine List.pairwise_lt_range.imp fun hlt p hp hq ↦ ?_
        obtain ⟨k, -, rfl⟩ := List.mem_map.mp hp
        obtain ⟨k', -, heq⟩ := List.mem_map.mp hq
        exact hlt.ne' (Prod.mk.inj heq).1
    · simp only [mem_places, List.mem_flatMap, List.mem_range, List.mem_map, Nat.lt_min]
      constructor
      · rintro ⟨hround, hlt⟩
        exact ⟨p.1, lt_length_of_lt_getD hlt, p.2, ⟨hlt, hround⟩, rfl⟩
      · rintro ⟨i, -, k, ⟨hlt, hround⟩, rfl⟩
        exact ⟨hround, hlt⟩
  have hcounts : (List.range lengths.length).map (fun i ↦ min (lengths.getD i 0) rounds) =
      lengths.map (min · rounds) := by
    refine List.ext_getElem (by simp) fun i hi hi' ↦ ?_
    simp only [List.getElem_map, List.getElem_range]
    rw [List.getD_eq_getElem?_getD, List.getElem?_eq_getElem, Option.getD_some]
  rw [hlists.length_eq, List.length_flatMap]
  simp only [List.length_map, List.length_range]
  rw [hcounts]

end

/-! ## The elements -/

section Elements

variable {α : Type*} {lists : List (List α)}

/-- What stands at a place. -/
def elementAt (lists : List (List α)) (p : Place) : Option α := lists[p.1]?.bind (·[p.2]?)

/-- The places of some lists. -/
def placesOf (lists : List (List α)) (rounds : ℕ) : List Place := places (lists.map (·.length)) rounds

theorem isSome_elementAt {p : Place} :
    (elementAt lists p).isSome ↔ p.2 < (lists.map (·.length)).getD p.1 0 := by
  rw [elementAt, List.getD_eq_getElem?_getD, List.getElem?_map]
  cases lists[p.1]? with
  | none => simp
  | some l => simp

theorem mem_placesOf {p : Place} {rounds : ℕ} :
    p ∈ placesOf lists rounds ↔ p.2 < rounds ∧ (elementAt lists p).isSome := by
  rw [placesOf, mem_places, isSome_elementAt]

/-- A round finds the elements at its places. -/
theorem filterMap_round (lists : List (List α)) (k : ℕ) :
    lists.filterMap (·[k]?) = (round (lists.map (·.length)) k).filterMap (elementAt lists) := by
  have hindexes : (List.range lists.length).map (lists[·]?) = lists.map some := by
    refine List.ext_getElem (by simp) fun i hi hi' ↦ ?_
    simp only [List.getElem_map, List.getElem_range]
    rw [List.getElem?_eq_getElem]
  have hround : ∀ i, (if k < (lists.map (·.length)).getD i 0 then elementAt lists (i, k) else none) =
      elementAt lists (i, k) := by
    intro i
    split
    · rfl
    · next hnone =>
      rw [← @isSome_elementAt _ lists (i, k), Option.not_isSome_iff_eq_none] at hnone
      exact hnone.symm
  calc lists.filterMap (·[k]?)
      = (lists.map some).filterMap (·.bind (·[k]?)) := by
        rw [List.filterMap_map]
        rfl
    _ = (List.range lists.length).filterMap fun i ↦ elementAt lists (i, k) := by
        rw [← hindexes, List.filterMap_map]
        rfl
    _ = _ := by
        rw [round, List.filterMap_map, List.filterMap_filter, List.length_map]
        simp only [decide_eq_true_eq, Function.comp_def, hround]

/-- All rounds find the elements at all places. -/
theorem flatMap_rounds (lists : List (List α)) (rounds : ℕ) :
    ((List.range rounds).flatMap fun k ↦ lists.filterMap (·[k]?)) =
      (placesOf lists rounds).filterMap (elementAt lists) := by
  rw [placesOf, places, List.filterMap_flatMap]
  exact congrArg (List.flatMap · _) (funext fun k ↦ filterMap_round lists k)

/-- There is an element at every place. -/
theorem map_placesOf (lists : List (List α)) (rounds : ℕ) :
    (placesOf lists rounds).map (elementAt lists) =
      ((placesOf lists rounds).filterMap (elementAt lists)).map some := by
  rw [List.map_filterMap_some_eq_filter_map_isSome, List.filter_eq_self.mpr]
  exact List.forall_mem_map.mpr fun p hp ↦ (mem_placesOf.mp hp).2

end Elements

/-! ## A prefix -/

section Prefix

variable {lengths : List ℕ} {rounds : ℕ} {seen : List Place}

/-- What a loop has looked at is a prefix of each list. -/
theorem filter_seen (h : seen <+: places lengths rounds) (i : ℕ) :
    seen.filter (·.1 = i) = (List.range (seen.countP (·.1 = i))).map (i, ·) := by
  have hfilter := h.filter (·.1 = i)
  have hlength := hfilter.length_le
  rw [List.prefix_iff_eq_take, ← List.countP_eq_length_filter] at hfilter
  rw [← List.countP_eq_length_filter, filter_places, List.length_map, List.length_range] at hlength
  rw [hfilter, filter_places, ← List.map_take, List.take_range, min_eq_left hlength]

theorem mem_seen (h : seen <+: places lengths rounds) {i k : ℕ} :
    (i, k) ∈ seen ↔ k < seen.countP (·.1 = i) := by
  have hmem : (i, k) ∈ seen ↔ (i, k) ∈ seen.filter (·.1 = i) := by simp
  rw [hmem, filter_seen h]
  simp

theorem countP_seen_le (h : seen <+: places lengths rounds) (i : ℕ) :
    seen.countP (·.1 = i) ≤ min (lengths.getD i 0) rounds := by
  have hlength := (h.filter (·.1 = i)).length_le
  rwa [filter_places, List.length_map, List.length_range, ← List.countP_eq_length_filter] at hlength

/-- **A prefix is fair.** -/
theorem fair_seen (h : seen <+: places lengths rounds) (i j : ℕ) :
    seen.countP (·.1 = j) ≤ seen.countP (·.1 = i) + 1 ∨
      seen.countP (·.1 = i) = min (lengths.getD i 0) rounds := by
  by_contra hunfair
  rw [not_or, not_le] at hunfair
  obtain ⟨hahead, hmore⟩ := hunfair
  have hseen := (mem_seen h).mpr hahead
  have hnext : (i, seen.countP (·.1 = i)) ∈ places lengths rounds := by
    have hlt := lt_of_le_of_ne (countP_seen_le h i) hmore
    exact mem_places.mpr (Nat.lt_min.mp hlt).symm
  have hunseen : (i, seen.countP (·.1 = i)) ∉ seen := fun hmem ↦
    lt_irrefl _ ((mem_seen h).mp hmem)
  -- the next place of the list behind comes after one of a later round
  have hpairwise := pairwise_places lengths rounds
  obtain ⟨rest, hrest⟩ := h
  rw [← hrest] at hpairwise hnext
  have hbefore := (List.pairwise_append.mp hpairwise).2.2 _ hseen _
    ((List.mem_append.mp hnext).resolve_left hunseen)
  rcases hbefore with hlt | ⟨heq, -⟩
  · exact absurd hlt (Nat.not_lt.mpr (Nat.le_succ _))
  · exact absurd heq (Nat.succ_ne_self _)

end Prefix

end Rounds
