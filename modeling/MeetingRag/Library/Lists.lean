import Mathlib.Data.List.Basic
import Mathlib.Data.List.Dedup
import Mathlib.Data.List.Induction
import Mathlib.Tactic.Common

/-!
# Selections from lists

Two ways in which a program reads lists: round by round, where the elements with one index of all the
lists come before those with the next, and once for each key, where a later element with a key that
has been seen is skipped.
-/

namespace Lists

universe u v

variable {α : Type u} {κ : Type v}

/-- The elements of the lists, round by round. -/
def roundRobin (rows : List (List α)) : List α :=
  (List.range ((rows.map (·.length)).foldr max 0)).flatMap fun i ↦ rows.filterMap (·[i]?)

section Firsts

variable [DecidableEq κ] (key : α → κ)

/-- The first element of each key. -/
def firsts (xs : List α) : List α :=
  xs.foldl (fun kept x ↦ if key x ∈ kept.map key then kept else kept ++ [x]) []

variable {key}

theorem firsts_concat (xs : List α) (x : α) :
    firsts key (xs ++ [x]) =
      if key x ∈ (firsts key xs).map key then firsts key xs else firsts key xs ++ [x] := by
  rw [firsts, List.foldl_append]
  rfl

theorem mem_map_firsts {xs : List α} {k : κ} :
    k ∈ (firsts key xs).map key ↔ k ∈ xs.map key := by
  induction xs using List.reverseRecOn with
  | nil => exact Iff.rfl
  | append_singleton xs x ih =>
    rw [firsts_concat, List.map_append, List.mem_append, List.map_singleton, List.mem_singleton]
    split
    · next hseen =>
      rw [ih]
      constructor
      · exact Or.inl
      · rintro (h | rfl)
        · exact h
        · exact ih.mp hseen
    · rw [List.map_append, List.mem_append, List.map_singleton, List.mem_singleton, ih]

theorem nodup_map_firsts (key : α → κ) (xs : List α) : ((firsts key xs).map key).Nodup := by
  induction xs using List.reverseRecOn with
  | nil => exact List.nodup_nil
  | append_singleton xs x ih =>
    rw [firsts_concat]
    split
    · exact ih
    · next hnew =>
      rw [List.map_append, List.map_singleton, List.nodup_append]
      refine ⟨ih, List.nodup_singleton _, ?_⟩
      rintro a ha b hb rfl
      exact hnew (List.mem_singleton.mp hb ▸ ha)

theorem firsts_sublist (key : α → κ) (xs : List α) : (firsts key xs).Sublist xs := by
  induction xs using List.reverseRecOn with
  | nil => exact List.Sublist.slnil
  | append_singleton xs x ih =>
    rw [firsts_concat]
    split
    · exact ih.trans (List.sublist_append_left _ _)
    · exact ih.append (List.Sublist.refl _)

/-- The first ones among the first elements are the first elements up to some place. -/
theorem exists_take_firsts (key : α → κ) (xs : List α) (n : ℕ) :
    ∃ m, (firsts key xs).take n = firsts key (xs.take m) := by
  induction xs using List.reverseRecOn with
  | nil => exact ⟨0, List.take_nil⟩
  | append_singleton xs x ih =>
    obtain ⟨m, hm⟩ := ih
    have hold : (firsts key xs).take n = firsts key ((xs ++ [x]).take (min m xs.length)) := by
      rw [hm, List.take_append_of_le_length (Nat.min_le_right _ _), ← List.take_take, List.take_length]
    rw [firsts_concat]
    split
    · exact ⟨_, hold⟩
    · next hnew =>
      by_cases hroom : n ≤ (firsts key xs).length
      · exact ⟨_, (List.take_append_of_le_length hroom).trans hold⟩
      · refine ⟨(xs ++ [x]).length, ?_⟩
        rw [List.take_length, firsts_concat, if_neg hnew, List.take_of_length_le]
        rw [List.length_append, List.length_singleton]
        omega

/-- The first elements of a list that is read through a function. -/
theorem firsts_map {β : Type*} (f : β → α) (xs : List β) :
    firsts key (xs.map f) = (firsts (fun x ↦ key (f x)) xs).map f := by
  induction xs using List.reverseRecOn with
  | nil => rfl
  | append_singleton xs x ih =>
    rw [List.map_append, List.map_singleton, firsts_concat, firsts_concat, ih, List.map_map]
    split
    · next hseen => rw [if_pos (by simpa using hseen)]
    · next hnew =>
      rw [if_neg (by simpa using hnew), List.map_append, List.map_singleton]

/-- Keys that are told apart as well. -/
theorem firsts_injective {ι : Type*} [DecidableEq ι] {g : κ → ι} (hg : Function.Injective g)
    (key : α → κ) (xs : List α) : firsts (fun x ↦ g (key x)) xs = firsts key xs := by
  induction xs using List.reverseRecOn with
  | nil => rfl
  | append_singleton xs x ih =>
    have hseen : g (key x) ∈ (firsts key xs).map (fun x ↦ g (key x)) ↔
        key x ∈ (firsts key xs).map key := by
      rw [← Function.comp_def, ← List.map_map, List.mem_map_of_injective hg]
    rw [firsts_concat, firsts_concat, ih]
    exact if_congr hseen rfl rfl

theorem mem_of_mem_firsts {xs : List α} {x : α} (h : x ∈ firsts key xs) : x ∈ xs :=
  (firsts_sublist key xs).subset h

/-- Keep an element if its key is new and there is room. -/
def cappedStep (cap : ℕ) (key : α → κ) (kept : List α) (x : α) : List α :=
  if cap ≤ kept.length ∨ key x ∈ kept.map key then kept else kept ++ [x]

theorem length_cappedStep_le {cap : ℕ} {key : α → κ} {kept : List α} {x : α} (h : kept.length ≤ cap) :
    (cappedStep cap key kept x).length ≤ cap := by
  rw [cappedStep]
  split
  · exact h
  · rw [List.length_append, List.length_singleton]
    omega

/-- **A loop that keeps new keys up to a cap** keeps the first elements. -/
theorem foldl_cappedStep (cap : ℕ) (key : α → κ) (xs : List α) :
    xs.foldl (cappedStep cap key) [] = (firsts key xs).take cap := by
  induction xs using List.reverseRecOn with
  | nil => exact List.take_nil.symm
  | append_singleton xs x ih =>
    rw [List.foldl_append, ih, List.foldl_cons, List.foldl_nil, cappedStep, firsts_concat]
    by_cases hfull : cap ≤ (firsts key xs).length
    · rw [if_pos (Or.inl (by rw [List.length_take]; omega))]
      split
      · rfl
      · rw [List.take_append_of_le_length hfull]
    · rw [List.take_of_length_le (by omega)]
      by_cases hseen : key x ∈ (firsts key xs).map key
      · rw [if_pos (Or.inr hseen), if_pos hseen, List.take_of_length_le (by omega)]
      · rw [if_neg (by rintro (h | h); exacts [hfull h, hseen h]), if_neg hseen,
          List.take_of_length_le (by rw [List.length_append, List.length_singleton]; omega)]

end Firsts

theorem le_foldr_max {ns : List ℕ} {n : ℕ} (h : n ∈ ns) : n ≤ ns.foldr max 0 := by
  induction ns with
  | nil => exact absurd h List.not_mem_nil
  | cons m ns ih =>
    rcases List.mem_cons.mp h with rfl | h
    · exact Nat.le_max_left _ _
    · exact Nat.le_trans (ih h) (Nat.le_max_right _ _)

/-- A relation between the elements of the lists drawn from numbered entries, when it holds within each
list and between the lists of two different numbers. -/
theorem pairwise_zipIdx {β : Type u} {R : β → β → Prop} {l : List α} {f : α × ℕ → List β} {n : ℕ}
    (within : ∀ p, (f p).Pairwise R)
    (between : ∀ p q, p.2 ≠ q.2 → ∀ a ∈ f p, ∀ b ∈ f q, R a b) :
    ((l.zipIdx n).flatMap f).Pairwise R := by
  induction l generalizing n with
  | nil => exact List.Pairwise.nil
  | cons a l ih =>
    rw [List.zipIdx_cons, List.flatMap_cons, List.pairwise_append]
    refine ⟨within (a, n), ih, fun x hx y hy ↦ ?_⟩
    obtain ⟨q, hq, hy⟩ := List.mem_flatMap.mp hy
    have hlt : n < q.2 := List.le_snd_of_mem_zipIdx hq
    exact between (a, n) q (Nat.ne_of_lt hlt) x hx y hy

/-! ## Filters that a reader does not notice

A reader that only ever looks at some of the elements finds the same in the list of these. -/

section Filters

variable {β : Type v} {p q : α → Bool} {xs : List α}

theorem exists_mem_filter_iff {q : α → Prop} (h : ∀ x ∈ xs, q x → p x = true) :
    (∃ x ∈ xs.filter p, q x) ↔ ∃ x ∈ xs, q x := by
  constructor
  · rintro ⟨x, hx, hq⟩
    exact ⟨x, List.mem_of_mem_filter hx, hq⟩
  · rintro ⟨x, hx, hq⟩
    exact ⟨x, List.mem_filter.mpr ⟨hx, h x hx hq⟩, hq⟩

theorem filter_filter_of_imp (h : ∀ x ∈ xs, q x = true → p x = true) :
    (xs.filter p).filter q = xs.filter q := by
  rw [List.filter_filter]
  refine List.filter_congr fun x hx ↦ ?_
  cases hq : q x with
  | false => rfl
  | true => rw [h x hx hq, Bool.and_self]

theorem find?_filter_of_imp (h : ∀ x ∈ xs, q x = true → p x = true) :
    (xs.filter p).find? q = xs.find? q := by
  rw [← List.head?_filter, ← List.head?_filter, filter_filter_of_imp h]

theorem findSome?_filter_of_none {f : α → Option β} (h : ∀ x ∈ xs, ¬p x = true → f x = none) :
    (xs.filter p).findSome? f = xs.findSome? f := by
  induction xs with
  | nil => rfl
  | cons x xs ih =>
    obtain ⟨hx, hxs⟩ := List.forall_mem_cons.mp h
    by_cases hp : p x = true
    · rw [List.filter_cons_of_pos hp, List.findSome?_cons, List.findSome?_cons, ih hxs]
    · rw [List.filter_cons_of_neg hp, List.findSome?_cons, hx hp, ih hxs]

theorem findSome?_congr_of_mem {f g : α → Option β} (h : ∀ x ∈ xs, f x = g x) :
    xs.findSome? f = xs.findSome? g := by
  induction xs with
  | nil => rfl
  | cons x xs ih =>
    obtain ⟨hx, hxs⟩ := List.forall_mem_cons.mp h
    rw [List.findSome?_cons, List.findSome?_cons, hx, ih hxs]

theorem filterMap_filter_of_none {f : α → Option β} (h : ∀ x ∈ xs, ¬p x = true → f x = none) :
    (xs.filter p).filterMap f = xs.filterMap f := by
  induction xs with
  | nil => rfl
  | cons x xs ih =>
    obtain ⟨hx, hxs⟩ := List.forall_mem_cons.mp h
    by_cases hp : p x = true
    · rw [List.filter_cons_of_pos hp, List.filterMap_cons, List.filterMap_cons, ih hxs]
    · rw [List.filter_cons_of_neg hp, List.filterMap_cons, hx hp, ih hxs]

end Filters

/-- Numbers that nothing reads. -/
theorem flatMap_zipIdx_fst {β : Type*} (l : List α) (n : ℕ) (f : α → List β) :
    (l.zipIdx n).flatMap (fun a ↦ f a.1) = l.flatMap f := by
  conv_rhs => rw [← List.zipIdx_map_fst n l, List.flatMap_map]

end Lists
