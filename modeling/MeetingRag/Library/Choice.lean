import Mathlib.Data.List.Sort
import Mathlib.Data.Prod.Lex
import MeetingRag.Library.Lists

/-!
# Choosing from a ranked list

Sorting by a key, and filling a set up to a limit with what comes first. What is filled in is a prefix of
the elements that were not there before, so nothing that is left out comes before anything filled in.
-/

namespace Lists

universe u v

variable {α : Type u} {κ : Type v}

section Sorted

variable [LinearOrder κ] {key : α → κ}

/-- `sorted(…, key=…)` -/
def sortedBy (key : α → κ) (xs : List α) : List α := xs.insertionSort fun a b ↦ key a ≤ key b

theorem sortedBy_perm (key : α → κ) (xs : List α) : (sortedBy key xs).Perm xs :=
  List.perm_insertionSort _ _

theorem mem_sortedBy {xs : List α} {x : α} : x ∈ sortedBy key xs ↔ x ∈ xs :=
  (sortedBy_perm key xs).mem_iff

theorem pairwise_sortedBy (key : α → κ) (xs : List α) :
    (sortedBy key xs).Pairwise fun a b ↦ key a ≤ key b := by
  let _ : Std.Total fun a b : α ↦ key a ≤ key b := ⟨fun a b ↦ le_total (key a) (key b)⟩
  let _ : IsTrans α fun a b ↦ key a ≤ key b := ⟨fun _ _ _ ↦ le_trans⟩
  exact List.pairwise_insertionSort _ xs

/-- A list that is sorted stays as it is. -/
theorem sortedBy_eq_self {xs : List α} (h : xs.Pairwise fun a b ↦ key a ≤ key b) :
    sortedBy key xs = xs := h.insertionSort_eq

end Sorted

/-- The first element of a key stands before the others of that key. -/
theorem exists_first [DecidableEq κ] (key : α → κ) {R : α → α → Prop} [Std.Refl R] {xs : List α}
    (hsorted : xs.Pairwise R) {x : α} (hx : x ∈ xs) : ∃ y ∈ firsts key xs, key y = key x ∧ R y x := by
  induction xs using List.reverseRecOn with
  | nil => exact absurd hx List.not_mem_nil
  | append_singleton xs z ih =>
    obtain ⟨hxs, -, hlast⟩ := List.pairwise_append.mp hsorted
    rw [firsts_concat]
    rcases List.mem_append.mp hx with hx | hx
    · obtain ⟨y, hy, hkey, hle⟩ := ih hxs hx
      refine ⟨y, ?_, hkey, hle⟩
      split
      · exact hy
      · exact List.mem_append_left _ hy
    · rw [List.mem_singleton] at hx
      subst hx
      split
      · next hseen =>
        obtain ⟨y, hy, hkey⟩ := List.mem_map.mp hseen
        exact ⟨y, hy, hkey, hlast y (mem_of_mem_firsts hy) x List.mem_cons_self⟩
      · exact ⟨x, List.mem_append_right _ List.mem_cons_self, rfl, refl x⟩

section Fill

variable [DecidableEq α]

/-- `s.add(x)` -/
def insertNew (s : List α) (x : α) : List α := if x ∈ s then s else s ++ [x]

/-- One step of a loop that ends when the set has reached its limit. -/
def fillStep (limit : ℕ) (s : List α) (x : α) : List α := if limit ≤ s.length then s else insertNew s x

variable {limit : ℕ}

theorem foldl_insertNew {s xs : List α} (h : (s ++ xs).Nodup) : xs.foldl insertNew s = s ++ xs := by
  induction xs generalizing s with
  | nil => exact (List.append_nil s).symm
  | cons x xs ih =>
    have hnew : x ∉ s := fun hmem ↦
      (List.nodup_append.mp h).2.2 x hmem x List.mem_cons_self rfl
    rw [List.append_cons] at h
    rw [List.foldl_cons, insertNew, if_neg hnew, ih h, List.append_assoc, List.singleton_append]

theorem foldl_fillStep_of_full {s : List α} (h : limit ≤ s.length) (xs : List α) :
    xs.foldl (fillStep limit) s = s := by
  induction xs with
  | nil => rfl
  | cons x xs ih => rw [List.foldl_cons, fillStep, if_pos h, ih]

/-- **The loop fills in what comes first of the elements that are not there yet.** -/
theorem foldl_fillStep {s xs : List α} (h : xs.Nodup) :
    xs.foldl (fillStep limit) s = s ++ (xs.filter (· ∉ s)).take (limit - s.length) := by
  induction xs generalizing s with
  | nil => rw [List.filter_nil, List.take_nil, List.append_nil, List.foldl_nil]
  | cons x xs ih =>
    obtain ⟨hx, hxs⟩ := List.nodup_cons.mp h
    by_cases hfull : limit ≤ s.length
    · rw [foldl_fillStep_of_full hfull, Nat.sub_eq_zero_of_le hfull, List.take_zero, List.append_nil]
    rw [List.foldl_cons, fillStep, if_neg hfull, insertNew]
    by_cases hmem : x ∈ s
    · rw [if_pos hmem, ih hxs, List.filter_cons_of_neg (by simpa using hmem)]
    · have hrest : xs.filter (· ∉ s ++ [x]) = xs.filter (· ∉ s) := by
        refine List.filter_congr fun y hy ↦ decide_eq_decide.mpr (not_congr ?_)
        rw [List.mem_append, List.mem_singleton]
        exact or_iff_left fun heq ↦ hx (heq ▸ hy)
      have hroom : limit - s.length = limit - (s ++ [x]).length + 1 := by
        rw [List.length_append, List.length_singleton]
        omega
      rw [if_neg hmem, ih hxs, List.filter_cons_of_pos (by simpa using hmem), hrest, hroom,
        List.take_succ_cons, List.append_assoc, List.singleton_append]

end Fill

end Lists
