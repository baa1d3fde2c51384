import Mathlib.Data.List.Basic
import MeetingRag.Library.Outcome

/-!
# Loops that return early

A loop that returns from inside is a fold in `Except`, the result of the function being the error. A loop
that appends what it meets and returns when it has enough takes a prefix of all there is to append.
-/

namespace Outcome

variable {α β γ : Type}

/-- What a function returns, from inside its loop or after it. -/
def returned : Except α α → α
  | .ok a => a
  | .error a => a

/-- Append what a step brings, and return with `most` items. -/
def appendUntil (most : ℕ) (bring : β → Option γ) (items : List γ) (b : β) :
    Except (List γ) (List γ) :=
  match bring b with
  | none => .ok items
  | some c => if (items ++ [c]).length ≥ most then .error (items ++ [c]) else .ok (items ++ [c])

/-- Two loops, one in the other, are one loop over what the inner loops go over. -/
theorem foldlM_flatMap {ε δ : Type} (l : List α) (f : α → List β) (step : δ → β → Except ε δ) (d : δ) :
    (l.flatMap f).foldlM step d = l.foldlM (fun d a ↦ (f a).foldlM step d) d := by
  induction l generalizing d with
  | nil => rfl
  | cons a l ih =>
    rw [List.flatMap_cons, List.foldlM_append, List.foldlM_cons]
    exact congrArg _ (funext ih)

variable {most : ℕ} {bring : β → Option γ}

theorem foldlM_appendUntil {items : List γ} (h : items.length < most) (bs : List β) :
    bs.foldlM (appendUntil most bring) items =
      if items.length + (bs.filterMap bring).length < most then .ok (items ++ bs.filterMap bring)
      else .error (items ++ (bs.filterMap bring).take (most - items.length)) := by
  induction bs generalizing items with
  | nil =>
    rw [List.filterMap_nil, List.length_nil, Nat.add_zero, if_pos h, List.append_nil]
    rfl
  | cons b bs ih =>
    rw [List.foldlM_cons, appendUntil]
    cases hb : bring b with
    | none =>
      rw [List.filterMap_cons_none hb]
      exact ih h
    | some c =>
      rw [List.filterMap_cons_some hb, List.length_cons]
      have hlength : (items ++ [c]).length = items.length + 1 := List.length_append
      by_cases hfull : items.length + 1 ≥ most
      · have hone : most - items.length = 1 := by omega
        rw [if_neg (by omega), hone, List.take_succ_cons, List.take_zero]
        simp only [hlength, if_pos hfull]
        rfl
      · have hroom : (items ++ [c]).length < most := by omega
        have hrest : most - items.length = most - (items ++ [c]).length + 1 := by omega
        simp only [hlength, if_neg hfull]
        rw [ok_bind, ih hroom, hlength, hrest, List.take_succ_cons, List.append_assoc,
          List.append_assoc, Nat.add_right_comm, Nat.add_assoc items.length, List.singleton_append,
          List.singleton_append, hlength]

/-- **The loop takes a prefix.** -/
theorem returned_foldlM_appendUntil (h : 0 < most) (bs : List β) :
    returned (bs.foldlM (appendUntil most bring) []) = (bs.filterMap bring).take most := by
  rw [foldlM_appendUntil h, List.length_nil, Nat.zero_add]
  split
  · next hfew => exact (List.take_of_length_le (Nat.le_of_lt hfew)).symm
  · rfl

end Outcome
