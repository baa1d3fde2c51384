import Mathlib.Data.List.Induction
import Mathlib.Tactic.Common
import Mathlib.Tactic.Ring

/-!
# Bijective numeration

In bijective numeration to a base `b` the digits run from `1` to `b`, and no digit stands for nothing.
So there are no leading zeros, and every number has one numeral: the digits can be read back from the
number, the last one first.
-/

namespace Bijective

/-- The number that a numeral spells, the most significant digit first. -/
def value (b : ℕ) (ds : List ℕ) : ℕ := ds.foldl (fun v d ↦ v * b + d) 0

/-- The digits of a numeral to the base `b`. -/
def IsNumeral (b : ℕ) (ds : List ℕ) : Prop := ∀ d ∈ ds, 1 ≤ d ∧ d ≤ b

variable {b d e v w : ℕ} {ds es : List ℕ}

@[simp] theorem value_nil : value b [] = 0 := rfl

@[simp] theorem value_concat : value b (ds ++ [d]) = value b ds * b + d := by
  rw [value, List.foldl_append]
  rfl

theorem IsNumeral.of_concat (h : IsNumeral b (ds ++ [d])) : IsNumeral b ds ∧ 1 ≤ d ∧ d ≤ b :=
  ⟨fun x hx ↦ h x (List.mem_append_left _ hx), h d (List.mem_append_right _ List.mem_cons_self)⟩

/-- The last digit of a number and what is in front of it. -/
theorem eq_of_mul_add_eq (hd : 1 ≤ d ∧ d ≤ b) (he : 1 ≤ e ∧ e ≤ b) (h : v * b + d = w * b + e) :
    v = w ∧ d = e := by
  -- A difference in front of the last digit is a difference of `b` at least.
  have hle : ∀ {v w d e : ℕ}, 1 ≤ d → e ≤ b → v * b + d = w * b + e → v ≤ w := by
    intro v w d e hd he h
    by_contra hlt
    have hmul : (w + 1) * b ≤ v * b := Nat.mul_le_mul_right b (by omega)
    rw [Nat.add_mul, Nat.one_mul] at hmul
    omega
  have hvw : v = w := Nat.le_antisymm (hle hd.1 he.2 h) (hle he.1 hd.2 h.symm)
  subst hvw
  exact ⟨rfl, by omega⟩

/-- **Every number has one numeral.** -/
theorem value_injective (hds : IsNumeral b ds) (hes : IsNumeral b es)
    (h : value b ds = value b es) : ds = es := by
  induction ds using List.reverseRecOn generalizing es with
  | nil =>
    cases es using List.reverseRecOn with
    | nil => rfl
    | append_singleton es e =>
      rw [value_nil, value_concat] at h
      have := hes.of_concat.2.1
      omega
  | append_singleton ds d ih =>
    cases es using List.reverseRecOn with
    | nil =>
      rw [value_nil, value_concat] at h
      have := hds.of_concat.2.1
      omega
    | append_singleton es e =>
      rw [value_concat, value_concat] at h
      obtain ⟨hfront, rfl⟩ := eq_of_mul_add_eq hds.of_concat.2 hes.of_concat.2 h
      rw [ih hds.of_concat.1 hes.of_concat.1 hfront]

end Bijective
