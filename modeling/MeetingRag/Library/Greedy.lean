import Mathlib.Data.List.Induction
import Mathlib.Data.List.Pairwise
import Mathlib.Tactic.Common

/-!
# Greedy selection

Elements are offered one after the other, and one is kept unless it conflicts with one that was kept
before. The selection is maximal: what is not kept conflicts with something kept that stands before it.

Two orders of the same elements lead to the same selection when they agree on the elements that
conflict (`greedy_agree`). How the other elements are ordered does not matter.
-/

namespace Lists

universe u

variable {α : Type u} (conflict : α → α → Prop) [DecidableRel conflict]

/-- Keep an element unless it conflicts with one that is there. -/
def greedyStep (kept : List α) (x : α) : List α :=
  if ∃ y ∈ kept, conflict y x then kept else kept ++ [x]

/-- The greedy selection from a list. -/
def greedy (xs : List α) : List α := xs.foldl (greedyStep conflict) []

variable {conflict}

theorem greedy_concat (xs : List α) (x : α) :
    greedy conflict (xs ++ [x]) = greedyStep conflict (greedy conflict xs) x := by
  rw [greedy, List.foldl_append]
  rfl

theorem greedy_sublist (xs : List α) : (greedy conflict xs).Sublist xs := by
  induction xs using List.reverseRecOn with
  | nil => exact List.Sublist.slnil
  | append_singleton xs x ih =>
    rw [greedy_concat, greedyStep]
    split
    · exact ih.trans (List.sublist_append_left _ _)
    · exact ih.append (List.Sublist.refl _)

/-- Nothing that is kept conflicts with what is kept later. -/
theorem pairwise_greedy (xs : List α) : (greedy conflict xs).Pairwise fun a b ↦ ¬conflict a b := by
  induction xs using List.reverseRecOn with
  | nil => exact List.Pairwise.nil
  | append_singleton xs x ih =>
    rw [greedy_concat, greedyStep]
    split
    · exact ih
    · next hfree =>
      refine List.pairwise_append.mpr ⟨ih, List.pairwise_singleton _ _, fun a ha b hb hab ↦ ?_⟩
      rw [List.mem_singleton] at hb
      exact hfree ⟨a, ha, hb ▸ hab⟩

section Order

variable {R : α → α → Prop} {xs : List α}

/-- **The selection is maximal.** -/
theorem exists_conflict (hR : xs.Pairwise R) {x : α} (hx : x ∈ xs) (hout : x ∉ greedy conflict xs) :
    ∃ y ∈ greedy conflict xs, conflict y x ∧ R y x := by
  induction xs using List.reverseRecOn with
  | nil => exact absurd hx List.not_mem_nil
  | append_singleton xs z ih =>
    obtain ⟨hxs, -, hlast⟩ := List.pairwise_append.mp hR
    have hkeeps : ∀ y ∈ greedy conflict xs, y ∈ greedy conflict (xs ++ [z]) := by
      intro y hy
      rw [greedy_concat, greedyStep]
      split
      · exact hy
      · exact List.mem_append_left _ hy
    rcases List.mem_append.mp hx with hx | hz
    · obtain ⟨y, hy, hconflict, hle⟩ := ih hxs hx fun hin ↦ hout (hkeeps x hin)
      exact ⟨y, hkeeps y hy, hconflict, hle⟩
    · rw [List.mem_singleton] at hz
      subst hz
      have hblocked : ∃ y ∈ greedy conflict xs, conflict y x := by
        by_contra hfree
        refine hout ?_
        rw [greedy_concat, greedyStep, if_neg hfree]
        exact List.mem_append_right _ List.mem_cons_self
      obtain ⟨y, hy, hconflict⟩ := hblocked
      exact ⟨y, hkeeps y hy, hconflict, hlast y ((greedy_sublist xs).subset hy) x List.mem_cons_self⟩

/-- An element is kept exactly if nothing that is kept before it conflicts with it. -/
theorem mem_greedy_iff (hR : xs.Pairwise R) (hasymm : ∀ a b, R a b → ¬R b a) {x : α} :
    x ∈ greedy conflict xs ↔ x ∈ xs ∧ ∀ y ∈ greedy conflict xs, conflict y x → ¬R y x := by
  constructor
  · intro hx
    refine ⟨(greedy_sublist xs).subset hx, fun y hy hconflict hbefore ↦ ?_⟩
    have hpairs : (greedy conflict xs).Pairwise fun a b ↦
        (R a b → ¬conflict a b) ∧ (R b a → ¬conflict b a) :=
      ((hR.sublist (greedy_sublist xs)).and (pairwise_greedy xs)).imp fun ⟨hR, hfree⟩ ↦
        ⟨fun _ ↦ hfree, fun hR' ↦ absurd hR' (hasymm _ _ hR)⟩
    have _ : Std.Symm fun a b ↦ (R a b → ¬conflict a b) ∧ (R b a → ¬conflict b a) :=
      ⟨fun _ _ h ↦ h.symm⟩
    have hall := List.Pairwise.forall_of_forall
      (fun a _ ↦ ⟨fun h ↦ absurd h (hasymm a a h), fun h ↦ absurd h (hasymm a a h)⟩) hpairs
    exact (hall hy hx).1 hbefore hconflict
  · rintro ⟨hx, hfree⟩
    by_contra hout
    obtain ⟨y, hy, hconflict, hbefore⟩ := exists_conflict hR hx hout
    exact hfree y hy hconflict hbefore

end Order

/-- **Two orders that agree on conflicting elements** lead to the same selection. -/
theorem greedy_agree {R R' : α → α → Prop} {xs ys : List α} (hmem : ∀ x, x ∈ xs ↔ x ∈ ys)
    (hR : xs.Pairwise R) (hasymm : ∀ a b, R a b → ¬R b a) (hR' : ys.Pairwise R')
    (hasymm' : ∀ a b, R' a b → ¬R' b a)
    (hagree : ∀ a ∈ xs, ∀ b ∈ xs, conflict a b → (R a b ↔ R' a b)) (x : α) :
    x ∈ greedy conflict xs ↔ x ∈ greedy conflict ys := by
  -- from the front of the list on, since an element depends on those before it
  have hfront : ∀ done, done <+: xs → ∀ x ∈ done,
      (x ∈ greedy conflict xs ↔ x ∈ greedy conflict ys) := by
    intro done
    induction done using List.reverseRecOn with
    | nil => exact fun _ x hx ↦ absurd hx List.not_mem_nil
    | append_singleton done z ih =>
      intro hdone x hx
      have hold := ih ((List.prefix_append done [z]).trans hdone)
      rcases List.mem_append.mp hx with hx | hz
      · exact hold x hx
      rw [List.mem_singleton] at hz
      subst hz
      have hxs : x ∈ xs := hdone.subset hx
      have hbefore : ∀ y ∈ xs, R y x → y ∈ done := by
        intro y hy hyx
        obtain ⟨rest, hrest⟩ := hdone
        rw [← hrest] at hy hR
        rcases List.mem_append.mp hy with hy | hy
        · rcases List.mem_append.mp hy with hy | hy
          · exact hy
          · rw [List.mem_singleton.mp hy] at hyx
            exact absurd hyx (hasymm x x hyx)
        · exact absurd hyx (hasymm _ _ ((List.pairwise_append.mp hR).2.2 x hx y hy))
      rw [mem_greedy_iff hR hasymm, mem_greedy_iff hR' hasymm']
      refine and_congr (hmem x) ⟨fun hfree y hy hconflict hyx ↦ ?_, fun hfree y hy hconflict hyx ↦ ?_⟩
      · have hyxs := (hmem y).mpr ((greedy_sublist ys).subset hy)
        have hyx := (hagree y hyxs x hxs hconflict).mpr hyx
        exact hfree y ((hold y (hbefore y hyxs hyx)).mpr hy) hconflict hyx
      · have hyxs := (greedy_sublist xs).subset hy
        exact hfree y ((hold y (hbefore y hyxs hyx)).mp hy) hconflict
          ((hagree y hyxs x hxs hconflict).mp hyx)
  constructor
  · intro hx
    exact (hfront xs List.prefix_rfl x ((greedy_sublist xs).subset hx)).mp hx
  · intro hx
    exact (hfront xs List.prefix_rfl x ((hmem x).mpr ((greedy_sublist ys).subset hx))).mpr hx

/-- Selecting from a list that is read through a function. -/
theorem greedy_map {β : Type*} (f : β → α) (xs : List β) :
    greedy conflict (xs.map f) = (greedy (fun a b ↦ conflict (f a) (f b)) xs).map f := by
  induction xs using List.reverseRecOn with
  | nil => rfl
  | append_singleton xs x ih =>
    have hblocked : (∃ y ∈ (greedy (fun a b ↦ conflict (f a) (f b)) xs).map f, conflict y (f x)) ↔
        ∃ y ∈ greedy (fun a b ↦ conflict (f a) (f b)) xs, conflict (f y) (f x) := by simp
    rw [List.map_append, List.map_singleton, greedy_concat, greedy_concat, ih, greedyStep, greedyStep]
    by_cases h : ∃ y ∈ greedy (fun a b ↦ conflict (f a) (f b)) xs, conflict (f y) (f x)
    · rw [if_pos h, if_pos (hblocked.mpr h)]
    · rw [if_neg h, if_neg (hblocked.not.mpr h), List.map_append, List.map_singleton]

theorem greedy_congr {conflict' : α → α → Prop} [DecidableRel conflict']
    (h : ∀ a b, conflict a b ↔ conflict' a b) (xs : List α) :
    greedy conflict xs = greedy conflict' xs := by
  have hstep : greedyStep conflict = greedyStep conflict' := by
    funext kept x
    exact if_congr (exists_congr fun y ↦ and_congr_right fun _ ↦ h y x) rfl rfl
  rw [greedy, greedy, hstep]

end Lists
