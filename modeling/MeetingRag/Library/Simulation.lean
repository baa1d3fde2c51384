import MeetingRag.Library.Machine

/-!
# Simulations between machines

A component often stands for a simpler machine: part of its state, read through an abstraction, moves
by the rules of that machine, and some of its answers are the answers of that machine. The rest of its
steps do not move that part at all.

What is observed of a step is decided by its input and its outcome. So one component may stand for
several machines at once, each with an abstraction and observations of its own, and that a step is
invisible to one of them says that the two are isolated.
-/

universe u v w

namespace Machine

variable {σ τ : Type u} {ι κ : Type v} {ο π : Type w} {M : Machine σ ι ο}
  {N : Machine τ κ π}

/-- `N` seen in `M`, as long as an invariant of `M` holds. -/
structure Simulation (M : Machine σ ι ο) (N : Machine τ κ π) where
  /-- The state of `N` that a state of `M` stands for. -/
  abs : σ → τ
  /-- What a step of `M` is for `N`, where it is anything. -/
  observe : ι → ο → Option (κ × π)
  inv : σ → Prop
  keeps : ∀ s i, inv s → M.enabled s i → inv (M.step s i).2
  stutters : ∀ s i, inv s → M.enabled s i → observe i (M.step s i).1 = none →
    abs (M.step s i).2 = abs s
  simulates : ∀ s i k p, inv s → M.enabled s i → observe i (M.step s i).1 = some (k, p) →
    N.enabled (abs s) k ∧ N.step (abs s) k = (p, abs (M.step s i).2)

namespace Simulation

variable (S : Simulation M N)

/-- What a run of `M` is for `N`. -/
def observed (history : List (ι × ο)) : List (κ × π) := history.filterMap fun e ↦ S.observe e.1 e.2

/-- The inputs of `N` in a run of `M`. -/
def inputs (history : List (ι × ο)) : List κ := (S.observed history).map Prod.fst

variable {S} {s : σ} {is : List ι}

/-- **A run of the component is a run of the machine that it stands for**, from the state that its
first state stands for to the one that its last state stands for, and with the same answers. -/
theorem run (h : M.Legal s is) (hs : S.inv s) :
    N.Legal (S.abs s) (S.inputs (M.history s is)) ∧
      N.history (S.abs s) (S.inputs (M.history s is)) = S.observed (M.history s is) ∧
      N.exec (S.abs s) (S.inputs (M.history s is)) = S.abs (M.exec s is) := by
  induction is generalizing s with
  | nil => exact ⟨trivial, rfl, rfl⟩
  | cons i is ih =>
    obtain ⟨hlegal, hhistory, hexec⟩ := ih h.2 (S.keeps s i hs h.1)
    have hcons : S.observed (M.history s (i :: is)) =
        (S.observe i (M.step s i).1).toList ++ S.observed (M.history (M.step s i).2 is) := by
      rw [observed, history, List.filterMap_cons]
      cases S.observe i (M.step s i).1 <;> rfl
    rw [inputs, hcons]
    cases hobserve : S.observe i (M.step s i).1 with
    | none =>
      rw [S.stutters s i hs h.1 hobserve] at hlegal hhistory hexec
      exact ⟨hlegal, hhistory, hexec⟩
    | some e =>
      obtain ⟨k, p⟩ := e
      obtain ⟨henabled, hstep⟩ := S.simulates s i k p hs h.1 hobserve
      simp only [Option.toList_some, List.singleton_append, List.map_cons]
      refine ⟨⟨henabled, ?_⟩, ?_, ?_⟩
      · rw [hstep]
        exact hlegal
      · rw [history, hstep]
        exact congrArg ((k, p) :: ·) hhistory
      · rw [exec_cons, hstep]
        exact hexec

theorem inv_exec (h : M.Legal s is) (hs : S.inv s) : S.inv (M.exec s is) :=
  Along.invariant h hs S.keeps

end Simulation

end Machine
