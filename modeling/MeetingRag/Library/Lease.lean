import Mathlib.Order.Nat

/-!
# Fenced leases

A unit of work that one holder at a time may own, with a generation counter as its fence. Each
grant issues the next generation together with a token, so the pair `(generation, token)` names one
period of ownership, and a holder proves that it still owns the work by presenting its pair.

The cell says nothing about time, tables or workers: an expired holder is simply one that the next
grant may replace. Two properties carry every fencing argument, and both are absorbing. Once a
generation is *over* no move can make it current again, so a late holder is refused for ever; and a
*finished* cell is never granted again, so at most one holder ever finishes it.
-/

namespace Lease

universe u

variable {τ : Type u}

/-- The ownership state of one unit of work. -/
structure Cell (τ : Type u) where
  /-- How many leases have been granted. -/
  generation : ℕ
  /-- The token of the current holder. -/
  holder : Option τ
  /-- The work is done for good. -/
  finished : Bool

/-- The moves of a cell. -/
inductive Move : Cell τ → Cell τ → Prop
  /-- Nothing that the fence sees changes. -/
  | keep (c : Cell τ) : Move c c
  /-- The next generation is granted, whether the cell was free or its holder is replaced. -/
  | grant (g : ℕ) (h : Option τ) (t : τ) : Move ⟨g, h, false⟩ ⟨g + 1, some t, false⟩
  /-- The holder gives the work up, finished or not. -/
  | release (g : ℕ) (t : τ) (done : Bool) : Move ⟨g, some t, false⟩ ⟨g, none, done⟩

/-- The pair `(g, t)` names the current holder. -/
def Holds (c : Cell τ) (g : ℕ) (t : τ) : Prop := c.generation = g ∧ c.holder = some t

/-- Generation `g` has ended: a later one was granted, or it was given up. -/
def Over (c : Cell τ) (g : ℕ) : Prop := g < c.generation ∨ (g = c.generation ∧ c.holder = none)

/-- A finished cell has no holder. -/
def Sound (c : Cell τ) : Prop := c.finished = true → c.holder = none

namespace Move

variable {c c' : Cell τ}

theorem generation_le (h : Move c c') : c.generation ≤ c'.generation := by
  cases h with
  | keep => exact le_rfl
  | grant g h t => exact Nat.le_succ g
  | release g t done => exact le_rfl

/-- **A finished cell stays finished.** -/
theorem finished (h : Move c c') (hc : c.finished = true) : c'.finished = true := by
  cases h with
  | keep => exact hc
  | grant g h t => exact absurd hc Bool.false_ne_true
  | release g t done => exact absurd hc Bool.false_ne_true

theorem sound (h : Move c c') (hc : Sound c) : Sound c' := by
  cases h with
  | keep => exact hc
  | grant g h t => exact fun hf ↦ absurd hf Bool.false_ne_true
  | release g t done => exact fun _ ↦ rfl

/-- **A generation that is over stays over.** -/
theorem over_mono (h : Move c c') {g : ℕ} (hg : Over c g) : Over c' g := by
  cases h with
  | keep => exact hg
  | grant n h t =>
    have hle : g ≤ n := hg.elim le_of_lt fun hg ↦ hg.1.le
    exact Or.inl (Nat.lt_succ_of_le hle)
  | release n t done =>
    rcases hg with hg | ⟨-, hnone⟩
    · exact Or.inl hg
    · exact nomatch hnone

end Move

/-! ## Any number of moves -/

/-- What every sequence of moves respects: the generation does not decrease, what is over stays
over, and what is finished stays finished. -/
structure Advance (c c' : Cell τ) : Prop where
  generation_le : c.generation ≤ c'.generation
  over_mono : ∀ g, Over c g → Over c' g
  finished : c.finished = true → c'.finished = true

theorem Move.advance {c c' : Cell τ} (h : Move c c') : Advance c c' :=
  ⟨h.generation_le, fun _ ↦ h.over_mono, h.finished⟩

theorem Advance.refl (c : Cell τ) : Advance c c := ⟨le_rfl, fun _ ↦ id, id⟩

theorem Advance.trans {a b c : Cell τ} (h : Advance a b) (h' : Advance b c) : Advance a c :=
  ⟨h.generation_le.trans h'.generation_le, fun g ↦ h'.over_mono g ∘ h.over_mono g,
    h'.finished ∘ h.finished⟩

/-- **The fence.** Nobody holds a generation that is over. -/
theorem Over.not_holds {c : Cell τ} {g : ℕ} (h : Over c g) (t : τ) : ¬Holds c g t := by
  rintro ⟨hgen, hholder⟩
  rcases h with h | ⟨-, hnone⟩
  · exact absurd hgen h.ne'
  · rw [hholder] at hnone
    exact nomatch hnone

theorem Sound.not_holds {c : Cell τ} (h : Sound c) (hf : c.finished = true) (g : ℕ) (t : τ) :
    ¬Holds c g t := by
  rintro ⟨-, hholder⟩
  rw [h hf] at hholder
  exact nomatch hholder

end Lease
