import Mathlib.Tactic.Common

/-!
# Machines and their runs

A system that takes one atomic step at a time is a function from a state and an input to an
outcome and the next state, together with the inputs that may occur in each state. Interleavings
need no notion of process: the order of the inputs *is* the interleaving, so a statement about every
schedule is a statement about every list of inputs.

Three readings of a run are used. `exec` is the state it ends in; `history` is the list of inputs
with their outcomes, for statements about what has happened; and `Along C` says that every step of
the run meets `C` in the state where it is taken. A legal run is one along which every input is
enabled, and a conditional statement is one about the runs along which the condition holds.
-/

universe u v w

/-- A deterministic machine with guarded inputs. -/
structure Machine (σ : Type u) (ι : Type v) (ο : Type w) where
  /-- The inputs that may occur in a state. -/
  enabled : σ → ι → Prop
  /-- The outcome of an input, and the state it leads to. -/
  step : σ → ι → ο × σ

namespace Machine

variable {σ : Type u} {ι : Type v} {ο : Type w} (M : Machine σ ι ο)

/-- The state in which a run ends. -/
def exec (s : σ) : List ι → σ
  | [] => s
  | i :: is => exec (M.step s i).2 is

/-- The inputs of a run, each with its outcome. -/
def history (s : σ) : List ι → List (ι × ο)
  | [] => []
  | i :: is => (i, (M.step s i).1) :: history (M.step s i).2 is

/-- Every step of the run meets `C` where it is taken. -/
def Along (C : σ → ι → Prop) (s : σ) : List ι → Prop
  | [] => True
  | i :: is => C s i ∧ Along C (M.step s i).2 is

/-- A run whose inputs are all enabled. -/
def Legal (s : σ) (is : List ι) : Prop := M.Along M.enabled s is

instance instDecidableAlong (C : σ → ι → Prop) [∀ s i, Decidable (C s i)] (s : σ) :
    ∀ is, Decidable (M.Along C s is)
  | [] => .isTrue trivial
  | i :: is =>
    have := instDecidableAlong C (M.step s i).2 is
    inferInstanceAs (Decidable (C s i ∧ M.Along C (M.step s i).2 is))

instance [∀ s i, Decidable (M.enabled s i)] (s : σ) (is : List ι) : Decidable (M.Legal s is) :=
  M.instDecidableAlong M.enabled s is

variable {M}

@[simp] theorem exec_nil (s : σ) : M.exec s [] = s := rfl

@[simp] theorem exec_cons (s : σ) (i : ι) (is : List ι) :
    M.exec s (i :: is) = M.exec (M.step s i).2 is := rfl

theorem exec_append (s : σ) (is js : List ι) :
    M.exec s (is ++ js) = M.exec (M.exec s is) js := by
  induction is generalizing s with
  | nil => rfl
  | cons i is ih => exact ih _

theorem exec_concat (s : σ) (is : List ι) (i : ι) :
    M.exec s (is ++ [i]) = (M.step (M.exec s is) i).2 := exec_append s is [i]

theorem history_append (s : σ) (is js : List ι) :
    M.history s (is ++ js) = M.history s is ++ M.history (M.exec s is) js := by
  induction is generalizing s with
  | nil => rfl
  | cons i is ih => exact congrArg ((i, (M.step s i).1) :: ·) (ih _)

/-- An entry of the history is a step of the run, taken in the state its prefix leads to. -/
theorem mem_history {s : σ} {is : List ι} {i : ι} {o : ο} :
    (i, o) ∈ M.history s is ↔
      ∃ before after, is = before ++ i :: after ∧ o = (M.step (M.exec s before) i).1 := by
  induction is generalizing s with
  | nil => simp [history]
  | cons j is ih =>
    rw [history, List.mem_cons, ih]
    constructor
    · rintro (h | ⟨before, after, rfl, ho⟩)
      · cases h
        exact ⟨[], is, rfl, rfl⟩
      · exact ⟨j :: before, after, rfl, ho⟩
    · rintro ⟨before, after, h, ho⟩
      cases before with
      | nil =>
        cases h
        exact Or.inl (by rw [ho]; rfl)
      | cons k before =>
        cases h
        exact Or.inr ⟨before, after, rfl, ho⟩

/-- A split of the history is a split of the run. -/
theorem history_eq_append {s : σ} {is : List ι} {h₁ h₂ : List (ι × ο)} {i : ι} {o : ο}
    (h : M.history s is = h₁ ++ (i, o) :: h₂) :
    ∃ before after, is = before ++ i :: after ∧ o = (M.step (M.exec s before) i).1 ∧
      h₂ = M.history (M.exec s (before ++ [i])) after := by
  induction is generalizing s h₁ with
  | nil => exact absurd h (List.append_ne_nil_of_right_ne_nil h₁ (List.cons_ne_nil _ _)).symm
  | cons j is ih =>
    cases h₁ with
    | nil =>
      obtain ⟨hhead, htail⟩ := List.cons.inj h
      cases hhead
      exact ⟨[], is, rfl, rfl, htail.symm⟩
    | cons e h₁ =>
      obtain ⟨before, after, rfl, ho, hafter⟩ := ih (List.cons.inj h).2
      exact ⟨j :: before, after, rfl, ho, hafter⟩

section Along

variable {C D : σ → ι → Prop} {s : σ} {is js : List ι}

theorem along_append : M.Along C s (is ++ js) ↔ M.Along C s is ∧ M.Along C (M.exec s is) js := by
  induction is generalizing s with
  | nil => exact (true_and _).symm ▸ Iff.rfl
  | cons i is ih =>
    rw [List.cons_append, Along, ih, Along, and_assoc]
    rfl

theorem along_and : M.Along (fun s i ↦ C s i ∧ D s i) s is ↔ M.Along C s is ∧ M.Along D s is := by
  induction is generalizing s with
  | nil => simp [Along]
  | cons i is ih =>
    rw [Along, Along, Along, ih]
    tauto

/-- A condition holds along a run exactly when it holds at each of its steps. -/
theorem along_iff : M.Along C s is ↔
    ∀ before i after, is = before ++ i :: after → C (M.exec s before) i := by
  constructor
  · rintro h before i after rfl
    exact (along_append.mp h).2.1
  · induction is generalizing s with
    | nil => exact fun _ ↦ trivial
    | cons i is ih =>
      intro h
      refine ⟨h [] i is rfl, ih fun before j after hsplit ↦ ?_⟩
      rw [hsplit] at h
      exact h (i :: before) j after rfl

theorem Along.mono (h : M.Along C s is) (hCD : ∀ s i, C s i → D s i) : M.Along D s is := by
  rw [along_iff] at h ⊢
  exact fun before i after hsplit ↦ hCD _ _ (h before i after hsplit)

/-- **The invariant rule.** A property that each step meeting `C` carries over holds wherever a
run along `C` ends. -/
theorem Along.invariant {P : σ → Prop} (h : M.Along C s is) (start : P s)
    (step : ∀ s i, P s → C s i → P (M.step s i).2) : P (M.exec s is) := by
  induction is generalizing s with
  | nil => exact start
  | cons i is ih => exact ih h.2 (step s i start h.1)

/-- An invariant may be used at every step of the run on which it was established. -/
theorem Along.with_invariant {P : σ → Prop} (h : M.Along C s is) (start : P s)
    (step : ∀ s i, P s → C s i → P (M.step s i).2) :
    M.Along (fun s i ↦ P s ∧ C s i) s is := by
  induction is generalizing s with
  | nil => trivial
  | cons i is ih => exact ⟨⟨start, h.1⟩, ih h.2 (step s i start h.1)⟩

/-- **The step-to-run rule for relations.** A reflexive and transitive relation that every step
respects relates the two ends of a run. -/
theorem Along.relates {R : σ → σ → Prop} (h : M.Along C s is) (refl : ∀ s, R s s)
    (trans : ∀ {a b c}, R a b → R b c → R a c) (step : ∀ s i, C s i → R s (M.step s i).2) :
    R s (M.exec s is) := by
  induction is generalizing s with
  | nil => exact refl s
  | cons i is ih => exact trans (step s i h.1) (ih h.2)

end Along

/-- A state that some legal run from `s₀` reaches. -/
def Reachable (M : Machine σ ι ο) (s₀ s : σ) : Prop := ∃ is, M.Legal s₀ is ∧ M.exec s₀ is = s

theorem Reachable.refl (s₀ : σ) : M.Reachable s₀ s₀ := ⟨[], trivial, rfl⟩

theorem Reachable.step {s₀ s : σ} (h : M.Reachable s₀ s) {i : ι} (hi : M.enabled s i) :
    M.Reachable s₀ (M.step s i).2 := by
  obtain ⟨is, hlegal, rfl⟩ := h
  exact ⟨is ++ [i], along_append.mpr ⟨hlegal, hi, trivial⟩, exec_concat s₀ is i⟩

theorem Reachable.invariant {P : σ → Prop} {s₀ s : σ} (h : M.Reachable s₀ s) (start : P s₀)
    (step : ∀ s i, P s → M.enabled s i → P (M.step s i).2) : P s := by
  obtain ⟨is, hlegal, rfl⟩ := h
  exact Along.invariant hlegal start step

end Machine
