import MeetingRag.Library.Outcome

/-!
# Procedures that raise

A procedure changes a state, and then returns or raises. What was done before it raised stays done, so a
caller that wants it undone has to clean up by itself.

A specification (`Ensures`) says what holds when a procedure has returned, and what holds when it has
raised. There is one rule for each way of putting procedures together.
-/

/-- A computation that changes a state and returns or raises. -/
def Procedure (σ ε α : Type) := σ → Except ε α × σ

namespace Procedure

variable {σ ε α β : Type}

protected def pure (a : α) : Procedure σ ε α := fun s ↦ (.ok a, s)

protected def bind (p : Procedure σ ε α) (f : α → Procedure σ ε β) : Procedure σ ε β := fun s ↦
  match p s with
  | (.ok a, s') => f a s'
  | (.error e, s') => (.error e, s')

instance : Monad (Procedure σ ε) where
  pure := Procedure.pure
  bind := Procedure.bind

/-- A check, which changes nothing. -/
def ofExcept (x : Except ε α) : Procedure σ ε α := fun s ↦ (x, s)

/-- What is read of the state. -/
def gets (f : σ → Except ε α) : Procedure σ ε α := fun s ↦ (f s, s)

/-- One operation: it is done, or it raises and nothing is done. -/
def operation (f : σ → Except ε σ) : Procedure σ ε Unit := fun s ↦
  match f s with
  | .ok s' => (.ok (), s')
  | .error e => (.error e, s)

/-- `try: p; except: cleanup; raise`, where the cleanup may look at the state at the start. -/
def onError (p : Procedure σ ε α) (cleanup : σ → σ → σ) : Procedure σ ε α := fun s ↦
  match p s with
  | (.ok a, s') => (.ok a, s')
  | (.error e, s') => (.error e, cleanup s s')

/-- From the state `s`, the procedure returns with `Q` or raises with `E`. -/
def Ensures (p : Procedure σ ε α) (s : σ) (Q : α → σ → Prop) (E : ε → σ → Prop) : Prop :=
  match p s with
  | (.ok a, s') => Q a s'
  | (.error e, s') => E e s'

section Rules

variable {p : Procedure σ ε α} {s : σ} {Q Q' : α → σ → Prop} {E E' : ε → σ → Prop}

theorem Ensures.mono (h : Ensures p s Q E) (hQ : ∀ a s', Q a s' → Q' a s')
    (hE : ∀ e s', E e s' → E' e s') : Ensures p s Q' E' := by
  rw [Ensures] at h ⊢
  match hp : p s with
  | (.ok a, s') =>
    rw [hp] at h
    exact hQ a s' h
  | (.error e, s') =>
    rw [hp] at h
    exact hE e s' h

/-- What a specification says of a procedure that has raised. -/
theorem Ensures.of_error (h : Ensures p s Q E) {e : ε} {s' : σ} (hp : p s = (.error e, s')) :
    E e s' := by
  rw [Ensures, hp] at h
  exact h

theorem ensures_pure {a : α} : Ensures (pure a) s Q E ↔ Q a s := Iff.rfl

theorem ensures_ofExcept {x : Except ε α} : Ensures (ofExcept x) s Q E ↔
    (∀ a, x = .ok a → Q a s) ∧ ∀ e, x = .error e → E e s := by
  cases x with
  | ok a => simp [Ensures, ofExcept]
  | error e => simp [Ensures, ofExcept]

theorem ensures_gets {f : σ → Except ε α} : Ensures (gets f) s Q E ↔
    (∀ a, f s = .ok a → Q a s) ∧ ∀ e, f s = .error e → E e s :=
  ensures_ofExcept (x := f s)

theorem ensures_operation {f : σ → Except ε σ} {Q : Unit → σ → Prop} :
    Ensures (operation f) s Q E ↔
      (∀ s', f s = .ok s' → Q () s') ∧ ∀ e, f s = .error e → E e s := by
  cases h : f s with
  | ok s' => simp [Ensures, operation, h]
  | error e => simp [Ensures, operation, h]

/-- **A chain**: what holds after the first procedure is what the second starts from. -/
theorem ensures_bind {f : α → Procedure σ ε β} {R : β → σ → Prop} :
    Ensures (p >>= f) s R E ↔ Ensures p s (fun a s' ↦ Ensures (f a) s' R E) E := by
  have hrun : (p >>= f) s = match p s with
    | (.ok a, s') => f a s'
    | (.error e, s') => (.error e, s') := rfl
  match hp : p s with
  | (.ok a, s') =>
    rw [hp] at hrun
    simp only [Ensures, hrun, hp]
  | (.error e, s') =>
    rw [hp] at hrun
    simp only [Ensures, hrun, hp]

/-- **A handler** is run where the procedure has raised. -/
theorem ensures_onError {cleanup : σ → σ → σ} :
    Ensures (onError p cleanup) s Q E ↔ Ensures p s Q fun e s' ↦ E e (cleanup s s') := by
  match hp : p s with
  | (.ok a, s') => simp only [Ensures, onError, hp]
  | (.error e, s') => simp only [Ensures, onError, hp]

end Rules

end Procedure
