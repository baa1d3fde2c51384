import Mathlib.Tactic.Common

/-!
# Programs that issue operations

A program issues one operation after another and goes on with the answers, until it returns or raises. Its
*runs* (`Runs`) are the operations and answers on the way to an outcome, whatever answers.

A machine that answers runs a program to its end (`exec`). A program that is killed leaves the machine in a
state before one of its operations (`Stops`).
-/

/-- A program: it returns, raises or issues an operation. -/
inductive Program {Op : Type} (Ans : Op → Type) (ε α : Type)
  | done (a : α)
  | raise (e : ε)
  | call (op : Op) (next : Ans op → Program Ans ε α)

namespace Program

variable {Op : Type} {Ans : Op → Type} {ε α β : Type}

protected def bind (p : Program Ans ε α) (f : α → Program Ans ε β) : Program Ans ε β :=
  match p with
  | done a => f a
  | raise e => raise e
  | call op next => call op fun r ↦ (next r).bind f

instance : Monad (Program Ans ε) where
  pure := done
  bind := Program.bind

/-- Go on with `h` when `p` raises. -/
def handle (p : Program Ans ε α) (h : ε → Program Ans ε α) : Program Ans ε α :=
  match p with
  | done a => done a
  | raise e => h e
  | call op next => call op fun r ↦ (next r).handle h

/-- Issue one operation. -/
def perform (op : Op) : Program Ans ε (Ans op) := call op done

/-- A result that needs no operation. -/
def ofExcept : Except ε α → Program Ans ε α
  | .ok a => done a
  | .error e => raise e

/-- One program for each element of a list, in order. -/
def forEach (f : α → Program Ans ε β) : List α → Program Ans ε (List β)
  | [] => done []
  | a :: rest => (f a).bind fun b ↦ (forEach f rest).bind fun bs ↦ done (b :: bs)

@[simp] theorem done_bind (a : α) (f : α → Program Ans ε β) : (done a : Program Ans ε α) >>= f = f a := rfl

@[simp] theorem raise_bind (e : ε) (f : α → Program Ans ε β) :
    (raise e : Program Ans ε α) >>= f = raise e := rfl

@[simp] theorem pure_eq (a : α) : (pure a : Program Ans ε α) = done a := rfl

@[simp] theorem bind_eq (p : Program Ans ε α) (f : α → Program Ans ε β) : p.bind f = p >>= f := rfl

theorem ofExcept_ok (a : α) : (ofExcept (.ok a) : Program Ans ε α) = done a := rfl

/-! ## Runs -/

/-- An operation and its answer. -/
abbrev Event (Ans : Op → Type) := (op : Op) × Ans op

/-- The operations of a program with some answers, and the outcome. -/
inductive Runs : Program Ans ε α → List (Event Ans) → Except ε α → Prop
  | done (a : α) : Runs (.done a) [] (.ok a)
  | raise (e : ε) : Runs (.raise e) [] (.error e)
  | call {op : Op} {next : Ans op → Program Ans ε α} {r : Ans op} {t : List (Event Ans)}
    {x : Except ε α} (h : Runs (next r) t x) : Runs (.call op next) (⟨op, r⟩ :: t) x

theorem runs_done_iff {a : α} {t : List (Event Ans)} {x : Except ε α} :
    Runs (done a) t x ↔ t = [] ∧ x = .ok a := by
  constructor
  · rintro ⟨⟩
    exact ⟨rfl, rfl⟩
  · rintro ⟨rfl, rfl⟩
    exact .done a

theorem runs_raise_iff {e : ε} {t : List (Event Ans)} {x : Except ε α} :
    Runs (raise e) t x ↔ t = [] ∧ x = .error e := by
  constructor
  · rintro ⟨⟩
    exact ⟨rfl, rfl⟩
  · rintro ⟨rfl, rfl⟩
    exact .raise e

theorem runs_call_iff {op : Op} {next : Ans op → Program Ans ε α} {t : List (Event Ans)}
    {x : Except ε α} : Runs (call op next) t x ↔ ∃ r t', t = ⟨op, r⟩ :: t' ∧ Runs (next r) t' x := by
  constructor
  · rintro ⟨⟩
    exact ⟨_, _, rfl, ‹_›⟩
  · rintro ⟨r, t', rfl, h⟩
    exact .call h

theorem runs_ofExcept_iff {y x : Except ε α} {t : List (Event Ans)} :
    Runs (ofExcept y) t x ↔ t = [] ∧ x = y := by
  cases y with
  | ok a => exact runs_done_iff
  | error e => exact runs_raise_iff

theorem runs_perform_iff {op : Op} {t : List (Event Ans)} {x : Except ε (Ans op)} :
    Runs (perform op) t x ↔ ∃ r, t = [⟨op, r⟩] ∧ x = .ok r := by
  rw [perform, runs_call_iff]
  constructor
  · rintro ⟨r, t', rfl, h⟩
    obtain ⟨rfl, rfl⟩ := runs_done_iff.mp h
    exact ⟨r, rfl, rfl⟩
  · rintro ⟨r, rfl, rfl⟩
    exact ⟨r, [], rfl, .done r⟩

/-- **A chain** runs one program and then the other, or ends with the first. -/
theorem runs_bind_iff {p : Program Ans ε α} {f : α → Program Ans ε β} {t : List (Event Ans)}
    {x : Except ε β} : Runs (p >>= f) t x ↔
      (∃ a t₁ t₂, Runs p t₁ (.ok a) ∧ Runs (f a) t₂ x ∧ t = t₁ ++ t₂) ∨
        ∃ e, Runs p t (.error e) ∧ x = .error e := by
  induction p generalizing t with
  | done a => simp [runs_done_iff]
  | raise e => simp [runs_raise_iff]
  | call op next ih =>
    have hstep : (call op next >>= f) = call op fun r ↦ next r >>= f := rfl
    rw [hstep, runs_call_iff]
    simp only [ih, runs_call_iff]
    constructor
    · rintro ⟨r, t', rfl, ⟨a, t₁, t₂, hp, hf, rfl⟩ | ⟨e, hp, rfl⟩⟩
      · exact .inl ⟨a, ⟨op, r⟩ :: t₁, t₂, ⟨r, t₁, rfl, hp⟩, hf, rfl⟩
      · exact .inr ⟨e, ⟨r, t', rfl, hp⟩, rfl⟩
    · rintro (⟨a, _, t₂, ⟨r, t₁, rfl, hp⟩, hf, rfl⟩ | ⟨e, ⟨r, t', rfl, hp⟩, rfl⟩)
      · exact ⟨r, t₁ ++ t₂, rfl, .inl ⟨a, t₁, t₂, hp, hf, rfl⟩⟩
      · exact ⟨r, t', rfl, .inr ⟨e, hp, rfl⟩⟩

/-- A result that needs no operation leaves no trace. -/
theorem runs_ofExcept_bind_iff {y : Except ε α} {f : α → Program Ans ε β} {t : List (Event Ans)}
    {x : Except ε β} : Runs (ofExcept y >>= f) t x ↔
      (∃ a, y = .ok a ∧ Runs (f a) t x) ∨ ∃ e, y = .error e ∧ t = [] ∧ x = .error e := by
  cases y with
  | ok a => simp [ofExcept]
  | error e => simp [ofExcept, runs_raise_iff]

/-- **A handler** runs when the program raises, after what it has done. -/
theorem runs_handle_iff {p : Program Ans ε α} {h : ε → Program Ans ε α} {t : List (Event Ans)}
    {x : Except ε α} : Runs (p.handle h) t x ↔
      (∃ a, Runs p t (.ok a) ∧ x = .ok a) ∨
        ∃ e t₁ t₂, Runs p t₁ (.error e) ∧ Runs (h e) t₂ x ∧ t = t₁ ++ t₂ := by
  induction p generalizing t with
  | done a => simp [handle, runs_done_iff]
  | raise e => simp [handle, runs_raise_iff]
  | call op next ih =>
    rw [handle, runs_call_iff]
    simp only [ih, runs_call_iff]
    constructor
    · rintro ⟨r, t', rfl, ⟨a, hp, rfl⟩ | ⟨e, t₁, t₂, hp, hh, rfl⟩⟩
      · exact .inl ⟨a, ⟨r, t', rfl, hp⟩, rfl⟩
      · exact .inr ⟨e, ⟨op, r⟩ :: t₁, t₂, ⟨r, t₁, rfl, hp⟩, hh, rfl⟩
    · rintro (⟨a, ⟨r, t', rfl, hp⟩, rfl⟩ | ⟨e, _, t₂, ⟨r, t₁, rfl, hp⟩, hh, rfl⟩)
      · exact ⟨r, t', rfl, .inl ⟨a, hp, rfl⟩⟩
      · exact ⟨r, t₁ ++ t₂, rfl, .inr ⟨e, t₁, t₂, hp, hh, rfl⟩⟩

/-! ## Operations of a kind -/

section Only

variable (P : Op → Prop)

/-- All operations of a program are of some kind. -/
def Only : Program Ans ε α → Prop
  | done _ => True
  | raise _ => True
  | call op next => P op ∧ ∀ r, Only (next r)

variable {P} {p : Program Ans ε α}

theorem only_bind {f : α → Program Ans ε β} (hp : Only P p) (hf : ∀ a, Only P (f a)) :
    Only P (p >>= f) := by
  induction p with
  | done a => exact hf a
  | raise e => exact trivial
  | call op next ih => exact ⟨hp.1, fun r ↦ ih r (hp.2 r)⟩

theorem only_handle {h : ε → Program Ans ε α} (hp : Only P p) (hh : ∀ e, Only P (h e)) :
    Only P (p.handle h) := by
  induction p with
  | done a => exact trivial
  | raise e => exact hh e
  | call op next ih => exact ⟨hp.1, fun r ↦ ih r (hp.2 r)⟩

theorem only_ofExcept (x : Except ε α) : Only P (ofExcept x : Program Ans ε α) := by
  cases x <;> exact trivial

theorem only_perform {op : Op} (h : P op) : Only P (perform op : Program Ans ε (Ans op)) :=
  ⟨h, fun _ ↦ trivial⟩

theorem only_forEach {f : α → Program Ans ε β} (h : ∀ a, Only P (f a)) (l : List α) :
    Only P (forEach f l) := by
  induction l with
  | nil => exact trivial
  | cons a l ih => exact only_bind (h a) fun b ↦ only_bind ih fun bs ↦ trivial

theorem Only.mono {Q : Op → Prop} (h : Only P p) (hPQ : ∀ op, P op → Q op) : Only Q p := by
  induction p with
  | done a => exact trivial
  | raise e => exact trivial
  | call op next ih => exact ⟨hPQ op h.1, fun r ↦ ih r (h.2 r)⟩

/-- The operations in a run are of the kind. -/
theorem Only.of_runs (h : Only P p) {t : List (Event Ans)} {x : Except ε α} (hrun : Runs p t x) :
    ∀ event ∈ t, P event.1 := by
  induction hrun with
  | done a => exact fun _ hmem ↦ absurd hmem List.not_mem_nil
  | raise e => exact fun _ hmem ↦ absurd hmem List.not_mem_nil
  | call hrest ih => exact List.forall_mem_cons.mpr ⟨h.1, ih (h.2 _)⟩

end Only

/-! ## Machines -/

section Machine

variable {σ : Type} (respond : σ → (op : Op) → σ × Ans op)

/-- The state at the end, and the outcome. -/
def exec : Program Ans ε α → σ → σ × Except ε α
  | done a, s => (s, .ok a)
  | raise e, s => (s, .error e)
  | call op next, s => exec (next (respond s op).2) (respond s op).1

/-- The program is killed before one of its operations. -/
inductive Stops : Program Ans ε α → σ → σ → Prop
  | here {op : Op} {next : Ans op → Program Ans ε α} (s : σ) : Stops (.call op next) s s
  | later {op : Op} {next : Ans op → Program Ans ε α} {s s' : σ}
    (h : Stops (next (respond s op).2) (respond s op).1 s') : Stops (.call op next) s s'

/-- The state in which a program is killed before its operation number `n`. -/
def killedAt : ℕ → Program Ans ε α → σ → Option σ
  | 0, call _ _, s => some s
  | n + 1, call op next, s => killedAt n (next (respond s op).2) (respond s op).1
  | _, _, _ => none

variable {respond}

theorem stops_of_killedAt {n : ℕ} {p : Program Ans ε α} {s s' : σ}
    (h : killedAt respond n p s = some s') : Stops respond p s s' := by
  induction n generalizing p s with
  | zero =>
    cases p with
    | call op next => exact Option.some.inj h ▸ .here s
    | done a => exact nomatch h
    | raise e => exact nomatch h
  | succ n ih =>
    cases p with
    | call op next => exact .later (ih h)
    | done a => exact nomatch h
    | raise e => exact nomatch h

theorem exec_bind (p : Program Ans ε α) (f : α → Program Ans ε β) (s : σ) :
    exec respond (p >>= f) s = match exec respond p s with
      | (s', .ok a) => exec respond (f a) s'
      | (s', .error e) => (s', .error e) := by
  induction p generalizing s with
  | done a => rfl
  | raise e => rfl
  | call op next ih => exact ih _ _

theorem exec_handle (p : Program Ans ε α) (h : ε → Program Ans ε α) (s : σ) :
    exec respond (p.handle h) s = match exec respond p s with
      | (s', .ok a) => (s', .ok a)
      | (s', .error e) => exec respond (h e) s' := by
  induction p generalizing s with
  | done a => rfl
  | raise e => rfl
  | call op next ih => exact ih _ _

theorem exec_bind_ok {p : Program Ans ε α} {f : α → Program Ans ε β} {s s' : σ} {a : α}
    (h : exec respond p s = (s', .ok a)) : exec respond (p >>= f) s = exec respond (f a) s' := by
  rw [exec_bind, h]

theorem exec_bind_eq_ok {p : Program Ans ε α} {f : α → Program Ans ε β} {s s' : σ} {b : β} :
    exec respond (p >>= f) s = (s', .ok b) ↔
      ∃ a s₁, exec respond p s = (s₁, .ok a) ∧ exec respond (f a) s₁ = (s', .ok b) := by
  rw [exec_bind]
  rcases exec respond p s with ⟨s₁, e | a⟩
  · simp
  · constructor
    · exact fun h ↦ ⟨a, s₁, rfl, h⟩
    · rintro ⟨_, _, heq, h⟩
      cases heq
      exact h

theorem exec_handle_ok {p : Program Ans ε α} {h : ε → Program Ans ε α} {s s' : σ} {a : α}
    (hp : exec respond p s = (s', .ok a)) : exec respond (p.handle h) s = (s', .ok a) := by
  rw [exec_handle, hp]

/-- A chain is killed in its first program, or in its second after the first has returned. -/
theorem stops_bind {p : Program Ans ε α} {f : α → Program Ans ε β} {s s' : σ}
    (h : Stops respond (p >>= f) s s') : Stops respond p s s' ∨
      ∃ a s₁, exec respond p s = (s₁, .ok a) ∧ Stops respond (f a) s₁ s' := by
  induction p generalizing s with
  | done a => exact .inr ⟨a, s, rfl, h⟩
  | raise e => exact nomatch h
  | call op next ih =>
    cases h with
    | here => exact .inl (.here _)
    | later h => exact (ih _ h).imp .later id

theorem stops_handle {p : Program Ans ε α} {h : ε → Program Ans ε α} {s s' : σ}
    (hstop : Stops respond (p.handle h) s s') : Stops respond p s s' ∨
      ∃ e s₁, exec respond p s = (s₁, .error e) ∧ Stops respond (h e) s₁ s' := by
  induction p generalizing s with
  | done a => exact nomatch hstop
  | raise e => exact .inr ⟨e, s, rfl, hstop⟩
  | call op next ih =>
    cases hstop with
    | here => exact .inl (.here _)
    | later hstop => exact (ih _ hstop).imp .later id

section Quiet

variable {P : Op → Prop} (hquiet : ∀ s op, P op → (respond s op).1 = s)
include hquiet

/-- A program of operations that change nothing changes nothing. -/
theorem exec_of_quiet {p : Program Ans ε α} (h : Only P p) (s : σ) : (exec respond p s).1 = s := by
  induction p generalizing s with
  | done a => rfl
  | raise e => rfl
  | call op next ih => exact (ih _ (h.2 _) _).trans (hquiet s op h.1)

theorem stops_of_quiet {p : Program Ans ε α} (h : Only P p) {s s' : σ} (hstop : Stops respond p s s') :
    s' = s := by
  induction hstop with
  | here => rfl
  | later _ ih => exact (ih (h.2 _)).trans (hquiet _ _ h.1)

end Quiet

end Machine

end Program
