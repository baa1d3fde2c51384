import Mathlib.Data.List.Range
import Mathlib.Logic.Function.Basic
import MeetingRag.Library.Machine

/-!
# Versioned registers

A register holds a value and the number of times it was changed. A writer names the version that it
has read; if the register has moved on since, the write is refused, so nobody overwrites a change that
he has not seen. Writing the value that is there already changes nothing, not even the version.

The registers of a store are independent of each other, and each of them orders its accepted writes:
the versions that they name are exactly the consecutive ones from the first to the last.
-/

universe u v

namespace Versioned

variable {κ : Type u} {α : Type v}

/-- A value with its version. -/
structure Cell (α : Type v) where
  value : α
  version : ℕ
deriving DecidableEq

inductive Request (κ : Type u) (α : Type v)
  | create (k : κ) (a : α)
  | read (k : κ)
  | write (k : κ) (expected : ℕ) (a : α)

inductive Reply (α : Type v)
  | created
  | found (cell : Cell α)
  | missing
  | stale
  | unchanged (version : ℕ)
  | accepted (version : ℕ)

section Store

variable [DecidableEq κ] [DecidableEq α]

/-- A write to one register. -/
def Cell.write (expected : ℕ) (a : α) (c : Cell α) : Reply α × Cell α :=
  if c.version ≠ expected then (.stale, c)
  else if c.value = a then (.unchanged expected, c)
  else (.accepted (expected + 1), ⟨a, expected + 1⟩)

def step (s : κ → Option (Cell α)) : Request κ α → Reply α × (κ → Option (Cell α))
  | .create k a => (.created, Function.update s k (some ⟨a, 0⟩))
  | .read k => ((s k).elim .missing .found, s)
  | .write k expected a =>
    match s k with
    | none => (.missing, s)
    | some c => ((c.write expected a).1, Function.update s k (some (c.write expected a).2))

/-- A register is created once. -/
def Enabled (s : κ → Option (Cell α)) : Request κ α → Prop
  | .create k _ => s k = none
  | _ => True

variable (κ α) in
/-- The registers, with every order of requests. -/
def store : Machine (κ → Option (Cell α)) (Request κ α) (Reply α) where
  enabled := Enabled
  step := step

/-- The store without registers. -/
def empty : κ → Option (Cell α) := fun _ ↦ none

/-- The version and the value of an accepted write to one register. -/
def acceptedWrite (k : κ) : Request κ α × Reply α → Option (ℕ × α)
  | (.write k' expected a, .accepted _) => if k' = k then some (expected, a) else none
  | _ => none

/-- The accepted writes to one register, in their order. -/
def acceptedWrites (k : κ) (history : List (Request κ α × Reply α)) : List (ℕ × α) :=
  history.filterMap (acceptedWrite k)

/-- The value that the writes leave. -/
def lastValue (a : α) (writes : List (ℕ × α)) : α := ((writes.map Prod.snd).getLast?).getD a

/-- What the accepted writes do to a register: they name consecutive versions, and the last one is
what it holds. -/
structure Chain (old new : Cell α) (writes : List (ℕ × α)) : Prop where
  versions : writes.map Prod.fst = List.range' old.version writes.length
  version : new.version = old.version + writes.length
  value : new.value = lastValue old.value writes

omit [DecidableEq α] in
theorem Chain.refl (c : Cell α) : Chain c c [] := ⟨rfl, rfl, rfl⟩

omit [DecidableEq α] in
theorem Chain.cons {old mid new : Cell α} {a : α} {writes : List (ℕ × α)}
    (hmid : mid = ⟨a, old.version + 1⟩) (h : Chain mid new writes) :
    Chain old new ((old.version, a) :: writes) := by
  subst hmid
  refine ⟨?_, ?_, ?_⟩
  · rw [List.map_cons, h.versions]
    rfl
  · rw [h.version, List.length_cons]
    exact Nat.add_right_comm _ _ _
  · rw [h.value, lastValue, lastValue, List.map_cons, List.getLast?_cons, Option.getD_some]

variable {s : κ → Option (Cell α)} {k : κ} {c : Cell α}

/-- One request, for a register that is there. -/
theorem step_cases (hc : s k = some c) {r : Request κ α} (hr : (store κ α).enabled s r) :
    (acceptedWrite k (r, (step s r).1) = none ∧ (step s r).2 k = some c) ∨
      ∃ a, acceptedWrite k (r, (step s r).1) = some (c.version, a) ∧
        (step s r).2 k = some ⟨a, c.version + 1⟩ := by
  cases r with
  | create k' a =>
    have hne : k ≠ k' := by
      rintro rfl
      exact nomatch hc.symm.trans hr
    exact Or.inl ⟨rfl, (Function.update_of_ne hne _ _).trans hc⟩
  | read k' => exact Or.inl ⟨rfl, hc⟩
  | write k' expected a =>
    by_cases hkey : k' = k
    · subst hkey
      simp only [step, hc, Cell.write]
      split
      · exact Or.inl ⟨rfl, Function.update_self ..⟩
      · next hversion =>
        obtain rfl := not_not.mp hversion
        split
        · exact Or.inl ⟨rfl, Function.update_self ..⟩
        · exact Or.inr ⟨a, if_pos rfl, Function.update_self ..⟩
    · have hnone : ∀ reply, acceptedWrite k (Request.write k' expected a, reply) = none := by
        intro reply
        cases reply <;> first | rfl | exact if_neg hkey
      refine Or.inl ⟨hnone _, ?_⟩
      simp only [step]
      split
      · exact hc
      · exact (Function.update_of_ne (Ne.symm hkey) _ _).trans hc

/-- **No write is lost.** In every run the accepted writes to a register name the consecutive
versions from the one that it had, and it ends with the value of the last one. -/
theorem chain_of_run {requests : List (Request κ α)} (h : (store κ α).Legal s requests)
    (hc : s k = some c) :
    ∃ c', (store κ α).exec s requests k = some c' ∧
      Chain c c' (acceptedWrites k ((store κ α).history s requests)) := by
  induction requests generalizing s c with
  | nil => exact ⟨c, hc, Chain.refl c⟩
  | cons r requests ih =>
    have hcons : acceptedWrites k ((store κ α).history s (r :: requests)) =
        (acceptedWrite k (r, (step s r).1)).toList ++
          acceptedWrites k ((store κ α).history (step s r).2 requests) := by
      rw [acceptedWrites, Machine.history, List.filterMap_cons]
      cases hwrite : acceptedWrite k (r, (step s r).1) <;> simp [store, hwrite, acceptedWrites]
    rw [hcons]
    rcases step_cases hc h.1 with ⟨hnone, hkept⟩ | ⟨a, hsome, hnew⟩
    · obtain ⟨c', hc', hchain⟩ := ih h.2 hkept
      exact ⟨c', hc', by rwa [hnone]⟩
    · obtain ⟨c', hc', hchain⟩ := ih h.2 hnew
      exact ⟨c', hc', by rw [hsome]; exact Chain.cons rfl hchain⟩

/-- One request, for a register that is not there: it creates it, or leaves it missing. -/
theorem step_of_missing (hs : s k = none) (r : Request κ α) :
    acceptedWrite k (r, (step s r).1) = none ∧
      ((step s r).2 k = none ∨ ∃ a, r = .create k a ∧ (step s r).2 k = some ⟨a, 0⟩) := by
  cases r with
  | create k' a =>
    refine ⟨rfl, ?_⟩
    by_cases hkey : k' = k
    · subst hkey
      exact Or.inr ⟨a, rfl, Function.update_self ..⟩
    · exact Or.inl ((Function.update_of_ne (Ne.symm hkey) _ _).trans hs)
  | read k' => exact ⟨rfl, Or.inl hs⟩
  | write k' expected a =>
    by_cases hkey : k' = k
    · subst hkey
      simp only [step, hs]
      exact ⟨rfl, Or.inl trivial⟩
    · simp only [step]
      split
      · exact ⟨rfl, Or.inl hs⟩
      · refine ⟨?_, Or.inl ((Function.update_of_ne (Ne.symm hkey) _ _).trans hs)⟩
        cases Cell.write expected a _ with
        | mk reply cell => cases reply <;> first | rfl | exact if_neg hkey

/-- **No write is lost**, from the creation of the register on. -/
theorem chain_of_creation {requests : List (Request κ α)} (h : (store κ α).Legal s requests)
    (hs : s k = none) :
    ((store κ α).exec s requests k = none ∧
        acceptedWrites k ((store κ α).history s requests) = []) ∨
      ∃ a c', .create k a ∈ requests ∧ (store κ α).exec s requests k = some c' ∧
        Chain ⟨a, 0⟩ c' (acceptedWrites k ((store κ α).history s requests)) := by
  induction requests generalizing s with
  | nil => exact Or.inl ⟨hs, rfl⟩
  | cons r requests ih =>
    obtain ⟨hnone, hstep⟩ := step_of_missing hs r
    have hcons : acceptedWrites k ((store κ α).history s (r :: requests)) =
        acceptedWrites k ((store κ α).history (step s r).2 requests) := by
      rw [acceptedWrites, Machine.history]
      exact List.filterMap_cons_none hnone
    rw [hcons]
    rcases hstep with hmissing | ⟨a, rfl, hnew⟩
    · rcases ih h.2 hmissing with hend | ⟨a, c', hmem, hend⟩
      · exact Or.inl hend
      · exact Or.inr ⟨a, c', List.mem_cons_of_mem _ hmem, hend⟩
    · obtain ⟨c', hend⟩ := chain_of_run h.2 hnew
      exact Or.inr ⟨a, c', List.mem_cons_self, hend⟩

end Store

end Versioned
