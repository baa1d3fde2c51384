import Mathlib.Order.ConditionallyCompleteLattice.Basic
import MeetingRag.Queue.Invariant

/-!
# Stale workers

A worker whose lease is over must not be able to write anything. The queue enforces this with one
predicate, `Fenced`, tested before an effect runs; the question is whether the predicate can come
back to life on some schedule.

It cannot, because the lease behind a job row only advances. A claimed identity is *over* as soon as
a later claim of the same job has been issued or its own completion has committed, being over is
kept by every later call, and no row whose lease is over is fenced. An expired lease needs no
history: the predicate reads the expiry off the row.
-/

open Outcome Table

namespace MeetingRag

variable {J ρ : Type}

/-! ## Leases over runs -/

/-- Every job row survives, and the lease behind it has only advanced. -/
def Advances (s s' : Store J ρ) : Prop :=
  ∀ j ∈ s.jobs, ∃ j' ∈ s'.jobs, j'.id = j.id ∧ Lease.Advance (leaseCell j) (leaseCell j')

theorem Advances.refl (s : Store J ρ) : Advances s s :=
  fun j hj ↦ ⟨j, hj, rfl, .refl _⟩

theorem Advances.trans {a b c : Store J ρ} (h : Advances a b) (h' : Advances b c) :
    Advances a c := by
  intro j hj
  obtain ⟨j₁, hj₁, hid₁, hadv₁⟩ := h j hj
  obtain ⟨j₂, hj₂, hid₂, hadv₂⟩ := h' j₁ hj₁
  exact ⟨j₂, hj₂, hid₂.trans hid₁, hadv₁.trans hadv₂⟩

theorem QueueStep.advances {s s' : Store J ρ} (hids : UniqueIds s) (h : QueueStep s s') :
    Advances s s' := by
  intro j hj
  obtain ⟨j', hj', hid, hmove⟩ := h.move hids j hj
  exact ⟨j', hj', hid, hmove.advance⟩

/-- The lease `claimed` is over: its job has moved past its generation, or given it up. -/
def LeaseOver (claimed : ClaimedJob J) (s : Store J ρ) : Prop :=
  ∃ j ∈ s.jobs, j.id = claimed.id ∧ Lease.Over (leaseCell j) claimed.leaseGeneration

theorem LeaseOver.advances {claimed : ClaimedJob J} {s s' : Store J ρ} (h : LeaseOver claimed s)
    (hadv : Advances s s') : LeaseOver claimed s' := by
  obtain ⟨j, hj, hid, hover⟩ := h
  obtain ⟨j', hj', hid', hadvance⟩ := hadv j hj
  exact ⟨j', hj', hid'.trans hid, hadvance.over_mono _ hover⟩

/-- **A lease that is over fences nothing.** -/
theorem LeaseOver.not_fenced {claimed : ClaimedJob J} {s : Store J ρ} (h : LeaseOver claimed s)
    (hids : UniqueIds s) (now : Timestamp) : ∀ j ∈ s.jobs, ¬Fenced claimed now j := by
  rintro j hj ⟨hid, -, hgen, htoken, -⟩
  obtain ⟨k, hk, hkid, hover⟩ := h
  rw [eq_of_key_eq hids hj hk (hid.trans hkid.symm)] at hgen htoken
  exact hover.not_holds claimed.leaseToken ⟨hgen, htoken⟩

/-! ## Refusal -/

/-- Neither a heartbeat nor a completion of `claimed` does anything but raise. -/
structure Refused [JsonDocument J] (claimed : ClaimedJob J) (clock : StatementClock)
    (s : Store J ρ) : Prop where
  heartbeat : ∀ leaseSeconds, requireLeaseSeconds leaseSeconds = .ok () →
    transaction s (heartbeat claimed leaseSeconds clock s) =
      (.error (.staleLease "job heartbeat lease is stale"), s)
  heartbeat_invalid : ∀ leaseSeconds e, requireLeaseSeconds leaseSeconds = .error e →
    transaction s (MeetingRag.heartbeat claimed leaseSeconds clock s) = (.error e, s)
  complete : ∀ targetState result errorCode effect resultId,
    requireCompletionArguments targetState errorCode = .ok () →
      transaction s (completeWithEffects claimed targetState result errorCode effect resultId
        clock s) = (.error (.staleLease "job completion lease is stale"), s)
  complete_invalid : ∀ targetState result errorCode effect resultId e,
    requireCompletionArguments targetState errorCode = .error e →
      transaction s (completeWithEffects claimed targetState result errorCode effect resultId
        clock s) = (.error e, s)

/-- **Refusal is decided by the fence alone**: the effect has not run when the call raises. -/
theorem refused_of_not_fenced [JsonDocument J] {claimed : ClaimedJob J} {clock : StatementClock}
    {s : Store J ρ} (h : ∀ j ∈ s.jobs, ¬Fenced claimed clock.seen j) : Refused claimed clock s := by
  have hcount : ¬rowcount (Fenced claimed clock.seen) s.jobs = 1 := by
    rw [rowcount_eq_zero.mpr h]
    exact Nat.zero_ne_one
  refine ⟨fun n hn ↦ ?_, fun n e hn ↦ ?_, fun t r c f i ht ↦ ?_, fun t r c f i e ht ↦ ?_⟩
  · rw [MeetingRag.heartbeat, hn, ok_bind, require_of_not hcount, error_bind, transaction_error]
  · rw [MeetingRag.heartbeat, hn, error_bind, transaction_error]
  · rw [completeWithEffects, ht, ok_bind, require_of_not hcount, error_bind, transaction_error]
  · rw [completeWithEffects, ht, error_bind, transaction_error]

/-! ## Histories -/

/-- The calls of a run with what they returned. -/
abbrev QueueHistory (J ρ : Type) := List (QueueInput J ρ × Except Error (QueueReply J))

/-- Two claimed identities name the same lease. -/
def SameLease (a b : ClaimedJob J) : Prop :=
  a.id = b.id ∧ a.leaseGeneration = b.leaseGeneration ∧ a.leaseToken = b.leaseToken

/-- `claimed` was issued and a later claim of the same job was issued after it. -/
def Superseded (claimed : ClaimedJob J) (h : QueueHistory J ρ) : Prop :=
  ∃ h₁ i h₂, h = h₁ ++ (i, .ok (.claimed (some claimed))) :: h₂ ∧
    ∃ i' later, (i', .ok (.claimed (some later))) ∈ h₂ ∧ later.id = claimed.id

/-- A completion of the lease `claimed` has committed. -/
def AlreadyCompleted (claimed : ClaimedJob J) (h : QueueHistory J ρ) : Prop :=
  ∃ clock same targetState result errorCode effect resultId reply, SameLease same claimed ∧
    (⟨clock, .completeWithEffects same targetState result errorCode effect resultId⟩, .ok reply) ∈ h

/-- The row still carries the lease `claimed`, and the database clock has reached its expiry. -/
def LeaseExpired (claimed : ClaimedJob J) (now : Timestamp) (s : Store J ρ) : Prop :=
  ∃ j ∈ s.jobs, j.id = claimed.id ∧ j.leaseGeneration = claimed.leaseGeneration ∧
    j.leaseToken = some claimed.leaseToken ∧ ∃ leaseUntil ∈ j.leaseUntil, leaseUntil ≤ now

theorem LeaseExpired.not_fenced {claimed : ClaimedJob J} {now : Timestamp} {s : Store J ρ}
    (h : LeaseExpired claimed now s) (hids : UniqueIds s) :
    ∀ j ∈ s.jobs, ¬Fenced claimed now j := by
  rintro j hj ⟨hid, -, -, -, hlater⟩
  obtain ⟨k, hk, hkid, -, -, leaseUntil, huntil, hle⟩ := h
  rw [eq_of_key_eq hids hj hk (hid.trans hkid.symm)] at hlater
  obtain ⟨leaseUntil', huntil', hlt⟩ := hlater
  rw [Option.some.inj (huntil'.symm.trans huntil)] at hlt
  exact absurd hlt (not_lt.mpr hle)

/-- The job has succeeded. -/
def SucceededIn (id : UUID) (s : Store J ρ) : Prop := ∃ j ∈ s.jobs, j.id = id ∧ j.state = .succeeded

theorem SucceededIn.advances {id : UUID} {s s' : Store J ρ} (h : SucceededIn id s)
    (hadv : Advances s s') : SucceededIn id s' := by
  obtain ⟨j, hj, hid, hs⟩ := h
  obtain ⟨j', hj', hid', hadvance⟩ := hadv j hj
  exact ⟨j', hj', hid'.trans hid, of_decide_eq_true (hadvance.finished (decide_eq_true hs))⟩

section Histories

variable [JsonDocument J] {q : QueueState J ρ} {is : List (QueueInput J ρ)}

theorem legal_advances (hlegal : (queueMachine J ρ).Legal q is) (h : Consistent q.store) :
    Advances q.store ((queueMachine J ρ).exec q is).store :=
  Machine.Along.relates (R := fun a b ↦ Advances a.store b.store) (legal_consistent hlegal h)
    (fun _ ↦ .refl _) .trans fun q i hc ↦ (queueMachine_step q i hc.1.ids).advances hc.1.ids

/-- After a claim, the row of the job carries the issued generation. -/
theorem exists_row_of_claimed {i : QueueInput J ρ} {claimed : ClaimedJob J}
    (h : .ok (.claimed (some claimed)) = ((queueMachine J ρ).step q i).1) :
    (∃ j ∈ q.store.jobs, j.id = claimed.id ∧ claimed.leaseGeneration = j.leaseGeneration + 1) ∧
      ∃ j ∈ ((queueMachine J ρ).step q i).2.store.jobs, j.id = claimed.id ∧
        j.leaseGeneration = claimed.leaseGeneration := by
  obtain ⟨row, leaseUntil, hg⟩ := i.call.body_claimed (queueMachine_eq_ok.mp h.symm)
  have hid : row.id = claimed.id := by rw [hg.claim]
  refine ⟨⟨row, hg.mem, hid, by rw [hg.claim]⟩,
    leasedJob claimed.leaseGeneration claimed.leaseToken claimed.owner leaseUntil row, ?_, hid, rfl⟩
  rw [hg.jobs]
  exact mem_updateWhere_of_mem hg.mem rfl

theorem Superseded.leaseOver {claimed : ClaimedJob J} (hlegal : (queueMachine J ρ).Legal q is)
    (hcons : Consistent q.store)
    (h : Superseded claimed ((queueMachine J ρ).history q is)) :
    LeaseOver claimed ((queueMachine J ρ).exec q is).store := by
  obtain ⟨h₁, i, h₂, hhistory, i', later, hlater, hid⟩ := h
  obtain ⟨before, after, rfl, hissued, rfl⟩ := Machine.history_eq_append hhistory
  obtain ⟨mid, rest, rfl, hreissued⟩ := Machine.mem_history.mp hlater
  rw [← List.singleton_append, ← List.append_assoc] at hlegal
  obtain ⟨hlegal₁, hlegal₂⟩ := Machine.along_append.mp hlegal
  obtain ⟨hlegal₂, hi', hlegal₃⟩ := Machine.along_append.mp hlegal₂
  -- The generation issued first is reached, kept up to the second claim, and passed there.
  set q₁ := (queueMachine J ρ).exec q (before ++ [i]) with hq₁
  have hcons₁ : Consistent q₁.store := legal_exec_consistent hlegal₁ hcons
  set q₂ := (queueMachine J ρ).exec q₁ mid with hq₂
  have hcons₂ : Consistent q₂.store := legal_exec_consistent hlegal₂ hcons₁
  set q₃ := ((queueMachine J ρ).step q₂ i').2 with hq₃
  have hcons₃ : Consistent q₃.store := consistent_step i' hcons₂
  obtain ⟨-, j₁, hj₁, hid₁, hgen₁⟩ := exists_row_of_claimed hissued
  rw [← Machine.exec_concat] at hj₁
  obtain ⟨j₂, hj₂, hid₂, hadv⟩ := legal_advances hlegal₂ hcons₁ j₁ hj₁
  have hle : j₁.leaseGeneration ≤ j₂.leaseGeneration := hadv.generation_le
  obtain ⟨⟨row, hrow, hrowid, hnext⟩, j₃, hj₃, hid₃, hgen₃⟩ := exists_row_of_claimed hreissued
  rw [eq_of_key_eq hcons₂.ids hrow hj₂ (hrowid.trans (hid.trans (hid₂.trans hid₁).symm))] at hnext
  have hlt : claimed.leaseGeneration < j₃.leaseGeneration := by omega
  have hover : LeaseOver claimed q₃.store := ⟨j₃, hj₃, hid₃.trans hid, Or.inl hlt⟩
  have hend := hover.advances (legal_advances hlegal₃ hcons₃)
  rwa [← List.singleton_append, ← List.append_assoc, Machine.exec_append q (before ++ [i]),
    Machine.exec_append _ mid]

theorem AlreadyCompleted.leaseOver {claimed : ClaimedJob J}
    (hlegal : (queueMachine J ρ).Legal q is) (hcons : Consistent q.store)
    (h : AlreadyCompleted claimed ((queueMachine J ρ).history q is)) :
    LeaseOver claimed ((queueMachine J ρ).exec q is).store := by
  obtain ⟨clock, same, targetState, result, errorCode, effect, resultId, reply, ⟨hid, hgen, -⟩,
    hmem⟩ := h
  obtain ⟨before, after, rfl, hdone⟩ := Machine.mem_history.mp hmem
  obtain ⟨hlegal₁, -, hlegal₂⟩ := Machine.along_append.mp hlegal
  have hcons₁ := legal_exec_consistent hlegal₁ hcons
  have hcons₂ := consistent_step (ρ := ρ)
    ⟨clock, .completeWithEffects same targetState result errorCode effect resultId⟩ hcons₁
  obtain ⟨r, hr, hs'⟩ := bind_eq_ok.mp (queueMachine_eq_ok.mp hdone.symm)
  obtain ⟨row, rows, -, hc⟩ := completeWithEffects_step hcons₁.ids hr
  have hrow : completedJob targetState errorCode row ∈ r.2.jobs := by
    rw [hc.jobs]
    exact List.mem_append_left _ (mem_updateWhere_of_mem hc.mem rfl)
  rw [congrArg Prod.snd (Except.ok.inj hs')] at hrow
  have hover : LeaseOver claimed _ := ⟨_, hrow, hc.id.trans hid,
    Or.inr ⟨(hc.generation.trans hgen).symm, rfl⟩⟩
  rw [Machine.exec_append]
  exact hover.advances (legal_advances hlegal₂ hcons₂)

/-! ## At most one success -/

/-- The entry is a committed successful completion of the job `id`. -/
def commitsSuccess (id : UUID) : QueueInput J ρ × Except Error (QueueReply J) → Bool
  | (⟨_, .completeWithEffects claimed .succeeded _ _ _ _⟩, .ok _) => claimed.id = id
  | _ => false

/-- A successful completion finds the job unfinished and leaves it finished. -/
theorem succeeded_of_commitsSuccess {id : UUID} {i : QueueInput J ρ} (hcons : Consistent q.store)
    (h : commitsSuccess id (i, ((queueMachine J ρ).step q i).1) = true) :
    ¬SucceededIn id q.store ∧ SucceededIn id ((queueMachine J ρ).step q i).2.store := by
  unfold commitsSuccess at h
  split at h
  · next clock claimed result errorCode effect resultId reply heq =>
    obtain ⟨rfl, hreply⟩ := Prod.mk.inj heq
    have hid : claimed.id = id := of_decide_eq_true h
    obtain ⟨r, hr, hs'⟩ := bind_eq_ok.mp (queueMachine_eq_ok.mp hreply)
    obtain ⟨row, rows, -, hc⟩ := completeWithEffects_step hcons.ids hr
    constructor
    · rintro ⟨j, hj, hjid, hs⟩
      rw [eq_of_key_eq hcons.ids hj hc.mem (hjid.trans (hc.id.trans hid).symm), hc.running] at hs
      exact nomatch hs
    · have hrow : completedJob .succeeded errorCode row ∈ r.2.jobs := by
        rw [hc.jobs]
        exact List.mem_append_left _ (mem_updateWhere_of_mem hc.mem rfl)
      rw [congrArg Prod.snd (Except.ok.inj hs')] at hrow
      exact ⟨_, hrow, hc.id.trans hid, rfl⟩
  · exact absurd h Bool.false_ne_true

theorem countP_commitsSuccess_le (id : UUID) (hlegal : (queueMachine J ρ).Legal q is)
    (hcons : Consistent q.store) :
    ((queueMachine J ρ).history q is).countP (commitsSuccess id) ≤ 1 ∧
      (SucceededIn id q.store →
        ((queueMachine J ρ).history q is).countP (commitsSuccess id) = 0) := by
  induction is generalizing q with
  | nil => exact ⟨Nat.zero_le 1, fun _ ↦ rfl⟩
  | cons i is ih =>
    obtain ⟨hle, hzero⟩ := ih hlegal.2 (consistent_step i hcons)
    rw [Machine.history, List.countP_cons]
    by_cases hi : commitsSuccess id (i, ((queueMachine J ρ).step q i).1) = true
    · obtain ⟨hbefore, hafter⟩ := succeeded_of_commitsSuccess hcons hi
      rw [hzero hafter, if_pos hi]
      exact ⟨le_rfl, fun h ↦ absurd h hbefore⟩
    · rw [if_neg hi]
      refine ⟨hle, fun h ↦ hzero ?_⟩
      exact h.advances ((queueMachine_step q i hcons.ids).advances hcons.ids)

end Histories

/-- **Stale-worker isolation.** In every run from the empty queue, a claimed identity that a later
claim has superseded, that has been completed, or whose lease has run out is refused, whatever it
asks for and whatever effect it carries, and every table is as it was. Hence at most one successful
completion of a job ever commits. -/
theorem stale_worker_isolated [JsonDocument J] (other : ρ) (now : Timestamp)
    (is : List (QueueInput J ρ)) (hlegal : (queueMachine J ρ).Legal (emptyQueue other now) is) :
    (∀ (claimed : ClaimedJob J) (clock : StatementClock),
      Superseded claimed ((queueMachine J ρ).history (emptyQueue other now) is) ∨
        AlreadyCompleted claimed ((queueMachine J ρ).history (emptyQueue other now) is) ∨
        LeaseExpired claimed clock.seen
          ((queueMachine J ρ).exec (emptyQueue other now) is).store →
      Refused claimed clock ((queueMachine J ρ).exec (emptyQueue other now) is).store) ∧
    ∀ id, ((queueMachine J ρ).history (emptyQueue other now) is).countP (commitsSuccess id) ≤ 1 := by
  have hempty : Consistent (emptyQueue other now : QueueState J ρ).store := consistent_empty other
  have hcons := legal_exec_consistent hlegal hempty
  refine ⟨fun claimed clock hstale ↦ refused_of_not_fenced ?_,
    fun id ↦ (countP_commitsSuccess_le id hlegal hempty).1⟩
  rcases hstale with h | h | h
  · exact (h.leaseOver hlegal hempty).not_fenced hcons.ids clock.seen
  · exact (h.leaseOver hlegal hempty).not_fenced hcons.ids clock.seen
  · exact h.not_fenced hcons.ids

theorem stale_worker_isolated_lateWorker :
    Refused ⟨10, "generation:1", .summary, true, "first", 1, 21, 31⟩ ⟨2000004, 2000004, le_rfl⟩
      ((queueMachine Bool Unit).exec (emptyQueue () 0) lateWorkerCalls).store :=
  (stale_worker_isolated () 0 lateWorkerCalls (by decide)).1 _ _
    (Or.inl ⟨[(⟨⟨0, 0, le_rfl⟩, .enqueue 10 "generation:1" "summary" true none⟩,
        .ok (.enqueued ⟨10, "generation:1", .summary, .pending, 0⟩))],
      ⟨⟨1, 1, le_rfl⟩, .claimNext "first" 1 (some ["summary"]) 21 31 []⟩, _, rfl,
      ⟨⟨2000000, 2000001, by decide⟩, .claimNext "second" 60 none 22 32 []⟩,
      ⟨10, "generation:1", .summary, true, "second", 2, 22, 32⟩, List.mem_cons_self, rfl⟩)

end MeetingRag
