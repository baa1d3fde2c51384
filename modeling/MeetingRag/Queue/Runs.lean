import MeetingRag.Queue.Steps

/-!
# Runs of the queue

The queue as a machine: its inputs are the calls of the five operations by any worker, each with the
database instants it happened at, and a call is enabled when the database clock has not gone back.
Nothing restricts which leases a worker presents: a heartbeat or a completion may carry any claimed
identity, current, stale or invented.
-/

open Outcome Table

namespace MeetingRag

variable {J ρ : Type}

/-- A call of a queue operation. -/
inductive QueueCall (J ρ : Type)
  | enqueue (jobId : UUID) (logicalKey kind : String) (payload : J) (snapshotId : Option UUID)
  | claimNext (owner : String) (leaseSeconds : ℤ) (kinds : Option (List String))
      (leaseToken attemptId : UUID) (locked : List UUID)
  | heartbeat (claimed : ClaimedJob J) (leaseSeconds : ℤ)
  | completeWithEffects (claimed : ClaimedJob J) (targetState : JobState) (result : J)
      (errorCode : Option String) (effect : Option (Effect J ρ)) (resultId : UUID)
  | requeueRetryable (jobId : UUID) (expectedLeaseGeneration : ℤ)

/-- What an operation returns. -/
inductive QueueReply (J : Type)
  | enqueued (job : DurableJob)
  | claimed (claimed : Option (ClaimedJob J))
  | done
deriving DecidableEq

/-- A call together with the database instants it happens at. -/
structure QueueInput (J ρ : Type) where
  clock : StatementClock
  call : QueueCall J ρ

/-- The store and the latest instant of the database clock. -/
structure QueueState (J ρ : Type) where
  store : Store J ρ
  now : Timestamp

namespace QueueCall

/-- The transaction body of a call. -/
def body [JsonDocument J] (clock : StatementClock) (s : Store J ρ) :
    QueueCall J ρ → Except Error (QueueReply J × Store J ρ)
  | enqueue jobId logicalKey kind payload snapshotId => do
    let (job, s) ← MeetingRag.enqueue jobId logicalKey kind payload snapshotId clock s
    .ok (.enqueued job, s)
  | claimNext owner leaseSeconds kinds leaseToken attemptId locked => do
    let (claimed, s) ←
      MeetingRag.claimNext owner leaseSeconds kinds leaseToken attemptId locked clock s
    .ok (.claimed claimed, s)
  | heartbeat claimed leaseSeconds => do
    let ((), s) ← MeetingRag.heartbeat claimed leaseSeconds clock s
    .ok (.done, s)
  | completeWithEffects claimed targetState result errorCode effect resultId => do
    let ((), s) ← MeetingRag.completeWithEffects claimed targetState result errorCode
      (effect.map (·.run)) resultId clock s
    .ok (.done, s)
  | requeueRetryable jobId expectedLeaseGeneration => do
    let ((), s) ← MeetingRag.requeueRetryable jobId expectedLeaseGeneration s
    .ok (.done, s)

end QueueCall

/-- The queue under its callers. -/
def queueMachine (J ρ : Type) [JsonDocument J] :
    Machine (QueueState J ρ) (QueueInput J ρ) (Except Error (QueueReply J)) where
  enabled s i := s.now ≤ i.clock.seen
  step s i :=
    let r := transaction s.store (i.call.body i.clock s.store)
    (r.1, ⟨r.2, i.clock.written⟩)

/-- Empty queue tables beside any other tables. -/
def emptyStore (other : ρ) : Store J ρ := ⟨[], [], [], other⟩

/-- The queue before its first call. -/
def emptyQueue (other : ρ) (now : Timestamp) : QueueState J ρ := ⟨emptyStore other, now⟩

instance [JsonDocument J] (s : QueueState J ρ) (i : QueueInput J ρ) :
    Decidable ((queueMachine J ρ).enabled s i) :=
  inferInstanceAs (Decidable (s.now ≤ i.clock.seen))

variable [JsonDocument J] {s s' : Store J ρ} {clock : StatementClock} {call : QueueCall J ρ}
  {reply : QueueReply J}

/-- **Every committed call is one queue step.** -/
theorem QueueCall.body_step (hids : UniqueIds s) (h : call.body clock s = .ok (reply, s')) :
    QueueStep s s' := by
  cases call with
  | enqueue jobId logicalKey kind payload snapshotId =>
    obtain ⟨r, hr, hs'⟩ := bind_eq_ok.mp h
    cases hs'
    obtain ⟨rows, hins, -⟩ := enqueue_step hr
    exact .inserted rows hins
  | claimNext owner leaseSeconds kinds leaseToken attemptId locked =>
    obtain ⟨r, hr, hs'⟩ := bind_eq_ok.mp h
    cases hs'
    rcases claimNext_step hr with ⟨-, hsame⟩ | ⟨row, claimed, -, hgrant⟩
    · exact .unchanged hsame
    · exact .granted row claimed _ _ hgrant
  | heartbeat claimed leaseSeconds =>
    obtain ⟨r, hr, hs'⟩ := bind_eq_ok.mp h
    cases hs'
    obtain ⟨row, -, hext⟩ := heartbeat_step hids hr
    exact .extended row _ hext
  | completeWithEffects claimed targetState result errorCode effect resultId =>
    obtain ⟨r, hr, hs'⟩ := bind_eq_ok.mp h
    cases hs'
    obtain ⟨row, rows, -, hdone⟩ := completeWithEffects_step hids hr
    exact .completed row claimed targetState errorCode rows hdone
  | requeueRetryable jobId expectedLeaseGeneration =>
    obtain ⟨r, hr, hs'⟩ := bind_eq_ok.mp h
    cases hs'
    obtain ⟨row, -, hreq⟩ := requeueRetryable_step hids hr
    exact .requeued row hreq

/-- A call that returns a lease has granted it. -/
theorem QueueCall.body_claimed {claimed : ClaimedJob J}
    (h : call.body clock s = .ok (.claimed (some claimed), s')) :
    ∃ row leaseUntil, Granted row claimed clock.seen leaseUntil s s' := by
  cases call with
  | claimNext owner leaseSeconds kinds leaseToken attemptId locked =>
    obtain ⟨⟨result, s''⟩, hr, hs'⟩ := bind_eq_ok.mp h
    cases hs'
    rcases claimNext_step hr with ⟨hnone, -⟩ | ⟨row, c, hsome, hgrant⟩
    · exact nomatch hnone
    · cases hsome
      exact ⟨row, _, hgrant⟩
  | enqueue jobId logicalKey kind payload snapshotId =>
    obtain ⟨r, -, hs'⟩ := bind_eq_ok.mp h
    cases hs'
  | heartbeat claimed leaseSeconds =>
    obtain ⟨r, -, hs'⟩ := bind_eq_ok.mp h
    cases hs'
  | completeWithEffects claimed targetState result errorCode effect resultId =>
    obtain ⟨r, -, hs'⟩ := bind_eq_ok.mp h
    cases hs'
  | requeueRetryable jobId expectedLeaseGeneration =>
    obtain ⟨r, -, hs'⟩ := bind_eq_ok.mp h
    cases hs'

/-- What a step of the machine returned is what the body of its call returned. -/
theorem queueMachine_eq_ok {q : QueueState J ρ} {i : QueueInput J ρ} :
    ((queueMachine J ρ).step q i).1 = .ok reply ↔
      i.call.body i.clock q.store = .ok (reply, ((queueMachine J ρ).step q i).2.store) :=
  @transaction_fst_eq_ok _ _ _ q.store (i.call.body i.clock q.store) _

/-- A step of the machine commits a queue step or rolls back. -/
theorem queueMachine_step (q : QueueState J ρ) (i : QueueInput J ρ) (hids : UniqueIds q.store) :
    QueueStep q.store ((queueMachine J ρ).step q i).2.store :=
  transaction_snd_of (P := QueueStep q.store) (.unchanged rfl) fun _ _ h ↦ i.call.body_step hids h

end MeetingRag
