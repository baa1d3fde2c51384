import Mathlib.Data.Prod.Lex
import MeetingRag.Domain.Queue
import MeetingRag.Library.Table

/-!
# The durable queue

The PostgreSQL queue: three tables (jobs, their attempts, their canonical results) and the five
operations that move them. An operation is a transaction body: from the store it either returns a
value with the store it commits, or raises, in which case the store is the one it started from.

The queue is generic in the documents it carries and in the other tables of the database, because
a completion runs a caller's effect on those tables inside its own transaction.

## The clock

`clock_timestamp()` keeps moving inside a transaction. A call therefore carries two instants of the
database clock: the one its `WHERE` clause saw and the later one its `SET` clause wrote with.

Fresh identifiers (`uuid4`) are drawn by the caller, so every one is a parameter and the unique
constraints are checked against it.
-/

open Outcome Table Text

namespace MeetingRag

/-! ## Rows -/

/-- The kinds of logical jobs. -/
inductive JobKind
  | extraction | summary | research | reportSuggestions
deriving DecidableEq, Repr

def JobKind.value : JobKind → String
  | extraction => "extraction"
  | summary => "summary"
  | research => "research"
  | reportSuggestions => "report_suggestions"

/-- `_ALLOWED_KINDS`. -/
def allowedKinds : List JobKind := [.extraction, .summary, .research, .reportSuggestions]

/-- A row of `jobs`. -/
structure Job (J : Type) where
  id : UUID
  logicalKey : String
  kind : JobKind
  snapshotId : Option UUID
  payload : J
  state : JobState
  attempts : ℕ
  leaseGeneration : ℕ
  leaseToken : Option UUID
  leaseOwner : Option String
  leaseUntil : Option Timestamp
  errorCode : Option String
  createdAt : Timestamp
deriving DecidableEq

/-- Status of one attempt. -/
inductive AttemptStatus
  | running | succeeded | failed | expired | stale
deriving DecidableEq, Repr

/-- A row of `job_attempts`; `ended` is whether `ended_at` is set. -/
structure JobAttempt where
  id : UUID
  jobId : UUID
  leaseGeneration : ℕ
  leaseToken : UUID
  owner : String
  ended : Bool
  status : AttemptStatus
  errorCode : Option String
deriving DecidableEq, Repr

/-- A row of `job_results`. -/
structure JobResult (J : Type) where
  id : UUID
  jobId : UUID
  result : J
deriving DecidableEq

/-- The queue tables, beside the other tables of the database. -/
structure Store (J ρ : Type) where
  jobs : List (Job J)
  jobAttempts : List JobAttempt
  jobResults : List (JobResult J)
  other : ρ
deriving DecidableEq

/-- Which documents `canonical_json_bytes` can serialize. -/
class JsonDocument (J : Type) where
  encodable : J → Bool

/-- The smallest documents: a value is no more than whether it can be serialized. -/
instance : JsonDocument Bool := ⟨id⟩

/-- Stable logical job identity returned after an enqueue. -/
structure DurableJob where
  id : UUID
  logicalKey : String
  kind : JobKind
  state : JobState
  leaseGeneration : ℕ
deriving DecidableEq, Repr

/-- A worker-owned lease. -/
structure ClaimedJob (J : Type) where
  id : UUID
  logicalKey : String
  kind : JobKind
  payload : J
  owner : String
  leaseGeneration : ℕ
  leaseToken : UUID
  attemptId : UUID
deriving DecidableEq

/-- Two readings of the database clock inside one statement. -/
structure StatementClock where
  /-- The instant the predicate was evaluated at. -/
  seen : Timestamp
  /-- The instant written by the assignment. -/
  written : Timestamp
  ordered : seen ≤ written

theorem instant_le (n : ℕ) : (n : Timestamp) ≤ n := le_rfl

theorem epoch_le : (0 : Timestamp) ≤ 0 := le_rfl

variable {J ρ : Type}

/-! ## Argument checks -/

def requireLogicalKey (logicalKey : String) : Except Error Unit :=
  require (¬(Blank logicalKey ∨ logicalKey.length > 500))
    (.queueInvariant "logical_key must be non-empty and at most 500 characters")

/-- The kind a text names, if it is supported. -/
def requireKind (kind : String) : Except Error JobKind :=
  match allowedKinds.find? (·.value = kind) with
  | some k => .ok k
  | none => .error (.queueInvariant ("unsupported job kind: " ++ kind))

def requireOwner (owner : String) : Except Error Unit :=
  require (¬(Blank owner ∨ owner.length > 200))
    (.queueInvariant "owner must be non-empty and at most 200 characters")

def requireLeaseSeconds (leaseSeconds : ℤ) : Except Error Unit :=
  require (¬(leaseSeconds < 1 ∨ leaseSeconds > 3600))
    (.queueInvariant "lease_seconds must be between 1 and 3600")

/-- `tuple(sorted(set(kinds)))`, each of them supported. -/
def normalizeClaimKinds : Option (List String) → Except Error (Option (List JobKind))
  | none => .ok none
  | some kinds => do
    let normalized ← (sorted kinds.dedup).mapM requireKind
    .ok (some normalized)

/-- What `canonical_json_bytes` demands before anything is stored. -/
def requireFinite [JsonDocument J] (value : J) : Except Error Unit :=
  require (JsonDocument.encodable value = true)
    (.queueInvariant "queue payload must be finite JSON-compatible data")

/-- The checks a completion makes on its own arguments. -/
def requireCompletionArguments (targetState : JobState) (errorCode : Option String) :
    Except Error Unit := do
  require (targetState ∈ completionStates)
    (.queueInvariant "target_state must be a terminal queue state")
  if targetState = .succeeded then
    require (errorCode = none)
      (.queueInvariant "successful completion must not include an error_code")
  else
    match errorCode with
    | none => .error (.queueInvariant "failed completion requires a non-blank error_code")
    | some code => do
      require (¬Blank code)
        (.queueInvariant "failed completion requires a non-blank error_code")
      require (¬code.length > 128)
        (.queueInvariant "error_code must be at most 128 characters")

/-- An interval of seconds, in microseconds. -/
def seconds (n : ℤ) : ℤ := n * 1000000

/-! ## Enqueue -/

/-- The row an insert into `jobs` creates: pending, never claimed. -/
def newJob (id : UUID) (logicalKey : String) (kind : JobKind) (snapshotId : Option UUID)
    (payload : J) (createdAt : Timestamp) : Job J where
  id := id
  logicalKey := logicalKey
  kind := kind
  snapshotId := snapshotId
  payload := payload
  state := .pending
  attempts := 0
  leaseGeneration := 0
  leaseToken := none
  leaseOwner := none
  leaseUntil := none
  errorCode := none
  createdAt := createdAt

def durableJobFromRow (row : Job J) : DurableJob :=
  ⟨row.id, row.logicalKey, row.kind, row.state, row.leaseGeneration⟩

/-- The unique constraints of `jobs`. -/
def jobsClash (a b : Job J) : Prop := a.id = b.id ∨ a.logicalKey = b.logicalKey

instance : DecidableRel (jobsClash (J := J)) :=
  fun a b ↦ inferInstanceAs (Decidable (a.id = b.id ∨ a.logicalKey = b.logicalKey))

/-- `INSERT INTO jobs`. -/
def insertJob (row : Job J) (jobs : List (Job J)) : Except Error (List (Job J)) :=
  insertUnique jobsClash (fun _ ↦ .database "jobs_logical_key_key") row jobs

/-- `INSERT INTO jobs … ON CONFLICT (logical_key) DO NOTHING`. -/
def insertJobOrIgnore (row : Job J) (jobs : List (Job J)) : Except Error (List (Job J)) :=
  if ∃ r ∈ jobs, r.logicalKey = row.logicalKey then .ok jobs else insertJob row jobs

/-- Insert one logical job or return the existing idempotent job row. -/
def enqueue [JsonDocument J] (jobId : UUID) (logicalKey kind : String) (payload : J)
    (snapshotId : Option UUID) (clock : StatementClock) (s : Store J ρ) :
    Except Error (DurableJob × Store J ρ) := do
  requireLogicalKey logicalKey
  let kind ← requireKind kind
  requireFinite payload
  let jobs ← insertJobOrIgnore
    (newJob jobId logicalKey kind snapshotId payload clock.written) s.jobs
  match jobs.find? (·.logicalKey = logicalKey) with
  | some row => .ok (durableJobFromRow row, { s with jobs := jobs })
  | none => .error (.queueInvariant "idempotent job does not exist")

/-! ## Claim -/

/-- `state = 'pending' OR (state = 'running' AND lease_until <= clock_timestamp())`. -/
def Available (now : Timestamp) (j : Job J) : Prop :=
  j.state = .pending ∨ (j.state = .running ∧ ∃ leaseUntil ∈ j.leaseUntil, leaseUntil ≤ now)

instance (now : Timestamp) (j : Job J) : Decidable (Available now j) :=
  inferInstanceAs (Decidable (j.state = .pending ∨
    (j.state = .running ∧ ∃ leaseUntil ∈ j.leaseUntil, leaseUntil ≤ now)))

/-- The row a claim selects: available, of a requested kind, and not locked by another
transaction. An empty collection of kinds selects nothing. -/
def selectClaim (claimKinds : Option (List JobKind)) (locked : List UUID) (now : Timestamp)
    (jobs : List (Job J)) : Option (Job J) :=
  selectFirst (fun j ↦ toLex (j.createdAt, j.id.toNat))
    (fun j ↦ decide (Available now j ∧ (∀ kinds ∈ claimKinds, j.kind ∈ kinds) ∧ j.id ∉ locked)) jobs

/-- The attempt that an expired lease leaves behind. -/
def expireAttempt (row : Job J) (attempts : List JobAttempt) : List JobAttempt :=
  updateWhere
    (fun a ↦ a.jobId = row.id ∧ a.leaseGeneration = row.leaseGeneration ∧ a.status = .running ∧
      a.ended = false)
    (fun a ↦ { a with ended := true, status := .expired, errorCode := some "lease_expired" })
    attempts

/-- The job row under a new lease. -/
def leasedJob (generation : ℕ) (token : UUID) (owner : String) (leaseUntil : Timestamp)
    (j : Job J) : Job J :=
  { j with
    state := .running
    attempts := j.attempts + 1
    leaseGeneration := generation
    leaseToken := some token
    leaseOwner := some owner
    leaseUntil := some leaseUntil
    errorCode := none }

/-- The unique constraints of `job_attempts`. -/
def attemptsClash (a b : JobAttempt) : Prop :=
  a.id = b.id ∨ (a.jobId = b.jobId ∧ a.leaseGeneration = b.leaseGeneration)

instance : DecidableRel attemptsClash :=
  fun a b ↦ inferInstanceAs
    (Decidable (a.id = b.id ∨ (a.jobId = b.jobId ∧ a.leaseGeneration = b.leaseGeneration)))

/-- Atomically claim one pending or expired-running job with database time. -/
def claimNext (owner : String) (leaseSeconds : ℤ) (kinds : Option (List String))
    (leaseToken attemptId : UUID) (locked : List UUID) (clock : StatementClock) (s : Store J ρ) :
    Except Error (Option (ClaimedJob J) × Store J ρ) := do
  requireOwner owner
  requireLeaseSeconds leaseSeconds
  let claimKinds ← normalizeClaimKinds kinds
  match selectClaim claimKinds locked clock.seen s.jobs with
  | none => .ok (none, s)
  | some row => do
    let expired := if row.state = .running then expireAttempt row s.jobAttempts else s.jobAttempts
    let nextGeneration := row.leaseGeneration + 1
    let jobs := updateWhere (·.id = row.id)
      (leasedJob nextGeneration leaseToken owner (clock.written + seconds leaseSeconds)) s.jobs
    let attempts ← insertUnique attemptsClash
      (fun _ ↦ .database "job_attempts_job_id_lease_generation_key")
      { id := attemptId
        jobId := row.id
        leaseGeneration := nextGeneration
        leaseToken := leaseToken
        owner := owner
        ended := false
        status := .running
        errorCode := none } expired
    .ok (some {
      id := row.id
      logicalKey := row.logicalKey
      kind := row.kind
      payload := row.payload
      owner := owner
      leaseGeneration := nextGeneration
      leaseToken := leaseToken
      attemptId := attemptId }, { s with jobs := jobs, jobAttempts := attempts })

/-! ## Heartbeat -/

/-- The compare-and-set predicate of a lease: the exact generation and token of a running job
whose lease has not run out. -/
def Fenced (claimed : ClaimedJob J) (now : Timestamp) (j : Job J) : Prop :=
  j.id = claimed.id ∧ j.state = .running ∧ j.leaseGeneration = claimed.leaseGeneration ∧
    j.leaseToken = some claimed.leaseToken ∧ ∃ leaseUntil ∈ j.leaseUntil, leaseUntil > now

instance (claimed : ClaimedJob J) (now : Timestamp) : DecidablePred (Fenced claimed now) :=
  fun j ↦ inferInstanceAs (Decidable
    (j.id = claimed.id ∧ j.state = .running ∧ j.leaseGeneration = claimed.leaseGeneration ∧
      j.leaseToken = some claimed.leaseToken ∧ ∃ leaseUntil ∈ j.leaseUntil, leaseUntil > now))

/-- Extend only the exact current lease or reject a stale worker. -/
def heartbeat (claimed : ClaimedJob J) (leaseSeconds : ℤ) (clock : StatementClock)
    (s : Store J ρ) : Except Error (Unit × Store J ρ) := do
  requireLeaseSeconds leaseSeconds
  require (rowcount (Fenced claimed clock.seen) s.jobs = 1)
    (.staleLease "job heartbeat lease is stale")
  .ok ((), { s with
    jobs := updateWhere (Fenced claimed clock.seen)
      (fun j ↦ { j with leaseUntil := some (clock.written + seconds leaseSeconds) }) s.jobs })

/-! ## Completion -/

/-- The job row once its lease is given up. -/
def completedJob (targetState : JobState) (errorCode : Option String) (j : Job J) : Job J :=
  { j with
    state := targetState
    leaseToken := none
    leaseOwner := none
    leaseUntil := none
    errorCode := errorCode }

/-- The unique constraints of `job_results`. -/
def resultsClash (a b : JobResult J) : Prop := a.id = b.id ∨ a.jobId = b.jobId

instance : DecidableRel (resultsClash (J := J)) :=
  fun a b ↦ inferInstanceAs (Decidable (a.id = b.id ∨ a.jobId = b.jobId))

/-- Run the caller's effect, if there is one. -/
def runEffect (effect : Option (Store J ρ → Except Error (Store J ρ))) (s : Store J ρ) :
    Except Error (Store J ρ) :=
  match effect with
  | none => .ok s
  | some effect => effect s

/-- Store the canonical result of a successful completion. -/
def storeResult [JsonDocument J] (targetState : JobState) (resultId jobId : UUID) (result : J)
    (s : Store J ρ) : Except Error (Store J ρ) :=
  if targetState = .succeeded then do
    requireFinite result
    let results ← insertUnique resultsClash (fun _ ↦ .database "job_results_job_id_key")
      ⟨resultId, jobId, result⟩ s.jobResults
    .ok { s with jobResults := results }
  else .ok s

/-- The attempt that a completion ends. -/
def CurrentAttempt (claimed : ClaimedJob J) (a : JobAttempt) : Prop :=
  a.jobId = claimed.id ∧ a.leaseGeneration = claimed.leaseGeneration ∧
    a.leaseToken = claimed.leaseToken ∧ a.status = .running ∧ a.ended = false

instance (claimed : ClaimedJob J) : DecidablePred (CurrentAttempt claimed) :=
  fun a ↦ inferInstanceAs (Decidable
    (a.jobId = claimed.id ∧ a.leaseGeneration = claimed.leaseGeneration ∧
      a.leaseToken = claimed.leaseToken ∧ a.status = .running ∧ a.ended = false))

/-- The attempt row once its lease is given up. -/
def endedAttempt (targetState : JobState) (errorCode : Option String) (a : JobAttempt) :
    JobAttempt :=
  { a with
    ended := true
    status := if targetState = .succeeded then .succeeded else .failed
    errorCode := errorCode }

/-- Persist a canonical result and the exact lease completion atomically. The effect runs after
the lease comparison and before the result is stored, all in one transaction. -/
def completeWithEffects [JsonDocument J] (claimed : ClaimedJob J) (targetState : JobState)
    (result : J) (errorCode : Option String)
    (effect : Option (Store J ρ → Except Error (Store J ρ))) (resultId : UUID)
    (clock : StatementClock) (s : Store J ρ) : Except Error (Unit × Store J ρ) := do
  requireCompletionArguments targetState errorCode
  require (rowcount (Fenced claimed clock.seen) s.jobs = 1)
    (.staleLease "job completion lease is stale")
  let s ← runEffect effect { s with
    jobs := updateWhere (Fenced claimed clock.seen) (completedJob targetState errorCode) s.jobs }
  let s ← storeResult targetState resultId claimed.id result s
  require (rowcount (CurrentAttempt claimed) s.jobAttempts = 1)
    (.queueInvariant "current job attempt was not append-only running")
  .ok ((), { s with
    jobAttempts := updateWhere (CurrentAttempt claimed) (endedAttempt targetState errorCode)
      s.jobAttempts })

/-! ## Requeue -/

/-- The compare-and-set predicate of a requeue. -/
def Requeueable (jobId : UUID) (expectedLeaseGeneration : ℤ) (j : Job J) : Prop :=
  j.id = jobId ∧ j.state = .failedRetryable ∧ (j.leaseGeneration : ℤ) = expectedLeaseGeneration ∧
    j.leaseToken = none

instance (jobId : UUID) (expectedLeaseGeneration : ℤ) :
    DecidablePred (Requeueable (J := J) jobId expectedLeaseGeneration) :=
  fun j ↦ inferInstanceAs (Decidable
    (j.id = jobId ∧ j.state = .failedRetryable ∧
      (j.leaseGeneration : ℤ) = expectedLeaseGeneration ∧ j.leaseToken = none))

/-- `SET state = 'pending', error_code = NULL`. -/
def requeuedJob (j : Job J) : Job J := { j with state := .pending, errorCode := none }

/-- Retry the same logical row, never create a second logical key. -/
def requeueRetryable (jobId : UUID) (expectedLeaseGeneration : ℤ) (s : Store J ρ) :
    Except Error (Unit × Store J ρ) := do
  require (¬expectedLeaseGeneration < 1)
    (.queueInvariant "expected_lease_generation must be positive")
  require (rowcount (Requeueable jobId expectedLeaseGeneration) s.jobs = 1)
    (.staleLease "retry target is stale or not retryable")
  .ok ((), { s with
    jobs := updateWhere (Requeueable jobId expectedLeaseGeneration) requeuedJob s.jobs })

end MeetingRag
