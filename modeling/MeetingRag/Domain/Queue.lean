import MeetingRag.Domain.Models

/-!
# Queue intents

Pure construction of the fencing intents for the durable queue. An intent is the policy's answer to
"may this step be taken on this row, and what would the row become"; the repository enforces the
same rules a second time in its SQL.

Each builder has one lemma that says exactly when it returns and what it returns. The checks run in
the order of the source, so the lemma on a failing call names the first one that fails.
-/

open Outcome Text

namespace MeetingRag

/-- The states a completion may target. -/
def completionStates : List JobState := [.succeeded, .failedRetryable, .failedTerminal]

def requireAware (fieldName : String) (value : DateTime) : Except Error Unit :=
  require (value.aware = true) (.domainInvariant (fieldName ++ " must be timezone-aware"))

def requirePositiveDuration (value : ℤ) : Except Error Unit :=
  require (¬value ≤ 0) (.domainInvariant "lease_duration must be positive")

/-- `hmac.compare_digest` on two strings, which refuses non-ASCII text. -/
def compareDigest (a b : String) : Except Error Bool :=
  if Ascii a ∧ Ascii b then .ok (decide (a = b))
  else .error (.typeError "comparing strings with non-ASCII characters is not supported")

/-! ## Claim -/

/-- Whether a claim at `databaseNow` reclaims an expired lease, or the reason it is refused. -/
def reclaimsExpiredLease (job : JobLeaseView) (databaseNow : DateTime) : Except Error Bool :=
  match job.state, job.leaseUntil with
  | .pending, _ => .ok false
  | .running, some leaseUntil => do
    requireAware "job.lease_until" leaseUntil
    require (¬leaseUntil.instant > databaseNow.instant)
      (.jobNotClaimable "running job lease has not expired")
    .ok true
  | state, _ =>
    .error (.jobNotClaimable
      ("job in " ++ state.value ++ " cannot be claimed without an explicit requeue"))

/-- Build a claim intent for a pending or expired job, by the database clock. -/
def buildClaimIntent (job : JobLeaseView) (ownerId newLeaseToken : String)
    (databaseNow : DateTime) (leaseDuration : ℤ) : Except Error JobClaimIntent := do
  requireIdentifier "owner_id" ownerId
  requireIdentifier "new_lease_token" newLeaseToken
  requireAware "database_now" databaseNow
  requirePositiveDuration leaseDuration
  let reclaimedExpiredLease ← reclaimsExpiredLease job databaseNow
  .ok {
    jobId := job.jobId
    expectedState := job.state
    expectedLeaseGeneration := job.leaseGeneration
    expectedLeaseToken := job.leaseToken
    ownerId := ownerId
    leaseGeneration := job.leaseGeneration + 1
    leaseToken := newLeaseToken
    leaseUntil := { databaseNow with instant := databaseNow.instant + leaseDuration }
    reclaimedExpiredLease := reclaimedExpiredLease }

/-- A job is claimable at an instant when it is pending, or running with a lease that has run out.
-/
def Claimable (job : JobLeaseView) (databaseNow : DateTime) : Prop :=
  job.state = .pending ∨
    (job.state = .running ∧ ∃ leaseUntil ∈ job.leaseUntil,
      leaseUntil.aware = true ∧ leaseUntil.instant ≤ databaseNow.instant)

theorem reclaimsExpiredLease_eq_ok {job : JobLeaseView} {databaseNow : DateTime} {b : Bool} :
    reclaimsExpiredLease job databaseNow = .ok b ↔
      Claimable job databaseNow ∧ b = decide (job.state = .running) := by
  rw [Claimable]
  cases hstate : job.state with
  | pending => simp [reclaimsExpiredLease, hstate, eq_comm (b := b)]
  | running =>
    obtain ⟨token, expiry, -, huntil⟩ := job.exists_of_running hstate
    simp [reclaimsExpiredLease, hstate, huntil, requireAware, require_bind_eq_ok, and_assoc,
      eq_comm (b := b)]
  | succeeded => simp [reclaimsExpiredLease, hstate]
  | failedRetryable => simp [reclaimsExpiredLease, hstate]
  | failedTerminal => simp [reclaimsExpiredLease, hstate]

theorem buildClaimIntent_eq_ok {job : JobLeaseView} {ownerId newLeaseToken : String}
    {databaseNow : DateTime} {leaseDuration : ℤ} {intent : JobClaimIntent} :
    buildClaimIntent job ownerId newLeaseToken databaseNow leaseDuration = .ok intent ↔
      ¬Blank ownerId ∧ ¬Blank newLeaseToken ∧ databaseNow.aware = true ∧ 0 < leaseDuration ∧
        Claimable job databaseNow ∧
        intent = {
          jobId := job.jobId
          expectedState := job.state
          expectedLeaseGeneration := job.leaseGeneration
          expectedLeaseToken := job.leaseToken
          ownerId := ownerId
          leaseGeneration := job.leaseGeneration + 1
          leaseToken := newLeaseToken
          leaseUntil := { databaseNow with instant := databaseNow.instant + leaseDuration }
          reclaimedExpiredLease := decide (job.state = .running) } := by
  simp only [buildClaimIntent, requireIdentifier, requireAware, requirePositiveDuration,
    bind_eq_ok, require_eq_ok, exists_const, reclaimsExpiredLease_eq_ok, Except.ok.injEq, not_le]
  constructor
  · rintro ⟨howner, htoken, haware, hduration, b, ⟨hclaimable, rfl⟩, rfl⟩
    exact ⟨howner, htoken, haware, hduration, hclaimable, rfl⟩
  · rintro ⟨howner, htoken, haware, hduration, hclaimable, rfl⟩
    exact ⟨howner, htoken, haware, hduration, _, ⟨hclaimable, rfl⟩, rfl⟩

/-! ## Lease ownership -/

/-- Raise unless the presented generation and token are those of the running lease. -/
def assertCurrentLease (job : JobLeaseView) (leaseGeneration : ℤ) (leaseToken : String) :
    Except Error Unit := do
  require (¬leaseGeneration < 1) (.staleLease "lease generation must be positive")
  requireIdentifier "lease_token" leaseToken
  let stale : Error := .staleLease "job lease generation or token is stale"
  require (job.state = .running) stale
  require (job.leaseGeneration = leaseGeneration) stale
  match job.leaseToken with
  | none => .error stale
  | some current => do
    let same ← compareDigest current leaseToken
    require (same = true) stale

/-- The presented generation and token are those of the running lease. -/
structure OwnsLease (job : JobLeaseView) (leaseGeneration : ℤ) (leaseToken : String) : Prop where
  running : job.state = .running
  generation : job.leaseGeneration = leaseGeneration
  token : job.leaseToken = some leaseToken
  ascii : Ascii leaseToken

theorem assertCurrentLease_eq_ok {job : JobLeaseView} {leaseGeneration : ℤ} {leaseToken : String}
    {u : Unit} : assertCurrentLease job leaseGeneration leaseToken = .ok u ↔
      OwnsLease job leaseGeneration leaseToken := by
  simp only [assertCurrentLease, requireIdentifier, require_bind_eq_ok, not_lt]
  constructor
  · rintro ⟨-, -, hstate, hgen, hcmp⟩
    cases htoken : job.leaseToken with
    | none => rw [htoken] at hcmp; cases hcmp
    | some current =>
      rw [htoken] at hcmp
      obtain ⟨same, hsame, htrue⟩ := bind_eq_ok.mp hcmp
      rw [require_eq_ok] at htrue
      subst htrue
      unfold compareDigest at hsame
      split at hsame
      · next hascii =>
        have heq : current = leaseToken := of_decide_eq_true (Except.ok.inj hsame)
        exact ⟨hstate, hgen, by rw [htoken, heq], hascii.2⟩
      · cases hsame
  · rintro ⟨hstate, hgen, htoken, hascii⟩
    obtain ⟨-, hnonneg, hblank, hpos, -⟩ := JobLeaseView.postInit_eq_ok.mp job.checked
    have hpos := hpos hstate
    refine ⟨by omega, hblank leaseToken htoken, hstate, hgen, ?_⟩
    rw [htoken]
    simp [compareDigest, hascii]

/-! ## Heartbeat, completion, requeue -/

/-- Build an exact-generation and exact-token heartbeat extension. -/
def buildHeartbeatIntent (job : JobLeaseView) (leaseGeneration : ℤ) (leaseToken : String)
    (databaseNow : DateTime) (leaseDuration : ℤ) : Except Error JobHeartbeatIntent := do
  assertCurrentLease job leaseGeneration leaseToken
  requireAware "database_now" databaseNow
  requirePositiveDuration leaseDuration
  .ok {
    jobId := job.jobId
    leaseGeneration := leaseGeneration
    leaseToken := leaseToken
    leaseUntil := { databaseNow with instant := databaseNow.instant + leaseDuration } }

theorem buildHeartbeatIntent_eq_ok {job : JobLeaseView} {leaseGeneration : ℤ} {leaseToken : String}
    {databaseNow : DateTime} {leaseDuration : ℤ} {intent : JobHeartbeatIntent} :
    buildHeartbeatIntent job leaseGeneration leaseToken databaseNow leaseDuration = .ok intent ↔
      OwnsLease job leaseGeneration leaseToken ∧ databaseNow.aware = true ∧ 0 < leaseDuration ∧
        intent = {
          jobId := job.jobId
          leaseGeneration := leaseGeneration
          leaseToken := leaseToken
          leaseUntil := { databaseNow with instant := databaseNow.instant + leaseDuration } } := by
  simp only [buildHeartbeatIntent, requireAware, requirePositiveDuration, bind_eq_ok,
    require_eq_ok, assertCurrentLease_eq_ok, Except.ok.injEq, not_le, exists_const,
    eq_comm (b := intent)]

/-- Build the exact preconditions of a completion transaction. -/
def buildCompletionIntent (job : JobLeaseView) (leaseGeneration : ℤ) (leaseToken : String)
    (targetState : JobState) : Except Error JobCompletionIntent := do
  assertCurrentLease job leaseGeneration leaseToken
  require (targetState ∈ completionStates) (.domainInvariant
    "completion target must be succeeded, failed_retryable, or failed_terminal")
  .ok {
    jobId := job.jobId
    leaseGeneration := leaseGeneration
    leaseToken := leaseToken
    targetState := targetState }

theorem buildCompletionIntent_eq_ok {job : JobLeaseView} {leaseGeneration : ℤ} {leaseToken : String}
    {targetState : JobState} {intent : JobCompletionIntent} :
    buildCompletionIntent job leaseGeneration leaseToken targetState = .ok intent ↔
      OwnsLease job leaseGeneration leaseToken ∧ targetState ∈ completionStates ∧
        intent = {
          jobId := job.jobId
          leaseGeneration := leaseGeneration
          leaseToken := leaseToken
          targetState := targetState } := by
  simp only [buildCompletionIntent, bind_eq_ok, require_eq_ok, assertCurrentLease_eq_ok,
    Except.ok.injEq, exists_const, eq_comm (b := intent)]

/-- The preconditions for retrying the same logical job row. -/
def buildRequeueIntent (job : JobLeaseView) : Except Error JobRequeueIntent := do
  require (job.state = .failedRetryable)
    (.domainInvariant "only failed_retryable jobs may be requeued")
  .ok { jobId := job.jobId, expectedLeaseGeneration := job.leaseGeneration }

theorem buildRequeueIntent_eq_ok {job : JobLeaseView} {intent : JobRequeueIntent} :
    buildRequeueIntent job = .ok intent ↔ job.state = .failedRetryable ∧
      intent = { jobId := job.jobId, expectedLeaseGeneration := job.leaseGeneration } := by
  simp only [buildRequeueIntent, require_bind_eq_ok, Except.ok.injEq, eq_comm (b := intent)]

end MeetingRag
