import Mathlib.Data.Int.ConditionallyCompleteOrder
import MeetingRag.Library.Outcome
import MeetingRag.Library.Text

/-!
# Domain models

The value objects of the session and queue policies, and the exceptions that any layer raises. A
dataclass whose `__post_init__` validates its fields is a structure that carries the outcome of that
validation, so a value of it cannot exist unchecked; its `new` is the constructor call, which raises
where the source does.

Timestamps and durations count microseconds on an unbounded axis, and counters are unbounded.
-/

open Outcome Text

namespace MeetingRag

/-! ## Exceptions -/

/-- The exceptions of the modelled code, each with the text it is raised with. A violated database
constraint is `database` with the constraint's name. -/
inductive Error
  | domainInvariant (message : String)
  | sessionState (message : String)
  | closeBlocked (blockingRevisionIds : List String)
  | jobNotClaimable (message : String)
  | staleLease (message : String)
  | typeError (message : String)
  | valueError (message : String)
  | queueInvariant (message : String)
  | generationRepository (message : String)
  | sessionServiceState (message : String)
  | sessionAccess (message : String)
  | sessionHostRequired (message : String)
  | extractionRunMissing (message : String)
  | extractionAnchorSchemaMismatch (message : String)
  | sessionRetryAccess (message : String)
  | sessionRetryHostRequired (message : String)
  | sessionRetryUnavailable (message : String)
  | collaboration (message : String)
  | collaborationAccess (message : String)
  | collaborationHostRequired (message : String)
  | automaticSuggestionRunner (message : String)
  | mergedDocumentAccess (message : String)
  | mergedDocumentStaleVersion (message : String)
  | generationDocumentUnavailable (message : String)
  | fileSubmission (message : String)
  | fileSubmissionAccess (message : String)
  | fileSubmissionState (message : String)
  | fileSubmissionLimit (message : String)
  | runtimeError (message : String)
  | osError
  | database (constraint : String)
deriving DecidableEq, Repr

/-! ## Enumerations -/

/-- Persisted aggregate state of a talk session. -/
inductive TalkSessionState
  | draft | open | closed | processing | ready | needsAttention
deriving DecidableEq, Repr

/-- Processing state of a current source revision. -/
inductive RevisionProcessingState
  | uploaded | queued | extracting | ready | failed
deriving DecidableEq, Repr

/-- The two independently executed canonical generation artifacts. -/
inductive GenerationKind
  | summary | research
deriving DecidableEq, Repr

/-- Lifecycle state of one canonical run. -/
inductive GenerationRunState
  | queued | running | succeeded | failedRetryable | failedTerminal
deriving DecidableEq, Repr

/-- Durable state of a logical job. -/
inductive JobState
  | pending | running | succeeded | failedRetryable | failedTerminal
deriving DecidableEq, Repr

/-- Host-visible next action. -/
inductive AggregateAction
  | none | retry | operatorOrReplan
deriving DecidableEq, Repr

namespace TalkSessionState

def value : TalkSessionState → String
  | draft => "draft"
  | «open» => "open"
  | closed => "closed"
  | processing => "processing"
  | ready => "ready"
  | needsAttention => "needs_attention"

end TalkSessionState

namespace GenerationKind

def value : GenerationKind → String
  | summary => "summary"
  | research => "research"

end GenerationKind

namespace GenerationRunState

def value : GenerationRunState → String
  | queued => "queued"
  | running => "running"
  | succeeded => "succeeded"
  | failedRetryable => "failed_retryable"
  | failedTerminal => "failed_terminal"

/-- Whether the canonical run still has work in progress. -/
def isActive (s : GenerationRunState) : Bool := s = queued || s = running

/-- Whether the run has stopped without producing its artifact. -/
def isFailure (s : GenerationRunState) : Bool := s = failedRetryable || s = failedTerminal

/-- Whether the host may retry this canonical kind. -/
def isRetryableFailure (s : GenerationRunState) : Bool := s = failedRetryable

end GenerationRunState

namespace JobState

def value : JobState → String
  | pending => "pending"
  | running => "running"
  | succeeded => "succeeded"
  | failedRetryable => "failed_retryable"
  | failedTerminal => "failed_terminal"

end JobState

/-! ## Time -/

/-- Microseconds since a fixed instant. -/
abbrev Timestamp := ℤ

/-- A `datetime`: an instant, and whether it carries a time zone. -/
structure DateTime where
  instant : Timestamp
  aware : Bool
deriving DecidableEq, Repr

/-! ## Value objects -/

def requireIdentifier (fieldName value : String) : Except Error Unit :=
  require (¬Blank value) (.domainInvariant (fieldName ++ " must not be blank"))

/-- The only revision data needed to decide whether a session may close. -/
structure RevisionStatus where
  revisionId : String
  processingState : RevisionProcessingState
  identified : ¬Blank revisionId
deriving DecidableEq

def RevisionStatus.new (revisionId : String) (processingState : RevisionProcessingState) :
    Except Error RevisionStatus :=
  if h : Blank revisionId then .error (.domainInvariant "revision_id must not be blank")
  else .ok ⟨revisionId, processingState, h⟩

/-- A host's explicit exclusion request for one current revision. -/
structure CloseExclusion where
  revisionId : String
  reason : String
  identified : ¬Blank revisionId
  explained : ¬Blank reason
deriving DecidableEq

def CloseExclusion.new (revisionId reason : String) : Except Error CloseExclusion :=
  if hid : Blank revisionId then .error (.domainInvariant "revision_id must not be blank")
  else if hreason : Blank reason then
    .error (.domainInvariant "exclusion reason must not be blank")
  else .ok ⟨revisionId, reason, hid, hreason⟩

/-- Deterministic close decision derived from current revisions. -/
structure CloseEligibility where
  eligible : Bool
  includedRevisionIds : List String
  excludedRevisionIds : List String
  blockingRevisionIds : List String
deriving DecidableEq, Repr

/-- Minimal canonical-run data needed for an aggregate projection. -/
structure GenerationRunView where
  kind : GenerationKind
  state : GenerationRunState
  errorCode : Option String
  coded : ∀ code ∈ errorCode, ¬Blank code

def GenerationRunView.new (kind : GenerationKind) (state : GenerationRunState)
    (errorCode : Option String) : Except Error GenerationRunView :=
  if h : ∀ code ∈ errorCode, ¬Blank code then .ok ⟨kind, state, errorCode, h⟩
  else .error (.domainInvariant "generation error_code must not be blank")

/-- A stable, machine-readable explanation for `needs_attention`. -/
structure AggregateReason where
  code : String
  kind : Option GenerationKind
  retryable : Bool
  coded : ¬Blank code

/-- Projected talk-session outcome from the two canonical run states. -/
structure GenerationAggregate where
  state : TalkSessionState
  reasons : List AggregateReason
  retryAvailable : Bool
  action : AggregateAction

/-! ## Leases -/

/-- What `JobLeaseView.__post_init__` demands of the fields. -/
def JobLeaseView.postInit (jobId : String) (state : JobState) (leaseGeneration : ℤ)
    (leaseToken : Option String) (leaseUntil : Option DateTime) : Except Error Unit := do
  requireIdentifier "job_id" jobId
  require (0 ≤ leaseGeneration) (.domainInvariant "lease_generation must not be negative")
  require (∀ token ∈ leaseToken, ¬Blank token)
    (.domainInvariant "lease_token must not be blank")
  require (state = .running → leaseGeneration ≠ 0)
    (.domainInvariant "running job must have a lease generation")
  require (state = .running → leaseToken ≠ none ∧ leaseUntil ≠ none)
    (.domainInvariant "running job must have a token and expiry")

/-- Persisted job fields required to create a fencing-aware intent. -/
structure JobLeaseView where
  jobId : String
  state : JobState
  leaseGeneration : ℤ
  leaseToken : Option String
  leaseUntil : Option DateTime
  checked : JobLeaseView.postInit jobId state leaseGeneration leaseToken leaseUntil = .ok ()

def JobLeaseView.new (jobId : String) (state : JobState) (leaseGeneration : ℤ)
    (leaseToken : Option String) (leaseUntil : Option DateTime) : Except Error JobLeaseView :=
  match h : postInit jobId state leaseGeneration leaseToken leaseUntil with
  | .ok () => .ok ⟨jobId, state, leaseGeneration, leaseToken, leaseUntil, h⟩
  | .error e => .error e

/-- CAS preconditions and replacement lease for a short claim transaction. -/
structure JobClaimIntent where
  jobId : String
  expectedState : JobState
  expectedLeaseGeneration : ℤ
  expectedLeaseToken : Option String
  ownerId : String
  leaseGeneration : ℤ
  leaseToken : String
  leaseUntil : DateTime
  reclaimedExpiredLease : Bool
deriving DecidableEq, Repr

/-- CAS preconditions and extended expiry for an owned running job. -/
structure JobHeartbeatIntent where
  jobId : String
  leaseGeneration : ℤ
  leaseToken : String
  leaseUntil : DateTime
deriving DecidableEq, Repr

/-- CAS preconditions for atomically persisting a completed logical job. -/
structure JobCompletionIntent where
  jobId : String
  leaseGeneration : ℤ
  leaseToken : String
  targetState : JobState
deriving DecidableEq, Repr

/-- CAS preconditions for retrying the same logical job row. -/
structure JobRequeueIntent where
  jobId : String
  expectedLeaseGeneration : ℤ
deriving DecidableEq, Repr

namespace JobLeaseView

/-- What validation leaves behind, field by field. -/
theorem postInit_eq_ok {jobId : String} {state : JobState} {leaseGeneration : ℤ}
    {leaseToken : Option String} {leaseUntil : Option DateTime} :
    postInit jobId state leaseGeneration leaseToken leaseUntil = .ok () ↔
      ¬Blank jobId ∧ 0 ≤ leaseGeneration ∧ (∀ token ∈ leaseToken, ¬Blank token) ∧
        (state = .running → leaseGeneration ≠ 0) ∧
        (state = .running → leaseToken ≠ none ∧ leaseUntil ≠ none) := by
  rw [postInit, requireIdentifier, require_bind_eq_ok, require_bind_eq_ok, require_bind_eq_ok,
    require_bind_eq_ok, require_eq_ok]

/-- A running view has a token and an expiry. -/
theorem exists_of_running (job : JobLeaseView) (h : job.state = .running) :
    ∃ token expiry, job.leaseToken = some token ∧ job.leaseUntil = some expiry := by
  obtain ⟨-, -, -, -, hrunning⟩ := postInit_eq_ok.mp job.checked
  obtain ⟨htoken, huntil⟩ := hrunning h
  obtain ⟨token, htoken⟩ := Option.ne_none_iff_exists'.mp htoken
  obtain ⟨expiry, huntil⟩ := Option.ne_none_iff_exists'.mp huntil
  exact ⟨token, expiry, htoken, huntil⟩

theorem new_eq_ok {jobId : String} {state : JobState} {leaseGeneration : ℤ}
    {leaseToken : Option String} {leaseUntil : Option DateTime} {job : JobLeaseView} :
    new jobId state leaseGeneration leaseToken leaseUntil = .ok job ↔
      job.jobId = jobId ∧ job.state = state ∧ job.leaseGeneration = leaseGeneration ∧
        job.leaseToken = leaseToken ∧ job.leaseUntil = leaseUntil := by
  constructor
  · intro h
    unfold new at h
    split at h
    · cases h
      exact ⟨rfl, rfl, rfl, rfl, rfl⟩
    · exact nomatch h
  · obtain ⟨_, _, _, _, _, hchecked⟩ := job
    rintro ⟨rfl, rfl, rfl, rfl, rfl⟩
    unfold new
    split
    · rfl
    · next e h =>
      rw [hchecked] at h
      exact nomatch h

end JobLeaseView

end MeetingRag
