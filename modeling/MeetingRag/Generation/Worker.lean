import MeetingRag.Generation.Repository
import MeetingRag.Queue.Runs

/-!
# The generation worker

A worker claims a summary or research job, runs the provider outside any transaction, and commits
what came of it through the fence of its lease. Research failures are retried automatically: the
worker requeues the job in a separate transaction, and turns the failure of the third attempt into a
terminal one. The run of the job is not touched by that requeue.

The provider is not modelled. `ProviderOutcome` is what calling it came to; an unexpected exception
ends the poll without a transaction and is therefore no outcome.
-/

open Outcome Table Text

namespace MeetingRag

/-! ## Executions -/

/-- The checks of `GenerationExecution.__post_init__`. -/
def GenerationExecution.postInit (pipelineVersion : String) (targetState : JobState)
    (errorCode : Option String) (retryable : Bool) (completion : Option GenerationCompletion) :
    Except Error Unit := do
  require (¬Blank pipelineVersion)
    (.valueError "generation execution pipeline_version must not be blank")
  if targetState = .succeeded then
    require (errorCode = none ∧ completion.isSome = true ∧ retryable = false)
      (.valueError "successful execution requires exactly one completion")
  else do
    require (targetState = .failedRetryable ∨ targetState = .failedTerminal)
      (.valueError "generation execution must be terminal")
    require (completion.isNone = true ∧ ∃ code ∈ errorCode, code ≠ "" ∧ strip code = code)
      (.valueError "failed execution requires a typed error and no completion")

/-- A provider result or typed failure awaiting a fenced effect. -/
structure GenerationExecution where
  snapshotId : UUID
  kind : GenerationKind
  pipelineVersion : String
  targetState : JobState
  result : JobDocument
  errorCode : Option String
  retryable : Bool
  completion : Option GenerationCompletion
  checked : GenerationExecution.postInit pipelineVersion targetState errorCode retryable completion
    = .ok ()

def GenerationExecution.new (snapshotId : UUID) (kind : GenerationKind) (pipelineVersion : String)
    (targetState : JobState) (result : JobDocument) (errorCode : Option String) (retryable : Bool)
    (completion : Option GenerationCompletion) : Except Error GenerationExecution :=
  match h : postInit pipelineVersion targetState errorCode retryable completion with
  | .ok () =>
    .ok ⟨snapshotId, kind, pipelineVersion, targetState, result, errorCode, retryable, completion, h⟩
  | .error e => .error e

/-- Apply the effect of an execution. -/
def GenerationExecution.persist (e : GenerationExecution) (reportJobId : UUID)
    (createdAt : Timestamp) (db : Database) :
    Except Error (GenerationAggregateProjection × Database) :=
  match e.completion with
  | some completion => persistSuccess completion reportJobId createdAt db
  | none => persistFailure e.snapshotId e.kind e.pipelineVersion (e.errorCode.getD "") e.retryable
      reportJobId createdAt db

/-! ## Running a claimed job -/

/-- What calling the provider came to. -/
inductive ProviderOutcome
  | generated (documentId : UUID) (structuredContent provider model promptVersion : String)
      (contents : Except Error Unit)
  | providerFailure (code : String) (retryable : Bool)
  | groundingFailure (code : String)
  | retrievalContextInvalid
  | runnerError

/-- The canonical kind of a job, if it has one. -/
def generationKind? : JobKind → Option GenerationKind
  | .summary => some .summary
  | .research => some .research
  | .extraction | .reportSuggestions => none

/-- `_claimed_generation_identity`, without the texts of its errors: each of them ends in
`_failure_for_claim`. -/
def claimedGenerationIdentity (claimed : ClaimedJob JobDocument) :
    Option (UUID × GenerationKind × String) :=
  match generationKind? claimed.kind, claimed.payload with
  | some kind, .generation snapshotId payloadKind pipelineVersion =>
    if payloadKind = claimed.kind ∧ ¬Blank pipelineVersion then
      some (snapshotId, kind, pipelineVersion)
    else none
  | _, _ => none

def failedExecution (snapshotId : UUID) (kind : GenerationKind) (pipelineVersion errorCode : String)
    (retryable : Bool) : Except Error GenerationExecution :=
  let targetState : JobState := if retryable then .failedRetryable else .failedTerminal
  GenerationExecution.new snapshotId kind pipelineVersion targetState
    (.laneResult snapshotId kind targetState (some errorCode)) (some errorCode) retryable none

def failureCodeOfClaim : String := "generation_runner_failure"

/-- `_failure_for_claim`: a terminal effect only when the payload identity is valid. -/
def failureForClaim (claimed : ClaimedJob JobDocument) : Except Error (Option GenerationExecution) :=
  match claimedGenerationIdentity claimed with
  | none => .ok none
  | some (snapshotId, kind, pipelineVersion) => do
    let execution ← failedExecution snapshotId kind pipelineVersion failureCodeOfClaim false
    .ok (some execution)

/-- The execution of a provider result. -/
def generatedExecution (completion : GenerationCompletion) : Except Error GenerationExecution := do
  completion.postInit
  GenerationExecution.new completion.snapshotId completion.kind completion.pipelineVersion
    .succeeded (.laneResult completion.snapshotId completion.kind .succeeded none) none false
    (some completion)

/-- The execution that an outcome makes of a claimed lane. -/
def executeLane (snapshotId : UUID) (kind : GenerationKind) (pipelineVersion : String) :
    ProviderOutcome → Except Error GenerationExecution
  | .generated documentId structuredContent provider model promptVersion contents =>
    generatedExecution ⟨snapshotId, kind, pipelineVersion, documentId, structuredContent, provider,
      model, promptVersion, contents⟩
  | .providerFailure code retryable =>
    failedExecution snapshotId kind pipelineVersion code retryable
  | .groundingFailure code => failedExecution snapshotId kind pipelineVersion code false
  | .retrievalContextInvalid =>
    failedExecution snapshotId kind pipelineVersion "retrieval_context_invalid" false
  | .runnerError => failedExecution snapshotId kind pipelineVersion failureCodeOfClaim false

/-- `_execute_safely`. -/
def executeSafely (claimed : ClaimedJob JobDocument) (outcome : ProviderOutcome) :
    Except Error (Option GenerationExecution) :=
  match claimedGenerationIdentity claimed with
  | none => failureForClaim claimed
  | some (snapshotId, kind, pipelineVersion) => do
    let execution ← executeLane snapshotId kind pipelineVersion outcome
    .ok (some execution)

def maxResearchAttempts : ℕ := 3

/-- After the last allowed attempt, a retryable research failure becomes terminal. -/
def capResearchRetries (claimed : ClaimedJob JobDocument) :
    Option GenerationExecution → Except Error (Option GenerationExecution)
  | none => .ok none
  | some e =>
    if e.targetState ≠ .failedRetryable ∨ claimed.kind ≠ .research ∨
        claimed.leaseGeneration < maxResearchAttempts then .ok (some e)
    else do
      let capped ← GenerationExecution.new e.snapshotId e.kind e.pipelineVersion .failedTerminal
        (.laneResult e.snapshotId e.kind .failedTerminal e.errorCode) e.errorCode false e.completion
      .ok (some capped)

/-- What a poll makes of its claimed job before it opens the transaction of the completion. -/
def laneExecution (claimed : ClaimedJob JobDocument) (outcome : ProviderOutcome) :
    Except Error (Option GenerationExecution) := do
  let execution ← executeSafely claimed outcome
  capResearchRetries claimed execution

/-! ## Completing -/

/-- `GenerationExecution.fenced_effect`. -/
def GenerationExecution.fencedEffect (e : GenerationExecution) (reportJobId : UUID)
    (createdAt : Timestamp) (db : Database) : Except Error Database := do
  let (_, db) ← e.persist reportJobId createdAt db
  .ok db

/-- `_complete`: an invalid payload ends the job alone, anything else goes through the fenced
effect. -/
def completeExecution (claimed : ClaimedJob JobDocument) (execution : Option GenerationExecution)
    (resultId reportJobId : UUID) (clock : StatementClock) (db : Database) :
    Except Error (Unit × Database) :=
  match execution with
  | none =>
    completeWithEffects claimed .failedTerminal (.failure failureCodeOfClaim)
      (some failureCodeOfClaim) none resultId clock db
  | some e =>
    completeWithEffects claimed e.targetState e.result e.errorCode
      (some (e.fencedEffect reportJobId clock.seen)) resultId clock db

/-- The poll of a lane from its provider outcome to the commit of its completion. -/
def completeLane (claimed : ClaimedJob JobDocument) (outcome : ProviderOutcome)
    (resultId reportJobId : UUID) (clock : StatementClock) (db : Database) :
    Except Error (Unit × Database) := do
  let execution ← laneExecution claimed outcome
  completeExecution claimed execution resultId reportJobId clock db

/-- `_retry_research`: put a research job back at once; a summary job waits for its host. -/
def retryResearch (claimed : ClaimedJob JobDocument) (db : Database) :
    Except Error (Unit × Database) :=
  if claimed.kind ≠ .research then .ok ((), db)
  else requeueRetryable claimed.id claimed.leaseGeneration db

/-! ## What an execution is about -/

/-- The outcome of the run that an execution persists. -/
def GenerationExecution.runState (e : GenerationExecution) : GenerationRunState :=
  if e.completion.isSome then .succeeded
  else if e.retryable then .failedRetryable
  else .failedTerminal

/-- The completion of an execution is a completion of its own run. -/
def GenerationExecution.Identified (e : GenerationExecution) : Prop :=
  ∀ c ∈ e.completion, c.snapshotId = e.snapshotId ∧ c.kind = e.kind ∧
    c.pipelineVersion = e.pipelineVersion

section Identity

variable {claimed : ClaimedJob JobDocument} {outcome : ProviderOutcome} {e : GenerationExecution}
  {snapshotId : UUID} {kind : GenerationKind} {pipelineVersion : String}

theorem GenerationExecution.new_eq_ok {targetState : JobState} {result : JobDocument}
    {errorCode : Option String} {retryable : Bool} {completion : Option GenerationCompletion}
    (h : GenerationExecution.new snapshotId kind pipelineVersion targetState result errorCode
      retryable completion = .ok e) :
    e.snapshotId = snapshotId ∧ e.kind = kind ∧ e.pipelineVersion = pipelineVersion ∧
      e.completion = completion := by
  unfold GenerationExecution.new at h
  split at h
  · cases h
    exact ⟨rfl, rfl, rfl, rfl⟩
  · exact nomatch h

/-- The three fields that name the run of an execution. -/
def GenerationExecution.IsFor (e : GenerationExecution) (snapshotId : UUID) (kind : GenerationKind)
    (pipelineVersion : String) : Prop :=
  (e.snapshotId = snapshotId ∧ e.kind = kind ∧ e.pipelineVersion = pipelineVersion) ∧ e.Identified

theorem failedExecution_isFor {errorCode : String} {retryable : Bool}
    (h : failedExecution snapshotId kind pipelineVersion errorCode retryable = .ok e) :
    e.IsFor snapshotId kind pipelineVersion := by
  obtain ⟨hs, hk, hp, hc⟩ := GenerationExecution.new_eq_ok h
  refine ⟨⟨hs, hk, hp⟩, fun c hcompletion ↦ ?_⟩
  rw [hc] at hcompletion
  exact nomatch hcompletion

theorem executeLane_isFor (h : executeLane snapshotId kind pipelineVersion outcome = .ok e) :
    e.IsFor snapshotId kind pipelineVersion := by
  cases outcome with
  | generated documentId structuredContent provider model promptVersion contents =>
    obtain ⟨_, -, hnew⟩ := bind_eq_ok.mp h
    obtain ⟨hs, hk, hp, hc⟩ := GenerationExecution.new_eq_ok hnew
    refine ⟨⟨hs, hk, hp⟩, fun c hcompletion ↦ ?_⟩
    rw [hc] at hcompletion
    cases hcompletion
    exact ⟨hs.symm, hk.symm, hp.symm⟩
  | providerFailure code retryable => exact failedExecution_isFor h
  | groundingFailure code => exact failedExecution_isFor h
  | retrievalContextInvalid => exact failedExecution_isFor h
  | runnerError => exact failedExecution_isFor h

/-- Capping the retries of an execution changes its target, not its run. -/
theorem capResearchRetries_isFor {before : Option GenerationExecution}
    (hbefore : ∀ e ∈ before, e.IsFor snapshotId kind pipelineVersion)
    (h : capResearchRetries claimed before = .ok (some e)) :
    e.IsFor snapshotId kind pipelineVersion := by
  cases before with
  | none => exact nomatch h
  | some b =>
    rw [capResearchRetries] at h
    split at h
    · cases h
      exact hbefore e rfl
    · obtain ⟨capped, hnew, hcapped⟩ := bind_eq_ok.mp h
      cases hcapped
      obtain ⟨hs, hk, hp, hc⟩ := GenerationExecution.new_eq_ok hnew
      obtain ⟨⟨hbs, hbk, hbp⟩, hident⟩ := hbefore b rfl
      refine ⟨⟨hs.trans hbs, hk.trans hbk, hp.trans hbp⟩, fun c hcompletion ↦ ?_⟩
      rw [hs, hk, hp]
      exact hident c (hc ▸ hcompletion)

/-- **An execution is about the run that its claim names.** -/
theorem laneExecution_isFor (h : laneExecution claimed outcome = .ok (some e)) :
    ∃ snapshotId kind pipelineVersion,
      claimedGenerationIdentity claimed = some (snapshotId, kind, pipelineVersion) ∧
        e.IsFor snapshotId kind pipelineVersion := by
  obtain ⟨before, hbefore, hcap⟩ := bind_eq_ok.mp h
  rw [executeSafely] at hbefore
  split at hbefore
  · next hnone =>
    rw [failureForClaim, hnone] at hbefore
    cases hbefore
    exact nomatch hcap
  · next snapshotId kind pipelineVersion hsome =>
    obtain ⟨b, hb, hb'⟩ := bind_eq_ok.mp hbefore
    cases hb'
    refine ⟨snapshotId, kind, pipelineVersion, hsome, capResearchRetries_isFor ?_ hcap⟩
    intro e he
    rw [← Option.some.inj he]
    exact executeLane_isFor hb

theorem claimedGenerationIdentity_eq_some
    (h : claimedGenerationIdentity claimed = some (snapshotId, kind, pipelineVersion)) :
    claimed.kind = kind.jobKind ∧
      claimed.payload = .generation snapshotId kind.jobKind pipelineVersion := by
  obtain ⟨_, _, jobKind, payload, _, _, _, _⟩ := claimed
  cases jobKind <;> cases payload <;>
    simp only [claimedGenerationIdentity, generationKind?, reduceCtorEq,
      Option.ite_none_right_eq_some, Option.some.injEq, Prod.mk.injEq] at h <;>
    obtain ⟨⟨rfl, -⟩, rfl, rfl, rfl⟩ := h <;> exact ⟨rfl, rfl⟩

/-- What persisting an identified execution does. -/
theorem GenerationExecution.persist_eq_ok {reportJobId : UUID} {createdAt : Timestamp}
    {db db' : Database} {projection : GenerationAggregateProjection} (hident : e.Identified)
    (h : e.persist reportJobId createdAt db = .ok (projection, db')) :
    Persisted e.snapshotId e.kind e.pipelineVersion e.runState db db' := by
  rw [GenerationExecution.persist] at h
  split at h
  · next completion hcompletion =>
    obtain ⟨hs, hk, hp⟩ := hident completion hcompletion
    rw [GenerationExecution.runState, hcompletion, ← hs, ← hk, ← hp]
    exact persistSuccess_eq_ok h
  · next hnone =>
    rw [GenerationExecution.runState, hnone]
    exact persistFailure_eq_ok h

end Identity

end MeetingRag
