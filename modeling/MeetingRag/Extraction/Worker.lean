import MeetingRag.Extraction.Tables
import MeetingRag.Queue.Steps

/-!
# The file extraction worker

A worker first puts interrupted jobs back, then claims one, loads its revision, reads the stored
bytes and parses them outside any transaction, and commits what came of it through the fence of its
lease. A retryable failure is put back in a separate transaction, up to the third attempt, whose
failures are terminal.

Reading and parsing are not modelled here. `Attempt` is what they came to.
-/

open Outcome Table Text

namespace MeetingRag

/-! ## Claiming -/

/-- The claim of a poll. -/
def claimExtraction (owner : String) (leaseToken attemptId : UUID) (locked : List UUID)
    (clock : StatementClock) (db : FileDatabase) :
    Except Error (Option (ClaimedJob ExtractionDocument) × FileDatabase) :=
  claimNext owner 60 (some [JobKind.extraction.value]) leaseToken attemptId locked clock db

/-! ## The parser's answer -/

/-- `SandboxFailureCode`. -/
inductive SandboxFailureCode
  | inputTooLarge | sandboxLaunchFailed | parserTimeout | parserLogLimit | parserLogOutput
  | parserCrash | parserExitMismatch | parserOutputTooLarge | invalidParserOutput
  | stagedInputTampered | parserReportedFailure
deriving DecidableEq, Repr

def SandboxFailureCode.value : SandboxFailureCode → String
  | inputTooLarge => "INPUT_TOO_LARGE"
  | sandboxLaunchFailed => "SANDBOX_LAUNCH_FAILED"
  | parserTimeout => "PARSER_TIMEOUT"
  | parserLogLimit => "PARSER_LOG_LIMIT"
  | parserLogOutput => "PARSER_LOG_OUTPUT"
  | parserCrash => "PARSER_CRASH"
  | parserExitMismatch => "PARSER_EXIT_MISMATCH"
  | parserOutputTooLarge => "PARSER_OUTPUT_TOO_LARGE"
  | invalidParserOutput => "INVALID_PARSER_OUTPUT"
  | stagedInputTampered => "STAGED_INPUT_TAMPERED"
  | parserReportedFailure => "PARSER_REPORTED_FAILURE"

structure SandboxFailure where
  code : SandboxFailureCode
  parserCode : Option String
  retryable : Option Bool
deriving DecidableEq, Repr

/-- `payload["result"]`. -/
structure ExtractionResult where
  parser : FileParser
  configProfileHash : String
  anchorSetHash : String
  blocks : List ExtractedBlock
deriving DecidableEq, Repr

/-- A parser's payload, whose result may be missing. -/
structure ExtractionPayload where
  result : Option ExtractionResult
deriving DecidableEq, Repr

structure SandboxExecution where
  ok : Bool
  payload : Option ExtractionPayload
  failure : Option SandboxFailure
deriving DecidableEq, Repr

/-- What an attempt on a loaded revision came to. -/
inductive Attempt
  /-- The stored bytes raised `FileSubmissionError`. -/
  | unavailable
  /-- Some other exception. -/
  | raised (e : Error)
  | executed (execution : SandboxExecution)
deriving DecidableEq, Repr

/-! ## Loading -/

/-- A queued revision with the scope of its submission and its parser. -/
structure LoadedRevision where
  id : UUID
  filename : String
  mimeType : MediaType
  byteSize : ℕ
  sha256 : String
  storageKey : String
  sessionId : UUID
  roomId : UUID
  parser : FileParser
deriving DecidableEq, Repr

/-- `_parse_identity`. -/
def parseIdentity (claimed : ClaimedJob ExtractionDocument) :
    Except Error (UUID × MediaType × FileParser) :=
  match claimed.payload with
  | .job revisionId mediaType parser => .ok (revisionId, mediaType, parser)
  | _ => .error (.valueError "invalid extraction job")

/-- A current revision that is queued. -/
def QueuedCurrent (revisionId : UUID) (r : FileRevision) : Prop :=
  r.id = revisionId ∧ r.isCurrent = true ∧ r.processingState = .queued

instance (revisionId : UUID) : DecidablePred (QueuedCurrent revisionId) := fun r ↦
  inferInstanceAs (Decidable (r.id = revisionId ∧ r.isCurrent = true ∧ r.processingState = .queued))

/-- The row of `_load_revision`. -/
def queuedRevision (db : FileDatabase) (revisionId : UUID) :
    Option (FileRevision × FileSubmission) := do
  let revision ← db.other.revisions.find? (QueuedCurrent revisionId)
  let submission ← db.other.submissions.find? (·.id = revision.submissionId)
  some (revision, submission)

/-- `_load_revision`, whose error is caught: no revision is the one outcome it leaves. -/
def loadRevision (db : FileDatabase) (revisionId : UUID) : Option LoadedRevision := do
  let (revision, submission) ← queuedRevision db revisionId
  let storageKey ← revision.storageKey
  some {
    id := revision.id
    filename := revision.filename
    mimeType := revision.mimeType
    byteSize := revision.byteSize
    sha256 := revision.sha256
    storageKey := storageKey
    sessionId := submission.sessionId
    roomId := submission.roomId
    parser := parserByMedia revision.mimeType }

/-! ## Deciding -/

/-- What a poll commits: the state of the job, its error code, and the result of a success. -/
structure ExtractionDecision where
  target : JobState
  errorCode : Option String
  result : Option ExtractionResult
deriving DecidableEq, Repr

def runnerFailureCode : String := "EXTRACTION_RUNNER_FAILURE"

def sourceUnavailable : ExtractionDecision :=
  ⟨.failedTerminal, some "SOURCE_BLOB_UNAVAILABLE", none⟩

/-- `_validated_result`. -/
def validatedResult (payload : ExtractionPayload) (mediaType : MediaType) :
    Except Error ExtractionResult :=
  match payload.result with
  | none => .error (.valueError "unapproved extraction profile")
  | some result => do
    require (result.configProfileHash = profileByMedia mediaType)
      (.valueError "unapproved extraction profile")
    require (result.blocks ≠ []) (.valueError "empty extraction")
    .ok result

/-- A failure that another attempt may mend. -/
def SandboxFailure.Retryable (failure : SandboxFailure) : Prop :=
  failure.retryable = some true ∨
    failure.code ∈ [SandboxFailureCode.sandboxLaunchFailed, .parserTimeout]

instance : DecidablePred SandboxFailure.Retryable := fun failure ↦ inferInstanceAs (Decidable
  (failure.retryable = some true ∨
    failure.code ∈ [SandboxFailureCode.sandboxLaunchFailed, .parserTimeout]))

/-- `failure.parser_code or failure.code.value`. -/
def SandboxFailure.errorCode (failure : SandboxFailure) : String :=
  match failure.parserCode with
  | some code => if code = "" then failure.code.value else code
  | none => failure.code.value

/-- The decision on a failed execution. -/
def failedDecision : Option SandboxFailure → ExtractionDecision
  | some failure =>
    ⟨if failure.Retryable then .failedRetryable else .failedTerminal, some failure.errorCode, none⟩
  | none => ⟨.failedTerminal, some runnerFailureCode, none⟩

/-- The decision on an execution. -/
def executedDecision (mediaType : MediaType) (execution : SandboxExecution) :
    Except Error ExtractionDecision :=
  match execution.ok, execution.payload with
  | true, some payload => do
    let result ← validatedResult payload mediaType
    .ok ⟨.succeeded, none, some result⟩
  | _, _ => .ok (failedDecision execution.failure)

/-- The decision on an attempt. -/
def attemptDecision (mediaType : MediaType) : Attempt → Except Error ExtractionDecision
  | .unavailable => .ok sourceUnavailable
  | .raised e => .error e
  | .executed execution => executedDecision mediaType execution

/-- The `try` of `run_once`. -/
def decideAttempt (claimed : ClaimedJob ExtractionDocument) (revision : Option LoadedRevision)
    (attempt : Attempt) : Except Error ExtractionDecision := do
  let identity ← parseIdentity claimed
  match revision with
  | none => .ok sourceUnavailable
  | some revision =>
    if revision.mimeType ≠ identity.2.1 ∨ revision.parser ≠ identity.2.2 then .ok sourceUnavailable
    else attemptDecision identity.2.1 attempt

def maxExtractionAttempts : ℕ := 3

/-- The last allowed attempt turns a retryable failure into a terminal one. -/
def capAttempts (claimed : ClaimedJob ExtractionDocument) (decision : ExtractionDecision) :
    ExtractionDecision :=
  if decision.target = .failedRetryable ∧ claimed.leaseGeneration ≥ maxExtractionAttempts then
    { decision with target := .failedTerminal }
  else decision

/-! ## Persisting -/

/-- `_append_extraction_activity`, with the scope it is given or looks up. -/
def appendExtractionActivity (event : EventIdentity) (roomId sessionId : UUID) (t : FileTables) :
    FileTables :=
  { t with auditEvents := appendEvent ⟨event, none, some roomId, some sessionId⟩ t.auditEvents }

def readyRevision (runId : UUID) (r : FileRevision) : FileRevision :=
  { r with approvedExtractionRunId := some runId, processingState := .ready }

def failedRevision (r : FileRevision) : FileRevision := { r with processingState := .failed }

/-- `INSERT INTO extraction_runs`. -/
def insertFileRun (run : FileExtractionRun) (t : FileTables) : Except Error FileTables := do
  let runs ← insertUnique fileRunsClash (fun _ ↦ .database "extraction_runs_key") run
    t.extractionRuns
  .ok { t with extractionRuns := runs }

/-- `UPDATE source_revisions … WHERE id = … AND is_current AND processing_state = 'queued'`, which
has to find the revision. -/
def moveRevision (revisionId : UUID) (f : FileRevision → FileRevision) (t : FileTables) :
    Except Error FileTables := do
  require (rowcount (QueuedCurrent revisionId) t.revisions = 1)
    (.staleLease "source revision is no longer current and queued")
  .ok { t with revisions := updateWhere (QueuedCurrent revisionId) f t.revisions }

/-- `_persist_success`. -/
def persistExtraction (claimed : ClaimedJob ExtractionDocument) (revision : LoadedRevision)
    (result : ExtractionResult) (runId : UUID) (t : FileTables) : Except Error FileTables := do
  let t ← insertFileRun ⟨runId, revision.id, result.parser, result.configProfileHash,
    claimed.leaseGeneration, .succeeded, none, some claimed.attemptId⟩ t
  let anchors ← (result.blocks.map fun block ↦ FileAnchor.mk runId revision.id block).foldlM
    insertAnchor t.anchors
  let t ← moveRevision revision.id (readyRevision runId) { t with anchors := anchors }
  .ok (appendExtractionActivity (.revision ⟨.ready, by decide⟩ revision.id claimed.attemptId)
    revision.roomId revision.sessionId t)

/-- `_persist_failure`. -/
def persistExtractionFailure (claimed : ClaimedJob ExtractionDocument) (revision : LoadedRevision)
    (errorCode : String) (terminal : Prop) [Decidable terminal] (runId : UUID) (t : FileTables) :
    Except Error FileTables := do
  let t ← insertFileRun ⟨runId, revision.id, revision.parser, profileByMedia revision.mimeType,
    claimed.leaseGeneration, .failed, some errorCode, some claimed.attemptId⟩ t
  if terminal then do
    let t ← moveRevision revision.id failedRevision t
    .ok (appendExtractionActivity (.revision ⟨.failed, by decide⟩ revision.id claimed.attemptId)
      revision.roomId revision.sessionId t)
  else .ok t

/-- The effect of a completion. -/
def extractionEffect (claimed : ClaimedJob ExtractionDocument) (revision : Option LoadedRevision)
    (decision : ExtractionDecision) (runId : UUID) (t : FileTables) : Except Error FileTables :=
  match revision, decision.target, decision.result with
  | none, _, _ => .ok t
  | some revision, .succeeded, some result => persistExtraction claimed revision result runId t
  | some revision, target, _ => persistExtractionFailure claimed revision
      (decision.errorCode.getD runnerFailureCode) (target = .failedTerminal) runId t

/-- `safe_result`. -/
def safeResult (revision : Option LoadedRevision) (decision : ExtractionDecision) :
    ExtractionDocument :=
  match revision, decision.target, decision.result with
  | some revision, .succeeded, some result =>
    .result revision.id result.anchorSetHash result.blocks.length
  | _, _, _ => .failed

/-- The transaction of `run_once` that ends a claimed job. -/
def completeExtraction (claimed : ClaimedJob ExtractionDocument) (revision : Option LoadedRevision)
    (attempt : Attempt) (runId resultId : UUID) (clock : StatementClock) (db : FileDatabase) :
    Except Error (Unit × FileDatabase) := do
  let decision ← decideAttempt claimed revision attempt
  let decision := capAttempts claimed decision
  completeWithEffects claimed decision.target (safeResult revision decision) decision.errorCode
    (some (Effect.onOther (extractionEffect claimed revision decision runId)).run) resultId clock db

/-! ## Putting back -/

/-- A failed extraction job that no worker holds. -/
def FailedExtraction (j : Job ExtractionDocument) : Prop :=
  j.kind = .extraction ∧ j.state = .failedRetryable ∧ j.leaseToken = none

/-- The rows of the first statement, of those it sees. -/
def Interrupted (unseen : List UUID) (j : Job ExtractionDocument) : Prop :=
  FailedExtraction j ∧ j.leaseGeneration < maxExtractionAttempts ∧ j.id ∉ unseen

/-- The revision a job is about, `payload_json->>'revision_id'`. -/
def jobRevision : ExtractionDocument → Option UUID
  | .job revisionId _ _ => some revisionId
  | _ => none

/-- The rows of `terminal_jobs`. -/
def Exhausted (unseen : List UUID) (j : Job ExtractionDocument) : Prop :=
  FailedExtraction j ∧ j.leaseGeneration ≥ maxExtractionAttempts ∧ j.id ∉ unseen

instance : DecidablePred FailedExtraction := fun j ↦ inferInstanceAs (Decidable
  (j.kind = .extraction ∧ j.state = .failedRetryable ∧ j.leaseToken = none))

instance (unseen : List UUID) : DecidablePred (Interrupted unseen) := fun j ↦
  inferInstanceAs (Decidable
    (FailedExtraction j ∧ j.leaseGeneration < maxExtractionAttempts ∧ j.id ∉ unseen))

instance (unseen : List UUID) : DecidablePred (Exhausted unseen) := fun j ↦
  inferInstanceAs (Decidable
    (FailedExtraction j ∧ j.leaseGeneration ≥ maxExtractionAttempts ∧ j.id ∉ unseen))

/-- `SET state = 'failed_terminal'`. -/
def exhaustedJob (j : Job ExtractionDocument) : Job ExtractionDocument :=
  { j with state := .failedTerminal }

/-- The repair of one exhausted job: its queued revision fails with it. -/
def repairExhausted (db : FileDatabase) (j : Job ExtractionDocument) : Except Error FileDatabase :=
  match (jobRevision j.payload).bind (queuedRevision db) with
  | none => .ok db
  | some (revision, submission) =>
    .ok { db with
      jobs := updateWhere (·.id = j.id) exhaustedJob db.jobs
      other := appendExtractionActivity
        (.revisionReconciled ⟨.failed, by decide⟩ revision.id j.id) submission.roomId
        submission.sessionId
        { db.other with
          revisions := updateWhere (QueuedCurrent revision.id) failedRevision db.other.revisions } }

/-- `_reconcile_retryable_extractions`. A row that changed under the transaction is not seen. -/
def reconcileRetryableExtractions (unseen : List UUID) (db : FileDatabase) :
    Except Error FileDatabase :=
  let db := { db with jobs := updateWhere (Interrupted unseen) requeuedJob db.jobs }
  (db.jobs.filter (Exhausted unseen)).foldlM repairExhausted db

/-- `_retry_requeue_has_benign_winner`. -/
def retryRequeueHasBenignWinner (jobId : UUID) (expectedGeneration : ℤ) (db : FileDatabase) : Bool :=
  match db.jobs.find? (·.id = jobId) with
  | none => false
  | some row =>
    if row.kind ≠ .extraction then false
    else
      match row.state with
      | .pending => decide ((row.leaseGeneration : ℤ) ≥ expectedGeneration)
      | .running => decide ((row.leaseGeneration : ℤ) > expectedGeneration)
      | .failedRetryable => decide ((row.leaseGeneration : ℤ) > expectedGeneration)
      | .succeeded | .failedTerminal => decide ((row.leaseGeneration : ℤ) ≥ expectedGeneration)

end MeetingRag
