import MeetingRag.Domain.Policies
import MeetingRag.Session.Tables

/-!
# The session lifecycle

The transactions by which people move a session: opening one in a room, closing it for generation,
reopening it after an analysis, and retrying a failed generation. Each is a transaction body. It
locks the session row, so concurrent calls on one session run one after the other and a call is a
single step from the database it found to the database it leaves.

Closing is the long one. It checks the request, decides which current revisions are included,
records the exclusions, pins an extraction run for every included revision, and creates the
snapshot, its two runs and their two jobs, all before the session shows as `processing`.
-/

open Outcome Table Text

namespace MeetingRag

/-! ## Shared statements -/

/-- The locked session row, joined with an active membership of the actor. -/
def lockSession (db : Database) (sessionId actorId : UUID) : Option TalkSession :=
  db.other.talkSessions.find? fun s ↦ s.id = sessionId ∧ ActiveMember db s.roomId actorId

/-- Lock a session for its host, or raise before any state is disclosed. -/
def requireHostedSession (access host : Error) (db : Database) (sessionId actorId : UUID) :
    Except Error TalkSession :=
  match lockSession db sessionId actorId with
  | none => .error access
  | some session => do
    require (session.hostId = actorId) host
    .ok session

/-- `UPDATE talk_sessions SET … WHERE id = … AND state = … RETURNING`, for one row. -/
def updateSession (sessionId : UUID) (expected : TalkSessionState) (f : TalkSession → TalkSession)
    (e : Error) (db : Database) : Except Error (TalkSession × Database) := do
  let (row, rows) ←
    updateOne (fun s ↦ s.id = sessionId ∧ s.state = expected) f e db.other.talkSessions
  .ok (row, { db with other := { db.other with talkSessions := rows } })

/-- Record an event in the scope of a session. -/
def recordSession (event : EventIdentity) (actorId : Option UUID) (session : TalkSession)
    (effects : List NotificationEffect) (db : Database) : Except Error Database := do
  let activity ← record ⟨event, actorId, some session.roomId, some session.id⟩ effects
    db.other.activity
  .ok { db with other := { db.other with activity := activity } }

/-! ## Creating -/

def normalizeTopic (value : String) : Except Error String := do
  let normalized := strip value
  require (1 ≤ normalized.length ∧ normalized.length ≤ 500)
    (.collaboration "session topic is invalid")
  .ok normalized

/-- Open a relay session only for the current room host. -/
def createTalkSession (sessionId actorId roomId : UUID) (topic : String) (db : Database) :
    Except Error (TalkSession × Database) := do
  let topic ← normalizeTopic topic
  require (ActiveMember db roomId actorId) (.collaborationAccess "room is unavailable")
  require (∃ m ∈ db.other.sources.roomMemberships,
      m.roomId = roomId ∧ m.userId = actorId ∧ m.left = false ∧ m.host = true)
    (.collaborationHostRequired "room host role is required")
  let session : TalkSession :=
    { id := sessionId
      roomId := roomId
      hostId := actorId
      topic := topic
      state := .open
      generationEpoch := 0
      stateVersion := 0
      retryOrdinal := 0 }
  let sessions ← insertUnique sessionsClash (fun _ ↦ .database "talk_sessions_pkey") session
    db.other.talkSessions
  let db ← recordSession (.sessionCreated sessionId) (some actorId) session []
    { db with other := { db.other with talkSessions := sessions } }
  .ok (session, db)

/-! ## Closing -/

structure CloseExclusionRequest where
  revisionId : UUID
  reason : String
deriving DecidableEq, Repr

structure ClosedSnapshot where
  snapshotId : UUID
  generationEpoch : ℕ
  state : TalkSessionState
  idempotent : Bool
deriving DecidableEq, Repr

/-- The arguments of a close. -/
structure CloseRequest where
  sessionId : UUID
  actorId : UUID
  exclusions : List CloseExclusionRequest
  pipelineVersion : String
  anchorSchemaVersion : Option String
deriving DecidableEq, Repr

/-- The identifiers a close draws. -/
structure CloseDraws where
  snapshotId : UUID
  runId : GenerationKind → UUID
  jobId : GenerationKind → UUID

/-- A current revision of a session with its approved extraction run. -/
structure CurrentRevision where
  revision : SourceRevision
  approvedRun : Option ExtractionRun
deriving DecidableEq, Repr

/-- The approved run of a revision, if the reference is to a run of that revision. -/
def approvedRun (db : Database) (r : SourceRevision) : Option ExtractionRun :=
  r.approvedExtractionRunId.bind fun runId ↦
    db.other.sources.extractionRuns.find? fun x ↦ x.id = runId ∧ x.sourceRevisionId = r.id

/-- Whether a revision is current in a submission of the session that is not deleted. -/
def CurrentIn (db : Database) (sessionId : UUID) (r : SourceRevision) : Prop :=
  r.isCurrent = true ∧ ∃ sub ∈ db.other.sources.submissions,
    sub.id = r.submissionId ∧ sub.sessionId = sessionId ∧ sub.deleted = false

instance (db : Database) (sessionId : UUID) : DecidablePred (CurrentIn db sessionId) :=
  fun r ↦ inferInstanceAs (Decidable (r.isCurrent = true ∧ ∃ sub ∈ db.other.sources.submissions,
    sub.id = r.submissionId ∧ sub.sessionId = sessionId ∧ sub.deleted = false))

/-- The current revisions of a session, by id. -/
def currentRevisions (db : Database) (sessionId : UUID) : List CurrentRevision :=
  ((db.other.sources.sourceRevisions.filter (CurrentIn db sessionId)).insertionSort
    (fun a b ↦ a.id.toNat ≤ b.id.toNat)).map fun r ↦ ⟨r, approvedRun db r⟩

/-- The statuses that the close policy looks at. -/
def revisionStatuses (rows : List CurrentRevision) : Except Error (List RevisionStatus) :=
  rows.mapM fun row ↦ RevisionStatus.new row.revision.id.str row.revision.processingState

/-- The exclusions that the close policy looks at. -/
def domainExclusions (exclusions : List CloseExclusionRequest) :
    Except Error (List CloseExclusion) :=
  exclusions.mapM fun x ↦ CloseExclusion.new x.revisionId.str x.reason

/-- `INSERT INTO snapshot_exclusions`. -/
def insertExclusion (sessionId actorId : UUID) (t : List SnapshotExclusion)
    (x : CloseExclusionRequest) : Except Error (List SnapshotExclusion) := do
  require (1 ≤ x.reason.length ∧ x.reason.length ≤ 1000)
    (.database "snapshot_exclusions_reason_check")
  insertUnique exclusionsClash
    (fun _ ↦ .database "snapshot_exclusions_session_id_source_revision_id_key")
    ⟨sessionId, x.revisionId, x.reason, actorId⟩ t

/-- The included revisions, in the order of the decision. -/
def includedRevisions (rows : List CurrentRevision) (decision : CloseEligibility) :
    List CurrentRevision :=
  decision.includedRevisionIds.filterMap fun id ↦ rows.find? (·.revision.id.str = id)

/-- The approved run that can be pinned. -/
def pinnedRun (row : CurrentRevision) : Option ExtractionRun :=
  row.approvedRun.filter (·.status = .succeeded)

/-- Every run that could be pinned names its anchor schema. -/
def requireAnchorSchemas (rows : List CurrentRevision) : Except Error Unit :=
  require (∀ row ∈ rows, ∀ run ∈ pinnedRun row, ¬Blank run.anchorSchemaVersion)
    (.extractionAnchorSchemaMismatch "approved anchor schema version must be non-empty text")

/-- The one anchor schema of the included revisions. -/
def pinnedAnchorSchema (included : List CurrentRevision) (anchorSchemaVersion : Option String) :
    Except Error String := do
  let missingRuns := sorted
    ((included.filter fun row ↦ pinnedRun row = none).map (·.revision.id.str))
  require (missingRuns = []) (.extractionRunMissing
    ("ready revisions require successful approved extraction runs: " ++ join ", " missingRuns))
  match (included.filterMap fun row ↦ (pinnedRun row).map (·.anchorSchemaVersion)).dedup with
  | [pinned] => do
    require (∀ requested ∈ anchorSchemaVersion, requested = pinned)
      (.extractionAnchorSchemaMismatch
        "requested anchor schema version does not match approved extraction runs")
    .ok pinned
  | _ => .error (.extractionAnchorSchemaMismatch
      "included approved extraction runs must use exactly one anchor schema version")

/-- The revisions a snapshot pins. -/
def snapshotPins (snapshotId : UUID) (included : List CurrentRevision) : List SnapshotRevision :=
  included.filterMap fun row ↦ (pinnedRun row).map fun run ↦ ⟨snapshotId, row.revision.id, run.id⟩

/-- The run that a close queues. -/
def queuedRun (id : UUID) (snapshot : GenerationSnapshot) (kind : GenerationKind) :
    GenerationRun :=
  { id := id
    snapshotId := snapshot.id
    kind := kind
    provider := "mock"
    model := "fixture-v1"
    promptVersion := "phase2-contract-v1"
    pipelineVersion := snapshot.pipelineVersion
    state := .queued
    errorCode := none }

/-- The job that a close queues. -/
def generationJob (id : UUID) (snapshot : GenerationSnapshot) (createdAt : Timestamp)
    (kind : GenerationKind) : Job JobDocument :=
  newJob id (generationKey snapshot.id kind snapshot.pipelineVersion) kind.jobKind
    (some snapshot.id) (.generation snapshot.id kind.jobKind snapshot.pipelineVersion) createdAt

/-- The run and the job of one canonical kind. -/
def insertLane (draws : CloseDraws) (snapshot : GenerationSnapshot) (createdAt : Timestamp)
    (db : Database) (kind : GenerationKind) : Except Error Database := do
  let runs ← insertUnique runsClash (fun _ ↦ .database "generation_runs_key")
    (queuedRun (draws.runId kind) snapshot kind) db.other.generationRuns
  let jobs ← insertJob (generationJob (draws.jobId kind) snapshot createdAt kind) db.jobs
  .ok { db with jobs := jobs, other := { db.other with generationRuns := runs } }

/-- The snapshot, the revisions it pins, and both lanes. -/
def insertGeneration (draws : CloseDraws) (snapshot : GenerationSnapshot)
    (included : List CurrentRevision) (createdAt : Timestamp) (db : Database) :
    Except Error Database := do
  let snapshots ← insertUnique snapshotsClash (fun _ ↦ .database "generation_snapshots_key")
    snapshot db.other.generationSnapshots
  let revisions ← (snapshotPins snapshot.id included).foldlM
    (fun t row ↦ insertUnique snapshotRevisionsClash (fun _ ↦ .database "snapshot_revisions_pkey")
      row t) db.other.snapshotRevisions
  canonicalGenerationKinds.foldlM (insertLane draws snapshot createdAt)
    { db with other := { db.other with
        generationSnapshots := snapshots
        snapshotRevisions := revisions } }

/-- `SET state = 'closed', state_version = state_version + 1`. -/
def closedSession (s : TalkSession) : TalkSession :=
  { s with state := .closed, stateVersion := s.stateVersion + 1 }

/-- `SET state = 'processing', generation_epoch = …, state_version = state_version + 1,
retry_ordinal = 0`. -/
def processingSession (epoch : ℕ) (s : TalkSession) : TalkSession :=
  { s with
    state := .processing
    generationEpoch := epoch
    stateVersion := s.stateVersion + 1
    retryOrdinal := 0 }

/-- The snapshot that a close of the locked session creates. -/
def closeSnapshot (session : TalkSession) (request : CloseRequest) (draws : CloseDraws)
    (anchorSchemaVersion : String) : GenerationSnapshot :=
  { id := draws.snapshotId
    sessionId := session.id
    generationEpoch := session.generationEpoch + 1
    createdBy := request.actorId
    topicCopy := session.topic
    pipelineVersion := request.pipelineVersion
    anchorSchemaVersion := anchorSchemaVersion }

/-- Close the locked session, which is open. -/
def closeOpen (session : TalkSession) (request : CloseRequest) (exclusions : List CloseExclusion)
    (draws : CloseDraws) (createdAt : Timestamp) (db : Database) :
    Except Error (ClosedSnapshot × Database) := do
  let rows := currentRevisions db session.id
  let statuses ← revisionStatuses rows
  let decision ← requireCloseEligibility statuses exclusions
  let excluded ← request.exclusions.foldlM (insertExclusion session.id request.actorId)
    db.other.snapshotExclusions
  let included := includedRevisions rows decision
  requireAnchorSchemas rows
  let schema ← pinnedAnchorSchema included request.anchorSchemaVersion
  let (closed, db) ← updateSession session.id .open closedSession
    (.sessionServiceState "session changed while its parent lock was held")
    { db with other := { db.other with snapshotExclusions := excluded } }
  let db ← recordSession (.session ⟨.closed, by decide⟩ session.id closed.stateVersion)
    (some request.actorId) session [] db
  let db ← insertGeneration draws (closeSnapshot session request draws schema) included createdAt db
  let (processing, db) ← updateSession session.id .closed
    (processingSession (session.generationEpoch + 1))
    (.sessionServiceState "session could not enter processing") db
  let db ← recordSession (.session ⟨.processing, by decide⟩ session.id processing.stateVersion)
    (some request.actorId) session [] db
  .ok (⟨draws.snapshotId, session.generationEpoch + 1, .processing, false⟩, db)

/-- `_existing_snapshot_or_raise`. -/
def existingSnapshotOrRaise (db : Database) (sessionId : UUID) (state : TalkSessionState) :
    Except Error ClosedSnapshot := do
  require (state ∈ [TalkSessionState.closed, .processing, .ready, .needsAttention])
    (.sessionServiceState ("session must be open, got " ++ state.value))
  match latestSnapshot db sessionId with
  | none => .error (.sessionServiceState "closed session has no canonical generation snapshot")
  | some snapshot => .ok ⟨snapshot.id, snapshot.generationEpoch, state, true⟩

/-- The checks a close makes on its own arguments. -/
def requireCloseArguments (request : CloseRequest) : Except Error (List CloseExclusion) := do
  require (¬Blank request.pipelineVersion) (.valueError "pipeline_version must not be blank")
  require (∀ version ∈ request.anchorSchemaVersion, ¬Blank version)
    (.valueError "anchor_schema_version must not be blank")
  domainExclusions request.exclusions

/-- Close exactly one open session or return its canonical snapshot. -/
def close (request : CloseRequest) (draws : CloseDraws) (createdAt : Timestamp) (db : Database) :
    Except Error (ClosedSnapshot × Database) := do
  let exclusions ← requireCloseArguments request
  let session ← requireHostedSession (.sessionAccess "session is unavailable")
    (.sessionHostRequired "only the session host may close") db request.sessionId request.actorId
  if session.state = .open then closeOpen session request exclusions draws createdAt db
  else do
    let existing ← existingSnapshotOrRaise db request.sessionId session.state
    .ok (existing, db)

/-! ## Reopening -/

/-- `SET state = 'open', state_version = state_version + 1`. -/
def reopenedSession (s : TalkSession) : TalkSession :=
  { s with state := .open, stateVersion := s.stateVersion + 1 }

/-- Reopen the locked session, which is not open. -/
def reopenAnalyzed (session : TalkSession) (actorId : UUID) (db : Database) :
    Except Error (TalkSessionState × Database) := do
  require (session.state ∈ [TalkSessionState.ready, .needsAttention]) (.sessionServiceState
    ("talk session must be ready or needs_attention, got " ++ session.state.value))
  let (reopened, db) ← updateSession session.id session.state reopenedSession
    (.sessionServiceState "session changed while its parent lock was held") db
  let db ← recordSession (.session ⟨.reopened, by decide⟩ session.id reopened.stateVersion)
    (some actorId) session [] db
  .ok (.open, db)

/-- Send an already analyzed session back to `open` for more input. -/
def reopen (sessionId actorId : UUID) (db : Database) :
    Except Error (TalkSessionState × Database) := do
  let session ← requireHostedSession (.sessionAccess "session is unavailable")
    (.sessionHostRequired "only the session host may reopen") db sessionId actorId
  if session.state = .open then .ok (.open, db) else reopenAnalyzed session actorId db

/-! ## Retrying -/

structure RetrySessionView where
  snapshotId : UUID
  state : TalkSessionState
  requeuedKinds : List GenerationKind
deriving DecidableEq, Repr

/-- The kinds of the runs that may be retried. -/
def retryableKinds (runs : List GenerationRun) : List GenerationKind :=
  (runs.filter (·.state = .failedRetryable)).map (·.kind)

/-- The failed job of one lane, released by its worker. -/
def RetryableJob (snapshotId : UUID) (kind : GenerationKind) (j : Job JobDocument) : Prop :=
  j.snapshotId = some snapshotId ∧ j.kind = kind.jobKind ∧ j.state = .failedRetryable ∧
    j.leaseToken = none ∧ j.leaseOwner = none ∧ j.leaseUntil = none

instance (snapshotId : UUID) (kind : GenerationKind) : DecidablePred (RetryableJob snapshotId kind) :=
  fun j ↦ inferInstanceAs (Decidable (j.snapshotId = some snapshotId ∧ j.kind = kind.jobKind ∧
    j.state = .failedRetryable ∧ j.leaseToken = none ∧ j.leaseOwner = none ∧ j.leaseUntil = none))

/-- The failed run of one lane. -/
def RetryableRun (snapshotId : UUID) (kind : GenerationKind) (r : GenerationRun) : Prop :=
  r.snapshotId = snapshotId ∧ r.kind = kind ∧ r.state = .failedRetryable

instance (snapshotId : UUID) (kind : GenerationKind) : DecidablePred (RetryableRun snapshotId kind) :=
  fun r ↦ inferInstanceAs
    (Decidable (r.snapshotId = snapshotId ∧ r.kind = kind ∧ r.state = .failedRetryable))

/-- `SET state = 'queued', error_code = NULL`. -/
def requeuedRun (r : GenerationRun) : GenerationRun := { r with state := .queued, errorCode := none }

/-- Requeue the job and the run of one retryable lane. -/
def requeueLane (snapshotId : UUID) (db : Database) (kind : GenerationKind) :
    Except Error Database := do
  require (rowcount (RetryableJob snapshotId kind) db.jobs = 1)
    (.sessionRetryUnavailable "retryable generation job is unavailable")
  require (rowcount (RetryableRun snapshotId kind) db.other.generationRuns = 1)
    (.sessionRetryUnavailable "retryable generation run is unavailable")
  .ok { db with
    jobs := updateWhere (RetryableJob snapshotId kind) requeuedJob db.jobs
    other := { db.other with
      generationRuns := updateWhere (RetryableRun snapshotId kind) requeuedRun
        db.other.generationRuns } }

/-- `SET state = 'processing', state_version = state_version + 1,
retry_ordinal = retry_ordinal + 1`. -/
def retriedSession (s : TalkSession) : TalkSession :=
  { s with
    state := .processing
    stateVersion := s.stateVersion + 1
    retryOrdinal := s.retryOrdinal + 1 }

/-- Requeue the failed lanes of the locked session, which is not processing. -/
def retryFailed (session : TalkSession) (snapshotId actorId : UUID) (db : Database) :
    Except Error (RetrySessionView × Database) := do
  require (session.state = .needsAttention)
    (.sessionRetryUnavailable "session has no retryable generation work")
  let kinds := retryableKinds (runsOf db snapshotId)
  require (kinds ≠ []) (.sessionRetryUnavailable "no retryable generation run exists")
  let db ← kinds.foldlM (requeueLane snapshotId) db
  let (updated, db) ← updateSession session.id .needsAttention retriedSession
    (.sessionRetryUnavailable "session changed while retry was locked") db
  let db ← recordSession
    (.sessionRetryRequested session.id session.generationEpoch updated.retryOrdinal)
    (some actorId) session [] db
  let db ← recordSession (.session ⟨.processing, by decide⟩ session.id updated.stateVersion)
    (some actorId) session [] db
  .ok (⟨snapshotId, .processing, kinds⟩, db)

/-- `_latest_snapshot_id`. -/
def requireLatestSnapshot (db : Database) (sessionId : UUID) :
    Except Error GenerationSnapshot :=
  match latestSnapshot db sessionId with
  | none => .error (.sessionRetryUnavailable "session has no generation snapshot")
  | some snapshot => .ok snapshot

/-- Return a stable processing response or atomically requeue failures. -/
def retry (sessionId actorId : UUID) (db : Database) :
    Except Error (RetrySessionView × Database) := do
  let session ← requireHostedSession (.sessionRetryAccess "session is unavailable")
    (.sessionRetryHostRequired "only the session host may retry") db sessionId actorId
  let snapshot ← requireLatestSnapshot db sessionId
  if session.state = .processing then .ok (⟨snapshot.id, .processing, []⟩, db)
  else retryFailed session snapshot.id actorId db

end MeetingRag
