import MeetingRag.Extraction.Worker

/-!
# Uploading a file and retrying its extraction

An upload creates a submission, its one revision and the extraction job of the revision in one
transaction. A member may retry an extraction that has failed for good, which puts the job and the
revision back together.

A retry reads the revision without a lock and then waits for the row of the job, so other transactions
may commit in between: `beginRetry` is what it reads, `commitRetry` the rest.
-/

open Outcome Table Text

namespace MeetingRag

/-! ## Submitting -/

/-- An upload whose bytes are stored: its checked metadata, and the identifiers drawn for it. -/
structure FileUpload where
  sessionId : UUID
  actorId : UUID
  filename : String
  title : String
  fileType : {t : FileType // t ∈ fileTypes}
  byteSize : ℕ
  sha256 : String
  submissionId : UUID
  revisionId : UUID
  jobId : UUID

/-- `_require_open_member_session`: the room of the session. -/
def requireOpenMemberSession (t : FileTables) (sessionId actorId : UUID) : Except Error UUID :=
  match t.talkSessions.find? fun s ↦ s.id = sessionId ∧
      ∃ m ∈ t.roomMemberships, m.roomId = s.roomId ∧ m.userId = actorId ∧ m.left = false with
  | none => .error (.fileSubmissionAccess "talk session is unavailable")
  | some s => do
    require (s.state = .open) (.fileSubmissionState "talk session must be open")
    .ok s.roomId

/-- `_current_revision_count`. -/
def currentRevisionCount (t : FileTables) (sessionId : UUID) : ℕ :=
  t.textRevisions.countP (· = sessionId) +
    t.revisions.countP fun r ↦ r.isCurrent = true ∧
      ∃ x ∈ t.submissions, x.id = r.submissionId ∧ x.sessionId = sessionId

/-- The key a stored blob gets, `f"{revision_id.hex}.blob"`. -/
def blobKey (revisionId : UUID) : String :=
  String.ofList (revisionId.str.toList.filter (· ≠ '-')) ++ ".blob"

def FileUpload.submission (u : FileUpload) (roomId : UUID) : FileSubmission :=
  ⟨u.submissionId, u.sessionId, roomId, u.actorId, u.title, false⟩

def FileUpload.revision (u : FileUpload) : FileRevision where
  id := u.revisionId
  submissionId := u.submissionId
  filename := u.filename
  mimeType := u.fileType.1.mediaType
  byteSize := u.byteSize
  sha256 := u.sha256
  storageKey := some (blobKey u.revisionId)
  processingState := .queued
  approvedExtractionRunId := none
  isCurrent := true

/-- `FileSubmissionService.submit`, once the upload is stored. -/
def submitFile (u : FileUpload) (clock : StatementClock) (db : FileDatabase) :
    Except Error (Unit × FileDatabase) := do
  let t := db.other
  let roomId ← requireOpenMemberSession t u.sessionId u.actorId
  require (¬currentRevisionCount t u.sessionId ≥ 20)
    (.fileSubmissionLimit "current revision limit reached")
  let submissions ← insertUnique fileSubmissionsClash (fun _ ↦ .database "submissions_pkey")
    (u.submission roomId) t.submissions
  let revisions ← insertUnique fileRevisionsClash (fun _ ↦ .database "source_revisions_key")
    u.revision t.revisions
  let (_, db) ← enqueue u.jobId (extractionKey u.revisionId) JobKind.extraction.value
    (.job u.revisionId u.fileType.1.mediaType u.fileType.1.parser) none clock
    { db with other := { t with submissions := submissions, revisions := revisions } }
  .ok ((), { db with other := { db.other with
    auditEvents := appendEvent ⟨.submission ⟨.created, by decide⟩ u.submissionId 1, some u.actorId,
      some roomId, some u.sessionId⟩ db.other.auditEvents } })

/-! ## Retrying -/

/-- A retry that has found its revision failed. -/
structure PendingRetry where
  revisionId : UUID
  actorId : UUID
  roomId : UUID
  sessionId : UUID
deriving DecidableEq, Repr

/-- The revision a member may retry, and its submission. -/
def retryTarget (t : FileTables) (revisionId actorId : UUID) :
    Option (FileRevision × FileSubmission) := do
  let revision ← t.revisions.find? (·.id = revisionId)
  let submission ← t.submissions.find? fun x ↦ x.id = revision.submissionId ∧ x.deleted = false ∧
    ∃ m ∈ t.roomMemberships, m.roomId = x.roomId ∧ m.userId = actorId ∧ m.left = false
  some (revision, submission)

/-- `retry_extraction`, its `SELECT` and the check on it. -/
def beginRetry (revisionId actorId : UUID) (db : FileDatabase) : Except Error PendingRetry :=
  match retryTarget db.other revisionId actorId with
  | none => .error (.fileSubmissionAccess "source revision is unavailable")
  | some (revision, submission) => do
    require (revision.processingState = .failed)
      (.fileSubmissionState "only a failed revision can be retried")
    .ok ⟨revisionId, actorId, submission.roomId, submission.sessionId⟩

/-- The job a retry puts back. -/
def TerminalExtraction (revisionId : UUID) (j : Job ExtractionDocument) : Prop :=
  j.logicalKey = extractionKey revisionId ∧ j.state = .failedTerminal

instance (revisionId : UUID) : DecidablePred (TerminalExtraction revisionId) := fun j ↦
  inferInstanceAs (Decidable
    (j.logicalKey = extractionKey revisionId ∧ j.state = .failedTerminal))

def requeuedRevision (r : FileRevision) : FileRevision := { r with processingState := .queued }

/-- `retry_extraction`, its two updates and the event. -/
def commitRetry (pending : PendingRetry) (retryNonce : UUID) (db : FileDatabase) :
    Except Error (Unit × FileDatabase) := do
  require (rowcount (TerminalExtraction pending.revisionId) db.jobs ≠ 0)
    (.fileSubmissionState "extraction job is not retryable")
  .ok ((), { db with
    jobs := updateWhere (TerminalExtraction pending.revisionId) requeuedJob db.jobs
    other := { db.other with
      revisions := updateWhere (·.id = pending.revisionId) requeuedRevision db.other.revisions
      auditEvents := appendEvent ⟨.revisionRetryRequested pending.revisionId retryNonce,
        some pending.actorId, some pending.roomId, some pending.sessionId⟩
        db.other.auditEvents } })

end MeetingRag
