import MeetingRag.Extraction.Correspondence
import MeetingRag.Ingestion.Canonicalizers

/-!
# Text submissions

`TextSubmissionService`. A text is written with its revision, its run and its anchors in one transaction,
and may be replaced by its author, which adds a revision and supersedes the current one. The service also
deletes submissions of both kinds and lists those of a session. A deletion is a tombstone: the row of the
submission is marked, and its revisions stay.

The two services share their tables. The rows of file submissions are those of the extraction machine, and
what its statements see of the texts is kept in step here. Every identifier is drawn anew.

## Main definitions

* `submitText`, `replaceText`, `deleteSubmission`, `listCurrent`: the operations of the service.
* `submissionMachine`: texts and files under their callers.
-/

open Outcome Table Py Py.Json

namespace MeetingRag

/-! ## Rows -/

/-- The column `kind` of `submissions`. -/
inductive SubmissionKind
  | text
  | file
deriving DecidableEq, Repr

/-- A row of `submissions`. -/
structure StoredSubmission where
  id : UUID
  sessionId : UUID
  authorId : UUID
  kind : SubmissionKind
  title : Str
  /-- Whether `deleted_at` is set. -/
  deleted : Bool
deriving DecidableEq

/-- A row of `source_revisions` of a text. -/
structure TextRevision where
  id : UUID
  submissionId : UUID
  revisionNo : ℕ
  filename : String
  byteSize : ℕ
  sha256 : Str
  sourceText : Str
  processingState : RevisionProcessingState
  approvedExtractionRunId : Option UUID
  isCurrent : Bool
deriving DecidableEq

/-- A row of `extraction_runs` of a text. -/
structure TextRun where
  id : UUID
  sourceRevisionId : UUID
  parser : FileParser
  configHash : Str
  attemptNo : ℕ
  status : ExtractionStatus
deriving DecidableEq

/-- `text_line_anchor_payload`. -/
structure TextLineAnchor where
  sourceSha256 : Str
  extractionProfileHash : Str
  line : ℕ
  stop : ℕ
  textFingerprint : Str
deriving DecidableEq

/-- A row of `source_anchors` of a text. -/
structure TextAnchor where
  extractionRunId : UUID
  sourceRevisionId : UUID
  ordinal : ℕ
  text : Str
  payload : TextLineAnchor
  canonicalHash : Str
deriving DecidableEq

structure TextSubmissionTables where
  submissions : List StoredSubmission
  revisions : List TextRevision
  runs : List TextRun
  anchors : List TextAnchor
deriving DecidableEq

/-- The tables of both services. -/
structure SubmissionDatabase where
  files : FileDatabase
  text : TextSubmissionTables

/-- What the service raises, each with its message. -/
inductive TextSubmissionError
  | invalid (message : String)
  | access (message : String)
  | owner (message : String)
  | state (message : String)
  | limit (message : String)
  | runtime (message : String)
  | database (constraint : String)
  | exc (e : Exc)
deriving DecidableEq

/-! ## Lines -/

/-- A line of a text as an anchor. -/
def TextLineAnchor.toJson (a : TextLineAnchor) : Json :=
  .object (obj [("schema_version", .int 1), ("kind", .str (lit "text_line")),
    ("source_sha256", .str a.sourceSha256), ("extraction_profile_hash", .str a.extractionProfileHash),
    ("locator", .object (obj [("line", .int a.line), ("start", .int 0), ("end", .int a.stop)])),
    ("text_fingerprint", .str a.textFingerprint)])

def inlineTextParser : FileParser := ⟨"inline-text", "1"⟩

/-- The document behind `INLINE_TEXT_EXTRACTION_PROFILE_HASH`. -/
def inlineTextProfile : Json :=
  .object (obj [("anchor_schema_version", .int 1), ("newline_policy", .str (lit "lf")),
    ("parser", .str (lit inlineTextParser.name)),
    ("parser_version", .str (lit inlineTextParser.version)),
    ("unicode_normalization", .str (lit "nfc"))])

/-- An exception that is not caught. -/
def escaping {α : Type} : Except Exc α → Except TextSubmissionError α
  | .ok a => .ok a
  | .error e => .error (.exc e)

section Service

variable (U : Nfc)

/-- `_validated_normalized_text`. -/
def validatedNormalizedText (value : Str) : Except TextSubmissionError Str := do
  require (1 ≤ value.length ∧ value.length ≤ 100000) (.invalid "text submission length is invalid")
  require (0 ∉ value) (.invalid "text submission must not contain NUL")
  let normalized := U.normalizeText value
  require (strip normalized ≠ []) (.invalid "text submission must contain visible text")
  require (Scalar normalized) (.invalid "text submission must be valid UTF-8 text")
  require ((encodeUtf8 normalized).length ≤ 20 * 1024 * 1024)
    (.invalid "text submission is too large")
  .ok normalized

/-- `_validated_title`. -/
def validatedTitle (value : Str) : Except TextSubmissionError Str := do
  let normalized := strip (U.nfc value)
  require (normalized ≠ [] ∧ normalized.length ≤ 500)
    (.invalid "submission title must contain 1 to 500 characters")
  .ok normalized

/-- The lines of a text that are not empty, with their numbers. -/
def textLines (text : Str) : List (Str × ℕ) :=
  ((text.splitOn (codePoint '\n')).zipIdx 1).filter (·.1 ≠ [])

/-- The round of a line, with its ordinal. -/
def lineAnchor (runId revisionId : UUID) (sourceSha256 profileHash : Str) (entry : (Str × ℕ) × ℕ) :
    Except Exc TextAnchor := do
  let fingerprint ← encode entry.1.1
  let payload : TextLineAnchor :=
    ⟨sourceSha256, profileHash, entry.1.2, entry.1.1.length, sha256Hex fingerprint⟩
  let hash ← TextSubmission.canonicalSha256 U payload.toJson
  .ok ⟨runId, revisionId, entry.2, entry.1.1, payload, hash⟩

/-- The identifiers drawn for a revision. -/
structure DrawnIds where
  revisionId : UUID
  runId : UUID

/-- `_insert_ready_text_revision`. The revision becomes ready in the same transaction. -/
def insertReadyTextRevision (submissionId : UUID) (revisionNo : ℕ) (text : Str) (ids : DrawnIds)
    (t : TextSubmissionTables) : Except TextSubmissionError TextSubmissionTables := do
  let source ← escaping (encode text)
  let profileHash ← escaping (TextSubmission.canonicalSha256 U inlineTextProfile)
  let anchors ← escaping ((textLines text).zipIdx.mapM
    (lineAnchor U ids.runId ids.revisionId (sha256Hex source) profileHash))
  require (anchors ≠ []) (.invalid "text submission needs at least one non-empty line")
  .ok { t with
    revisions := t.revisions ++ [⟨ids.revisionId, submissionId, revisionNo,
      "text-submission-" ++ submissionId.str ++ ".txt", source.length, sha256Hex source, text, .ready,
      some ids.runId, true⟩]
    runs := t.runs ++ [⟨ids.runId, ids.revisionId, inlineTextParser, profileHash, 1, .succeeded⟩]
    anchors := t.anchors ++ anchors }

/-! ## Shared tables -/

/-- A revision is the current one of a submission. -/
def TextRevision.CurrentOf (r : TextRevision) (submissionId : UUID) : Prop :=
  r.isCurrent = true ∧ r.submissionId = submissionId

def FileRevision.CurrentOf (r : FileRevision) (submissionId : UUID) : Prop :=
  r.isCurrent = true ∧ r.submissionId = submissionId

instance (r : TextRevision) (submissionId : UUID) : Decidable (r.CurrentOf submissionId) :=
  inferInstanceAs (Decidable (_ ∧ _))

instance (r : FileRevision) (submissionId : UUID) : Decidable (r.CurrentOf submissionId) :=
  inferInstanceAs (Decidable (_ ∧ _))

/-- The sessions of the current revisions of texts. -/
def currentSessions (t : TextSubmissionTables) : List UUID :=
  t.submissions.flatMap fun x ↦ (t.revisions.filter (·.CurrentOf x.id)).map fun _ ↦ x.sessionId

def FileSubmission.row (x : FileSubmission) : StoredSubmission :=
  ⟨x.id, x.sessionId, x.authorId, .file, lit x.title, x.deleted⟩

namespace SubmissionDatabase

/-- The rows of `submissions`. -/
def submissions (db : SubmissionDatabase) : List StoredSubmission :=
  db.text.submissions ++ db.files.other.submissions.map FileSubmission.row

/-- The identifiers of the current revisions of a submission. -/
def currentRevisions (db : SubmissionDatabase) (submissionId : UUID) : List UUID :=
  (db.text.revisions.filter (·.CurrentOf submissionId)).map (·.id) ++
    (db.files.other.revisions.filter (·.CurrentOf submissionId)).map (·.id)

/-- An event is recorded. -/
def record (db : SubmissionDatabase) (event : EventIdentity) (actorId roomId sessionId : UUID) :
    SubmissionDatabase :=
  { db with files := { db.files with other := { db.files.other with
    auditEvents := appendEvent ⟨event, some actorId, some roomId, some sessionId⟩
      db.files.other.auditEvents } } }

/-- The tables of the texts are written, and the other service sees their current revisions. -/
def withText (db : SubmissionDatabase) (t : TextSubmissionTables) : SubmissionDatabase where
  files := { db.files with other := { db.files.other with textRevisions := currentSessions t } }
  text := t

end SubmissionDatabase

/-- A member of the room of a session. -/
def MemberOf (t : FileTables) (actorId : UUID) (s : TalkSession) : Prop :=
  ∃ m ∈ t.roomMemberships, m.roomId = s.roomId ∧ m.userId = actorId ∧ m.left = false

instance (t : FileTables) (actorId : UUID) (s : TalkSession) : Decidable (MemberOf t actorId s) :=
  inferInstanceAs (Decidable (∃ m ∈ t.roomMemberships, _))

/-- The session a member asks for. -/
def memberSession (t : FileTables) (sessionId actorId : UUID) : Option TalkSession :=
  t.talkSessions.find? fun s ↦ s.id = sessionId ∧ MemberOf t actorId s

/-- `_require_open_member_session`. -/
def requireOpenMember (t : FileTables) (sessionId actorId : UUID) :
    Except TextSubmissionError UUID :=
  match memberSession t sessionId actorId with
  | none => .error (.access "talk session is unavailable")
  | some s => do
    require (s.state = .open) (.state "talk session must be open")
    .ok s.roomId

/-- `_locked_member_submission`. -/
def lockedMemberSubmission (db : SubmissionDatabase) (submissionId actorId : UUID) :
    Option (StoredSubmission × TalkSession) := do
  let x ← db.submissions.find? (·.id = submissionId)
  let s ← memberSession db.files.other x.sessionId actorId
  some (x, s)

/-! ## Operations -/

/-- A text to be submitted, and the identifiers drawn for it. -/
structure TextRequest where
  sessionId : UUID
  actorId : UUID
  text : Str
  title : Str
  submissionId : UUID
  ids : DrawnIds

def limitReached : TextSubmissionError := .limit "session current-revision limit reached"

/-- `submit`. -/
def submitText (r : TextRequest) (db : SubmissionDatabase) :
    Except TextSubmissionError SubmissionDatabase := do
  let text ← validatedNormalizedText U r.text
  let title ← validatedTitle U r.title
  let roomId ← requireOpenMember db.files.other r.sessionId r.actorId
  require (¬currentRevisionCount db.files.other r.sessionId ≥ 20) limitReached
  let t ← insertReadyTextRevision U r.submissionId 1 text r.ids { db.text with
    submissions := db.text.submissions ++
      [⟨r.submissionId, r.sessionId, r.actorId, .text, title, false⟩] }
  .ok ((db.withText t).record (.submission ⟨.created, EventIdentity.submissionCreated_mem⟩ r.submissionId 1) r.actorId roomId
    r.sessionId)

/-- A revision that is no longer the current one. -/
def supersededRevision (r : TextRevision) : TextRevision := { r with isCurrent := false }

/-- `MAX(revision_no)`, or 0. -/
def latestRevisionNo (t : TextSubmissionTables) (submissionId : UUID) : ℕ :=
  ((t.revisions.filter (·.submissionId = submissionId)).map (·.revisionNo)).foldr max 0

/-- `replace`. -/
def replaceText (submissionId actorId : UUID) (text : Str) (ids : DrawnIds)
    (db : SubmissionDatabase) : Except TextSubmissionError SubmissionDatabase := do
  let text ← validatedNormalizedText U text
  match lockedMemberSubmission db submissionId actorId with
  | none => .error (.access "submission is unavailable")
  | some (x, s) => do
    require (x.authorId = actorId) (.owner "only the submission author may replace it")
    require (x.kind = .text) (.invalid "only text submissions can be replaced in phase 3")
    require (s.state = .open) (.state "talk session must be open")
    let revisionNo := latestRevisionNo db.text submissionId + 1
    let t ← insertReadyTextRevision U submissionId revisionNo text ids { db.text with
      revisions := updateWhere (·.CurrentOf submissionId) supersededRevision db.text.revisions }
    .ok ((db.withText t).record (.submission ⟨.revised, by decide⟩ submissionId revisionNo) actorId
      s.roomId x.sessionId)

end Service

/-- `SET deleted_at = …`. -/
def tombstone (x : StoredSubmission) : StoredSubmission := { x with deleted := true }

/-- `delete`. -/
def deleteSubmission (submissionId actorId : UUID) (db : SubmissionDatabase) :
    Except TextSubmissionError SubmissionDatabase :=
  match lockedMemberSubmission db submissionId actorId with
  | none => .error (.access "submission is unavailable")
  | some (x, s) => do
    require (x.authorId = actorId) (.owner "only the submission author may delete it")
    if x.deleted then .ok db
    else do
      require (s.state = .open) (.state "talk session must be open")
      .ok (SubmissionDatabase.record
        { files := { db.files with other := { db.files.other with
            submissions := updateWhere (·.id = submissionId) deletedSubmission
              db.files.other.submissions } }
          text := { db.text with
            submissions := updateWhere (·.id = submissionId) tombstone db.text.submissions } }
        (.submissionDeleted submissionId) actorId s.roomId x.sessionId)

/-- The rows of a submission in the list, one for each current revision. A submission without one has a
row of nulls, which is refused. -/
def listRows (db : SubmissionDatabase) (x : StoredSubmission) :
    Except TextSubmissionError (List (StoredSubmission × UUID)) :=
  if db.currentRevisions x.id = [] then
    .error (.runtime "persisted source byte size must be integer")
  else .ok ((db.currentRevisions x.id).map fun revisionId ↦ (x, revisionId))

/-- `list_current`, up to the order of its rows. -/
def listCurrent (sessionId actorId : UUID) (db : SubmissionDatabase) :
    Except TextSubmissionError (List (StoredSubmission × UUID)) := do
  require ((memberSession db.files.other sessionId actorId).isSome)
    (.access "talk session is unavailable")
  let rows ← (db.submissions.filter fun x ↦ x.sessionId = sessionId ∧ x.deleted = false).mapM
    (listRows db)
  .ok rows.flatten

/-! ## Calls -/

/-- A transaction on the submissions. -/
inductive SubmissionCall
  | submitText (request : TextRequest)
  | replaceText (submissionId actorId : UUID) (text : Str) (ids : DrawnIds)
  | delete (submissionId actorId : UUID)
  | file (call : ExtractionCall)

/-- A call together with the database instants it happens at. -/
structure SubmissionInput where
  clock : StatementClock
  call : SubmissionCall

inductive SubmissionReply
  | text (reply : Except TextSubmissionError Unit)
  | file (reply : Except Error ExtractionReply)

/-- The extraction machine, and the tables of the texts. -/
structure SubmissionState where
  files : ExtractionState
  text : TextSubmissionTables

namespace SubmissionState

def database (s : SubmissionState) : SubmissionDatabase := ⟨s.files.db, s.text⟩

/-- The state after a transaction of the text service. -/
def commit (s : SubmissionState) (clock : StatementClock)
    (r : Except TextSubmissionError SubmissionDatabase) : SubmissionReply × SubmissionState :=
  match r with
  | .ok db => (.text (.ok ()), ⟨{ s.files with db := db.files, now := clock.written }, db.text⟩)
  | .error e => (.text (.error e), { s with files := { s.files with now := clock.written } })

/-- The identifiers that a call draws are new. -/
def Draws (s : SubmissionState) (revisionId : UUID) : Prop :=
  revisionId ∉ s.text.revisions.map (·.id) ∧ revisionId ∉ s.files.db.other.revisions.map (·.id)

instance (s : SubmissionState) (revisionId : UUID) : Decidable (s.Draws revisionId) :=
  inferInstanceAs (Decidable (_ ∧ _))

/-- When a call may be made: the identifiers drawn for it are new, and what the rest of the application
does is not the business of the text service. -/
def Admits (s : SubmissionState) : SubmissionCall → Prop
  | .submitText r => r.submissionId ∉ s.database.submissions.map (·.id) ∧ s.Draws r.ids.revisionId
  | .replaceText _ _ _ ids => s.Draws ids.revisionId
  | .delete .. => True
  | .file (.submit upload) =>
    upload.submissionId ∉ s.database.submissions.map (·.id) ∧ s.Draws upload.revisionId
  | .file (.elsewhere writes) => writes.Admissible s.files.db ∧
    writes.textRevisions = s.files.db.other.textRevisions ∧ writes.deleted = []
  | .file call => call.Told s.files

instance (s : SubmissionState) : DecidablePred s.Admits := fun call ↦ by
  unfold Admits
  split <;> infer_instance

end SubmissionState

/-- Submissions under their callers. -/
def submissionMachine (U : Nfc) : Machine SubmissionState SubmissionInput SubmissionReply where
  enabled s i := s.files.now ≤ i.clock.seen ∧ s.Admits i.call
  step s i := match i.call with
    | .submitText request => s.commit i.clock (submitText U request s.database)
    | .replaceText submissionId actorId text ids =>
      s.commit i.clock (replaceText U submissionId actorId text ids s.database)
    | .delete submissionId actorId =>
      s.commit i.clock (deleteSubmission submissionId actorId s.database)
    | .file call =>
      let r := extractionMachine.step s.files ⟨i.clock, call⟩
      (.file r.1, { s with files := r.2 })

instance (U : Nfc) (s : SubmissionState) (i : SubmissionInput) :
    Decidable ((submissionMachine U).enabled s i) :=
  inferInstanceAs (Decidable (s.files.now ≤ i.clock.seen ∧ s.Admits i.call))

/-- The submissions before the first call. -/
def emptySubmissions (now : Timestamp) : SubmissionState := ⟨emptyExtraction now, ⟨[], [], [], []⟩⟩

end MeetingRag
