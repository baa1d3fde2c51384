import MeetingRag.Activity.Service
import MeetingRag.Queue.Repository

/-!
# The session database

The tables that the session lifecycle and the generation of a session's documents read and write,
beside the queue. Columns that no modelled statement reads are left out, and so are row ids that
nothing refers to.

The unique constraints of a table are its `clash` relation: an insert is refused when the new row
clashes with one that is there.
-/

open Table Text

namespace MeetingRag

/-! ## Sources -/

/-- A row of `room_memberships`; `left` is whether `left_at` is set. -/
structure RoomMembership where
  roomId : UUID
  userId : UUID
  host : Bool
  left : Bool
deriving DecidableEq, Repr

/-- A row of `submissions`; `deleted` is whether `deleted_at` is set. -/
structure Submission where
  id : UUID
  sessionId : UUID
  deleted : Bool
deriving DecidableEq, Repr

/-- A row of `source_revisions`. -/
structure SourceRevision where
  id : UUID
  submissionId : UUID
  processingState : RevisionProcessingState
  approvedExtractionRunId : Option UUID
  isCurrent : Bool
deriving DecidableEq, Repr

inductive ExtractionStatus
  | queued | running | succeeded | failed
deriving DecidableEq, Repr

/-- A row of `extraction_runs`. -/
structure ExtractionRun where
  id : UUID
  sourceRevisionId : UUID
  anchorSchemaVersion : String
  status : ExtractionStatus
deriving DecidableEq, Repr

/-- The tables that members and extraction workers write. -/
structure SourceTables where
  roomMemberships : List RoomMembership
  submissions : List Submission
  sourceRevisions : List SourceRevision
  extractionRuns : List ExtractionRun
deriving DecidableEq

/-! ## Sessions and generations -/

/-- A row of `talk_sessions`. -/
structure TalkSession where
  id : UUID
  roomId : UUID
  hostId : UUID
  topic : String
  state : TalkSessionState
  generationEpoch : ℕ
  stateVersion : ℕ
  retryOrdinal : ℕ
deriving DecidableEq, Repr

/-- A row of `snapshot_exclusions`. -/
structure SnapshotExclusion where
  sessionId : UUID
  sourceRevisionId : UUID
  reason : String
  actorId : UUID
deriving DecidableEq, Repr

/-- A row of `generation_snapshots`. -/
structure GenerationSnapshot where
  id : UUID
  sessionId : UUID
  generationEpoch : ℕ
  createdBy : UUID
  topicCopy : String
  pipelineVersion : String
  anchorSchemaVersion : String
deriving DecidableEq, Repr

/-- A row of `snapshot_revisions`. -/
structure SnapshotRevision where
  snapshotId : UUID
  sourceRevisionId : UUID
  extractionRunId : UUID
deriving DecidableEq, Repr

/-- A row of `generation_runs`. -/
structure GenerationRun where
  id : UUID
  snapshotId : UUID
  kind : GenerationKind
  provider : String
  model : String
  promptVersion : String
  pipelineVersion : String
  state : GenerationRunState
  errorCode : Option String
deriving DecidableEq, Repr

/-! ## Artifacts -/

/-- A row of `generated_documents`, its content in canonical form. -/
structure GeneratedDocument where
  id : UUID
  runId : UUID
  kind : GenerationKind
  structuredContent : String
deriving DecidableEq, Repr

/-- A row of `report_suggestions` that a comparison created. -/
structure ReportSuggestion where
  id : UUID
  sessionId : UUID
  authorId : UUID
  snapshotId : UUID
  comparisonKey : String
  suggestedText : String
  rationale : String
deriving DecidableEq, Repr

/-- An entry of `blocks_json`: its `"id"`, `"type"` and `"text"`, with `"tag"` and `"level"` where
they are there. -/
structure PersistedBlock where
  id : String
  type : String
  text : String
  tag : Option String
  level : Option ℤ
deriving DecidableEq, Repr

/-- A row of `merged_document_states`. -/
structure MergedDocumentState where
  sessionId : UUID
  snapshotId : UUID
  version : ℕ
  blocks : List PersistedBlock
  updatedBy : UUID
deriving DecidableEq, Repr

/-! ## The database -/

/-- The tables beside the queue. -/
structure Tables where
  sources : SourceTables
  talkSessions : List TalkSession
  snapshotExclusions : List SnapshotExclusion
  generationSnapshots : List GenerationSnapshot
  snapshotRevisions : List SnapshotRevision
  generationRuns : List GenerationRun
  generatedDocuments : List GeneratedDocument
  reportSuggestions : List ReportSuggestion
  mergedDocumentStates : List MergedDocumentState
  activity : ActivityTables
deriving DecidableEq

/-- The documents of the queue: job payloads, then job results. -/
inductive JobDocument
  /-- `{"snapshot_id", "kind", "pipeline_version"}`. -/
  | generation (snapshotId : UUID) (kind : JobKind) (pipelineVersion : String)
  /-- `{"revision_id", …}`. -/
  | extraction (revisionId : UUID)
  /-- `{"snapshot_id", "kind", "status", …}`. -/
  | laneResult (snapshotId : UUID) (kind : GenerationKind) (status : JobState)
      (errorCode : Option String)
  /-- `{"snapshot_id", "status", "suggestion_count"}`. -/
  | suggestionResult (snapshotId : UUID) (suggestionCount : ℕ)
  /-- `{"outcome": "failed", "error_code"}`. -/
  | failure (errorCode : String)
deriving DecidableEq, Repr

/-- All of them are finite JSON. -/
instance : JsonDocument JobDocument := ⟨fun _ ↦ true⟩

abbrev Database := Store JobDocument Tables

/-- An empty database. -/
def emptyTables : Tables :=
  { sources := ⟨[], [], [], []⟩
    talkSessions := []
    snapshotExclusions := []
    generationSnapshots := []
    snapshotRevisions := []
    generationRuns := []
    generatedDocuments := []
    reportSuggestions := []
    mergedDocumentStates := []
    activity := ⟨[], [], [], []⟩ }

/-- The job kind of a lane. -/
def GenerationKind.jobKind : GenerationKind → JobKind
  | .summary => .summary
  | .research => .research

/-! ## Constraints -/

def sessionsClash (a b : TalkSession) : Prop := a.id = b.id

def exclusionsClash (a b : SnapshotExclusion) : Prop :=
  a.sessionId = b.sessionId ∧ a.sourceRevisionId = b.sourceRevisionId

def snapshotsClash (a b : GenerationSnapshot) : Prop :=
  a.id = b.id ∨ (a.sessionId = b.sessionId ∧ a.generationEpoch = b.generationEpoch)

def snapshotRevisionsClash (a b : SnapshotRevision) : Prop :=
  a.snapshotId = b.snapshotId ∧ a.sourceRevisionId = b.sourceRevisionId

def runsClash (a b : GenerationRun) : Prop :=
  a.id = b.id ∨
    (a.snapshotId = b.snapshotId ∧ a.kind = b.kind ∧ a.pipelineVersion = b.pipelineVersion)

def documentsClash (a b : GeneratedDocument) : Prop := a.id = b.id ∨ a.runId = b.runId

instance : DecidableRel sessionsClash := fun a b ↦ inferInstanceAs (Decidable (a.id = b.id))

instance : DecidableRel exclusionsClash := fun a b ↦ inferInstanceAs
  (Decidable (a.sessionId = b.sessionId ∧ a.sourceRevisionId = b.sourceRevisionId))

instance : DecidableRel snapshotsClash := fun a b ↦ inferInstanceAs (Decidable
  (a.id = b.id ∨ (a.sessionId = b.sessionId ∧ a.generationEpoch = b.generationEpoch)))

instance : DecidableRel snapshotRevisionsClash := fun a b ↦ inferInstanceAs
  (Decidable (a.snapshotId = b.snapshotId ∧ a.sourceRevisionId = b.sourceRevisionId))

instance : DecidableRel runsClash := fun a b ↦ inferInstanceAs (Decidable (a.id = b.id ∨
  (a.snapshotId = b.snapshotId ∧ a.kind = b.kind ∧ a.pipelineVersion = b.pipelineVersion)))

instance : DecidableRel documentsClash :=
  fun a b ↦ inferInstanceAs (Decidable (a.id = b.id ∨ a.runId = b.runId))

/-! ## Reading -/

/-- Whether a user is a member of a room who has not left. -/
def ActiveMember (db : Database) (roomId userId : UUID) : Prop :=
  ∃ m ∈ db.other.sources.roomMemberships, m.roomId = roomId ∧ m.userId = userId ∧ m.left = false

instance (db : Database) (roomId userId : UUID) : Decidable (ActiveMember db roomId userId) :=
  inferInstanceAs (Decidable (∃ m ∈ db.other.sources.roomMemberships,
    m.roomId = roomId ∧ m.userId = userId ∧ m.left = false))

/-- The snapshot of the highest epoch of a session. -/
def latestSnapshot (db : Database) (sessionId : UUID) : Option GenerationSnapshot :=
  selectLast (·.generationEpoch) (fun p ↦ decide (p.sessionId = sessionId))
    db.other.generationSnapshots

/-- The runs of a snapshot. -/
def runsOf (db : Database) (snapshotId : UUID) : List GenerationRun :=
  db.other.generationRuns.filter (·.snapshotId = snapshotId)

/-- The logical key of a canonical generation job. -/
def generationKey (snapshotId : UUID) (kind : GenerationKind) (pipelineVersion : String) : String :=
  "generation:" ++ snapshotId.str ++ ":" ++ kind.value ++ ":" ++ pipelineVersion

/-- The logical key of the report job of a snapshot. -/
def reportKey (snapshotId : UUID) (pipelineVersion : String) : String :=
  "report-suggestions:" ++ snapshotId.str ++ ":" ++ pipelineVersion

/-- The logical key of an extraction job. -/
def extractionKey (revisionId : UUID) : String := "extraction:" ++ revisionId.str

/-- The key of a lane names its snapshot and its kind. -/
theorem generationKey_injective {a b : UUID} {kind kind' : GenerationKind} {v v' : String}
    (h : generationKey a kind v = generationKey b kind' v') : a = b ∧ kind = kind' := by
  have hlength := (UUID.length_str a).trans (UUID.length_str b).symm
  suffices hparts : a.str = b.str ∧ kind = kind' from ⟨UUID.str_injective hparts.1, hparts.2⟩
  unfold generationKey at h
  generalize a.str = x, b.str = y at h hlength ⊢
  have hchars := congrArg String.toList h
  simp only [String.append_assoc, String.toList_append] at hchars
  -- Both identifiers have 36 characters.
  obtain ⟨hid, hrest⟩ := List.append_inj (List.append_cancel_left hchars) hlength
  refine ⟨String.toList_inj.mp hid, ?_⟩
  have hkind := List.append_cancel_left hrest
  cases kind <;> cases kind' <;>
    first
    | rfl
    | exact absurd (congrArg List.head? hkind) (by simp [GenerationKind.value])

/-- The key of a report names its snapshot. -/
theorem reportKey_injective {a b : UUID} {v v' : String} (h : reportKey a v = reportKey b v') :
    a = b := by
  have hlength := (UUID.length_str a).trans (UUID.length_str b).symm
  suffices hstr : a.str = b.str from UUID.str_injective hstr
  unfold reportKey at h
  generalize a.str = x, b.str = y at h hlength ⊢
  have hchars := congrArg String.toList h
  simp only [String.append_assoc, String.toList_append] at hchars
  exact String.toList_inj.mp (List.append_inj (List.append_cancel_left hchars) hlength).1

theorem generationKey_ne_extractionKey {a b : UUID} {kind : GenerationKind} {v : String} :
    generationKey a kind v ≠ extractionKey b := by
  unfold generationKey extractionKey
  generalize a.str = x, b.str = y
  simp only [String.append_assoc]
  exact append_ne_append (c := 'g') (d := 'e') rfl rfl (by decide)

theorem generationKey_ne_reportKey {a b : UUID} {kind : GenerationKind} {v v' : String} :
    generationKey a kind v ≠ reportKey b v' := by
  unfold generationKey reportKey
  generalize a.str = x, b.str = y
  simp only [String.append_assoc]
  exact append_ne_append (c := 'g') (d := 'r') rfl rfl (by decide)

theorem extractionKey_ne_reportKey {a b : UUID} {v : String} : extractionKey a ≠ reportKey b v := by
  unfold extractionKey reportKey
  generalize a.str = x, b.str = y
  simp only [String.append_assoc]
  exact append_ne_append (c := 'e') (d := 'r') rfl rfl (by decide)

end MeetingRag
