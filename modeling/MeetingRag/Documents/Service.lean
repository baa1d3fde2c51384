import MeetingRag.Documents.Blocks
import MeetingRag.Generation.Suggestions

/-!
# The merged document

The document a member sees starts as a derivation of the generated summary. The first edit that is
saved becomes the row of its session and snapshot, and every later one replaces the row if it
carries the version it is based on.

A save locks the row with `SELECT … FOR UPDATE`, so from there to its commit no other writer gets in
between and the rest of the save is one step. Where there is no row yet, there is nothing to lock:
what others commit between the `SELECT` and the `INSERT` comes in between. `beginSave` is the save
up to that point and `insertSave` its end, and `save` is the two without anybody in between.

The queries on tables that the database leaves out (segments and citations, anchors and titles) are
`MergedDocumentReads`.
-/

open Outcome Table Text

namespace MeetingRag

/-- What a member reads: the document, its version and the snapshot it belongs to. -/
structure MergedDocumentView where
  sessionId : UUID
  snapshotId : UUID
  version : ℕ
  blocks : List MergedDocumentBlock
deriving DecidableEq, Repr

/-! ## The report of a session -/

/-- A snapshot whose two documents are there. -/
structure IntegratedReportIdentity where
  snapshotId : UUID
deriving DecidableEq, Repr

/-- The documents of the succeeded runs of a snapshot, under the pipeline version it was made with. -/
def reportDocuments (db : Database) (p : GenerationSnapshot) : List GeneratedDocument :=
  (db.other.generationRuns.filter fun run ↦ run.snapshotId = p.id ∧ run.state = .succeeded ∧
    run.pipelineVersion = p.pipelineVersion).flatMap fun run ↦
      db.other.generatedDocuments.filter (·.runId = run.id)

/-- `HAVING count(*) = 2 AND count(DISTINCT document.kind) = 2`. -/
def HasReport (db : Database) (p : GenerationSnapshot) : Prop :=
  (reportDocuments db p).length = 2 ∧ ((reportDocuments db p).map (·.kind)).dedup.length = 2

instance (db : Database) : DecidablePred (HasReport db) := fun p ↦ inferInstanceAs (Decidable
  ((reportDocuments db p).length = 2 ∧ ((reportDocuments db p).map (·.kind)).dedup.length = 2))

/-- `load_report_identity`: the latest generation of a session that has its report. -/
def loadReportIdentity (db : Database) (sessionId : UUID) : Option IntegratedReportIdentity :=
  (selectLast (·.generationEpoch) (fun p ↦ decide (p.sessionId = sessionId ∧ HasReport db p))
    db.other.generationSnapshots).map fun p ↦ ⟨p.id⟩

/-- A persisted document of the current generation. -/
structure MemberGenerationDocument where
  sessionId : UUID
  snapshotId : UUID
  documentId : UUID
  kind : GenerationKind
  structuredContent : String
deriving DecidableEq, Repr

/-- The rows of the query of `_member_document`. -/
def memberDocuments (db : Database) (sessionId actorId : UUID) (kind : GenerationKind) :
    List MemberGenerationDocument :=
  (db.other.talkSessions.filter fun s ↦ s.id = sessionId ∧ ActiveMember db s.roomId actorId).flatMap
    fun s ↦ (db.other.generationSnapshots.filter fun p ↦
        p.sessionId = s.id ∧ p.generationEpoch = s.generationEpoch).flatMap
      fun p ↦ (db.other.generationRuns.filter fun run ↦
          run.snapshotId = p.id ∧ run.kind = kind ∧ run.state = .succeeded).flatMap
        fun run ↦ (db.other.generatedDocuments.filter (·.runId = run.id)).map
          fun d ↦ ⟨s.id, p.id, d.id, d.kind, d.structuredContent⟩

/-- `_member_document`. -/
def memberDocument (db : Database) (sessionId actorId : UUID) (kind : GenerationKind) :
    Except Error MemberGenerationDocument :=
  match (memberDocuments db sessionId actorId kind).head? with
  | some document => .ok document
  | none => .error (.generationDocumentUnavailable "generated document is unavailable")

/-! ## Reading -/

/-- The reads of a member that go to other tables. -/
structure MergedDocumentReads where
  /-- `_summary_content_with_citation_ids`: the sections of a stored summary. -/
  sections : MemberGenerationDocument → Except Error (List SummarySection)
  /-- `_resolve_anchor_titles`. -/
  anchorTitles : List String → List (String × String)
  /-- `_load_snapshot_documents`. -/
  snapshotDocuments : UUID → List SnapshotDocument

/-- `_require_member`, with the room of the session. -/
def requireDocumentMember (db : Database) (sessionId actorId : UUID) : Except Error UUID :=
  match db.other.talkSessions.find? fun s ↦ s.id = sessionId ∧ ActiveMember db s.roomId actorId with
  | some s => .ok s.roomId
  | none => .error (.mergedDocumentAccess "talk session is unavailable")

/-- The report of a session, which has to be there. -/
def requireReport (db : Database) (sessionId : UUID) : Except Error IntegratedReportIdentity :=
  match loadReportIdentity db sessionId with
  | some identity => .ok identity
  | none => .error (.mergedDocumentAccess "integrated report is unavailable")

/-- The row of a session and a snapshot. -/
def documentRow (db : Database) (sessionId snapshotId : UUID) : Option MergedDocumentState :=
  db.other.mergedDocumentStates.find? fun row ↦
    row.sessionId = sessionId ∧ row.snapshotId = snapshotId

/-- `value.startswith(prefix)`. -/
def StartsWith (start value : String) : Prop := start.toList <+: value.toList

instance (start value : String) : Decidable (StartsWith start value) :=
  inferInstanceAs (Decidable (start.toList <+: value.toList))

/-- A document that the provider wrote, without the heading of the source section. -/
def LacksCoverage (blocks : List MergedDocumentBlock) : Prop :=
  (∃ block ∈ blocks, StartsWith "ai-" block.id) ∧
    ¬∃ block ∈ blocks, block.id = "source-coverage-heading"

instance : DecidablePred LacksCoverage := fun blocks ↦ inferInstanceAs (Decidable
  ((∃ block ∈ blocks, StartsWith "ai-" block.id) ∧
    ¬∃ block ∈ blocks, block.id = "source-coverage-heading"))

/-- The blocks of a row as a member reads them, the sources appended where they are missing. -/
def readBlocks (reads : MergedDocumentReads) (snapshotId : UUID) (row : MergedDocumentState) :
    Except Error (List MergedDocumentBlock) := do
  let blocks ← blocksFromJson row.blocks
  if LacksCoverage blocks then do
    let coverage ← blocksFromJson (buildSourceCoverageBlocks (reads.snapshotDocuments snapshotId))
    require (¬blocks.length + coverage.length > maxMergedDocumentBlocks)
      (.valueError "complete merged document exceeds editor block limit")
    .ok (blocks ++ coverage)
  else .ok blocks

/-- The blocks of a session without a row. -/
def readBaseline (reads : MergedDocumentReads) (db : Database) (sessionId actorId : UUID) :
    Except Error (List MergedDocumentBlock) := do
  let document ← memberDocument db sessionId actorId .summary
  let sections ← reads.sections document
  baselineBlocks sections (reads.anchorTitles (anchorIdsIn sections))

/-- `MergedDocumentService.get`. -/
def getMergedDocument (reads : MergedDocumentReads) (sessionId actorId : UUID) (db : Database) :
    Except Error MergedDocumentView := do
  let _ ← requireDocumentMember db sessionId actorId
  let identity ← requireReport db sessionId
  match documentRow db sessionId identity.snapshotId with
  | some row => do
    let blocks ← readBlocks reads identity.snapshotId row
    .ok ⟨sessionId, identity.snapshotId, row.version, blocks⟩
  | none => do
    let blocks ← readBaseline reads db sessionId actorId
    .ok ⟨sessionId, identity.snapshotId, 0, blocks⟩

/-! ## Saving -/

/-- The arguments of a save. -/
structure SaveRequest where
  sessionId : UUID
  actorId : UUID
  expectedVersion : ℤ
  blocks : List MergedDocumentBlock
deriving DecidableEq, Repr

/-- A save that found no row, as it expected, and is about to insert one. -/
structure PendingInsert where
  request : SaveRequest
  roomId : UUID
  snapshotId : UUID
  first : request.expectedVersion = 0
deriving DecidableEq, Repr

/-- How far a save gets with its `SELECT … FOR UPDATE`. -/
inductive SaveProgress
  | saved (view : MergedDocumentView)
  | inserting (pending : PendingInsert)
deriving DecidableEq, Repr

/-- The database with other rows of `merged_document_states`. -/
def withDocuments (rows : List MergedDocumentState) (db : Database) : Database :=
  { db with other := { db.other with mergedDocumentStates := rows } }

/-- The event of a saved version. -/
def recordSaved (request : SaveRequest) (roomId snapshotId : UUID) (version : ℕ) (db : Database) :
    Except Error Database := do
  let activity ← record ⟨.mergedDocumentSaved request.sessionId snapshotId version,
    some request.actorId, some roomId, some request.sessionId⟩ [] db.other.activity
  .ok { db with other := { db.other with activity := activity } }

/-- `SET version = version + 1, blocks_json = …, updated_by = …`. -/
def savedRow (request : SaveRequest) (row : MergedDocumentState) : MergedDocumentState :=
  { row with
    version := row.version + 1
    blocks := blocksToJson request.blocks
    updatedBy := request.actorId }

/-- Replace the locked row. -/
def updateSave (request : SaveRequest) (roomId : UUID) (row : MergedDocumentState)
    (db : Database) : Except Error (MergedDocumentView × Database) := do
  require ((row.version : ℤ) = request.expectedVersion)
    (.mergedDocumentStaleVersion "stale merged document version")
  let rows := updateWhere
    (fun r ↦ r.sessionId = request.sessionId ∧ r.snapshotId = row.snapshotId)
    (savedRow request) db.other.mergedDocumentStates
  let db ← recordSaved request roomId row.snapshotId (row.version + 1) (withDocuments rows db)
  .ok (⟨request.sessionId, row.snapshotId, row.version + 1, request.blocks⟩, db)

/-- What a save asks for before it looks at the row: the room and the snapshot it is about. -/
def locateSave (request : SaveRequest) (db : Database) : Except Error (UUID × UUID) := do
  require (request.blocks ≠ []) (.valueError "merged document requires at least one block")
  require (¬request.expectedVersion < 0) (.valueError "expected_version must not be negative")
  let roomId ← requireDocumentMember db request.sessionId request.actorId
  let identity ← requireReport db request.sessionId
  .ok (roomId, identity.snapshotId)

/-- `SELECT version … FOR UPDATE`, and the `UPDATE` where there is a row. -/
def lockSave (request : SaveRequest) (roomId snapshotId : UUID) (db : Database) :
    Except Error (SaveProgress × Database) :=
  match documentRow db request.sessionId snapshotId with
  | none =>
    if first : request.expectedVersion = 0 then
      .ok (.inserting ⟨request, roomId, snapshotId, first⟩, db)
    else .error (.mergedDocumentStaleVersion "stale merged document version")
  | some row => do
    let (view, db) ← updateSave request roomId row db
    .ok (.saved view, db)

/-- `MergedDocumentService.save` up to the `INSERT`, if it comes to one. -/
def beginSave (request : SaveRequest) (db : Database) : Except Error (SaveProgress × Database) := do
  let (roomId, snapshotId) ← locateSave request db
  lockSave request roomId snapshotId db

/-- The row a first save inserts. -/
def PendingInsert.row (pending : PendingInsert) : MergedDocumentState :=
  ⟨pending.request.sessionId, pending.snapshotId, 1, blocksToJson pending.request.blocks,
    pending.request.actorId⟩

/-- The `INSERT` of a save that found no row. -/
def insertSave (pending : PendingInsert) (db : Database) :
    Except Error (MergedDocumentView × Database) := do
  let rows ← insertUnique mergedDocumentsClash
    (fun _ ↦ .database "merged_document_states_session_id_snapshot_id_key") pending.row
    db.other.mergedDocumentStates
  let db ← recordSaved pending.request pending.roomId pending.snapshotId 1 (withDocuments rows db)
  .ok (⟨pending.request.sessionId, pending.snapshotId, 1, pending.request.blocks⟩, db)

/-- `MergedDocumentService.save`, with nobody in between. -/
def saveMergedDocument (request : SaveRequest) (db : Database) :
    Except Error (MergedDocumentView × Database) := do
  let (progress, db) ← beginSave request db
  match progress with
  | .saved view => .ok (view, db)
  | .inserting pending => insertSave pending db

end MeetingRag
