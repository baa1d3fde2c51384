import MeetingRag.Documents.Service
import MeetingRag.Generation.Contents

/-!
# What a member reads of a room

Nine queries reach the rows of a room, each by its own joins: the citation resolver from a citation, a
revision, an anchor or an evidence, the merged document and its versions from the session, the
suggestions and the summary from the session as well.

A join on a primary key selects at most one row, so a chain of such joins that no column is taken from
is the condition that the chain is there.
-/

open Outcome Py Py.Json Table Text

namespace MeetingRag

/-! ## Rows -/

structure SubmissionRow where
  id : UUID
  sessionId : UUID
  title : String
deriving DecidableEq, Repr

structure RevisionRow where
  id : UUID
  submissionId : UUID
  filename : Option String
deriving DecidableEq, Repr

/-- A row of `source_anchors`. -/
structure AnchorRow where
  id : UUID
  sourceRevisionId : UUID
  extractionRunId : UUID
  ordinal : ℕ
  text : String
  anchorJson : Json
  ragEligible : Bool

/-- A row of `generated_documents`, and its content. -/
structure DocumentRow where
  row : GeneratedDocument
  content : Fields

/-- A row of `web_evidence`. -/
structure EvidenceRow where
  id : UUID
  url : Str
  title : Str
  domain : Str
  accessedAt : Timestamp
  snippetHash : Str
deriving DecidableEq

/-- `MergedDocumentVersionSnapshot`, its blocks as they are stored. -/
structure VersionRow where
  id : UUID
  sessionId : UUID
  snapshotId : UUID
  label : String
  blocks : List PersistedBlock
  documentVersion : ℕ
  createdBy : UUID
  createdAt : Timestamp
deriving DecidableEq, Repr

/-- `ReportSuggestion` -/
structure SuggestionRow where
  id : UUID
  sessionId : UUID
  authorId : UUID
  sourceAnchorId : Option UUID
  targetBlockId : Option String
  snapshotId : UUID
  reportContentHash : String
  kind : String
  origin : String
  suggestedText : String
  rationale : String
  status : String
  resolvedBy : Option UUID
  createdAt : Timestamp
  resolvedAt : Option Timestamp
deriving DecidableEq, Repr

/-- The tables that the queries read. -/
structure RoomRows where
  roomMemberships : List RoomMembership
  talkSessions : List TalkSession
  submissions : List SubmissionRow
  sourceRevisions : List RevisionRow
  sourceAnchors : List AnchorRow
  generationSnapshots : List GenerationSnapshot
  snapshotRevisions : List SnapshotRevision
  generationRuns : List GenerationRun
  generatedDocuments : List DocumentRow
  generatedSegments : List GeneratedSegment
  citations : List CitationWrite
  webEvidence : List EvidenceRow
  mergedDocumentStates : List MergedDocumentState
  versions : List VersionRow
  reportSuggestions : List SuggestionRow

namespace RoomRows

variable (d : RoomRows) (actorId : UUID)

/-- The database of the sessions and the documents. -/
def database : Database :=
  emptyStore { emptyTables with
    sources := ⟨d.roomMemberships, [], [], []⟩
    talkSessions := d.talkSessions
    generationSnapshots := d.generationSnapshots
    generationRuns := d.generationRuns
    generatedDocuments := d.generatedDocuments.map (·.row)
    mergedDocumentStates := d.mergedDocumentStates }

/-- The tables of the contents. -/
def contents : ContentTables where
  sourceAnchors := []
  documents := d.generatedDocuments.map fun document ↦ ⟨document.row.id, document.content⟩
  segments := d.generatedSegments
  webEvidence := []
  citations := d.citations
  researchClaims := []

/-! ## Chains of joins -/

/-- `room_memberships AS membership`, with the two conditions of its join. -/
def SeesRoom (roomId : UUID) : Prop :=
  ∃ m ∈ d.roomMemberships, m.roomId = roomId ∧ m.userId = actorId ∧ m.left = false

def SeesSession (sessionId : UUID) : Prop :=
  ∃ s ∈ d.talkSessions, s.id = sessionId ∧ d.SeesRoom actorId s.roomId

def SeesSubmission (submissionId : UUID) : Prop :=
  ∃ row ∈ d.submissions, row.id = submissionId ∧ d.SeesSession actorId row.sessionId

def SeesRevision (revisionId : UUID) : Prop :=
  ∃ row ∈ d.sourceRevisions, row.id = revisionId ∧ d.SeesSubmission actorId row.submissionId

def SeesSnapshot (snapshotId : UUID) : Prop :=
  ∃ p ∈ d.generationSnapshots, p.id = snapshotId ∧ d.SeesSession actorId p.sessionId

def SeesRun (runId : UUID) : Prop :=
  ∃ run ∈ d.generationRuns, run.id = runId ∧ d.SeesSnapshot actorId run.snapshotId

def SeesDocument (documentId : UUID) : Prop :=
  ∃ document ∈ d.generatedDocuments, document.row.id = documentId ∧
    d.SeesRun actorId document.row.runId

def SeesSegment (segmentId : UUID) : Prop :=
  ∃ segment ∈ d.generatedSegments, segment.id = segmentId ∧
    d.SeesDocument actorId segment.documentId

/-- Evidence has no room of its own: it is in those whose citations name it. -/
def SeesEvidence (evidenceId : UUID) : Prop :=
  ∃ c ∈ d.citations, c.target = .webEvidence evidenceId ∧ d.SeesSegment actorId c.segmentId

section Decidable

variable (id : UUID)

instance : Decidable (d.SeesRoom actorId id) := inferInstanceAs (Decidable (∃ _ ∈ _, _))
instance : Decidable (d.SeesSession actorId id) := inferInstanceAs (Decidable (∃ _ ∈ _, _))
instance : Decidable (d.SeesSubmission actorId id) := inferInstanceAs (Decidable (∃ _ ∈ _, _))
instance : Decidable (d.SeesRevision actorId id) := inferInstanceAs (Decidable (∃ _ ∈ _, _))
instance : Decidable (d.SeesSnapshot actorId id) := inferInstanceAs (Decidable (∃ _ ∈ _, _))
instance : Decidable (d.SeesRun actorId id) := inferInstanceAs (Decidable (∃ _ ∈ _, _))
instance : Decidable (d.SeesDocument actorId id) := inferInstanceAs (Decidable (∃ _ ∈ _, _))
instance : Decidable (d.SeesSegment actorId id) := inferInstanceAs (Decidable (∃ _ ∈ _, _))
instance : Decidable (d.SeesEvidence actorId id) := inferInstanceAs (Decidable (∃ _ ∈ _, _))

end Decidable

end RoomRows

/-! ## The citation resolver -/

/-- What a read raises. -/
inductive ReadError
  | citationUnavailable (message : String)
  | citationResolverInvariant (message : String)
  | reportSuggestionAccess (message : String)
  | error (e : Error)
deriving DecidableEq

inductive ResolvedCitation
  | sourceAnchor (citationId sourceAnchorId sourceRevisionId : UUID)
  | webEvidence (citationId webEvidenceId : UUID)
deriving DecidableEq

structure ResolvedSourceAnchor where
  id : UUID
  revisionId : UUID
  exactQuote : String
  anchorJson : Fields

/-- `row is None`. -/
def available {α : Type} (message : String) : Option α → Except ReadError α
  | some a => .ok a
  | none => .error (.citationUnavailable message)

/-- `isinstance(anchor_json, dict)`. -/
def anchorDict : Json → Except ReadError Fields
  | .object fields => .ok fields
  | _ => .error (.citationResolverInvariant "source anchor JSON is invalid")

/-- `_text` -/
def readTextColumn (value : Str) (label : String) : Except ReadError Str := do
  require (¬Py.Blank value) (.citationResolverInvariant (label ++ " is invalid"))
  .ok value

namespace RoomRows

variable (d : RoomRows) (actorId : UUID)

/-- The run and the document of a snapshot lie between it and the segment. -/
def SegmentOf (p : GenerationSnapshot) (segmentId : UUID) : Prop :=
  ∃ run ∈ d.generationRuns, run.snapshotId = p.id ∧
    ∃ document ∈ d.generatedDocuments, document.row.runId = run.id ∧
      ∃ segment ∈ d.generatedSegments, segment.documentId = document.row.id ∧ segment.id = segmentId

/-- The anchor is of a pinned revision and run of the snapshot. -/
def Pinned (p : GenerationSnapshot) (a : AnchorRow) : Prop :=
  ∃ pin ∈ d.snapshotRevisions, pin.snapshotId = p.id ∧
    pin.sourceRevisionId = a.sourceRevisionId ∧ pin.extractionRunId = a.extractionRunId

instance (p : GenerationSnapshot) (segmentId : UUID) : Decidable (d.SegmentOf p segmentId) :=
  inferInstanceAs (Decidable (∃ _ ∈ _, _))

instance (p : GenerationSnapshot) (a : AnchorRow) : Decidable (d.Pinned p a) :=
  inferInstanceAs (Decidable (∃ _ ∈ _, _))

/-- The target of a citation, if the snapshot has it. -/
def citationTarget (c : CitationWrite) (p : GenerationSnapshot) : Option ResolvedCitation :=
  match c.target with
  | .sourceAnchor anchorId =>
    (d.sourceAnchors.find? fun a ↦ a.id = anchorId ∧ d.Pinned p a).map fun a ↦
      .sourceAnchor c.id a.id a.sourceRevisionId
  | .webEvidence evidenceId =>
    (d.webEvidence.find? (·.id = evidenceId)).map fun e ↦ .webEvidence c.id e.id

/-- `CitationResolver.resolve` -/
def resolve (citationId : UUID) : Except ReadError ResolvedCitation :=
  available "citation is unavailable" <|
    d.citations.findSome? fun c ↦
      if c.id = citationId then
        (d.generationSnapshots.filter fun p ↦ d.SeesSession actorId p.sessionId ∧
          d.SegmentOf p c.segmentId).findSome? (d.citationTarget c)
      else none

/-- `resolve_source_anchor_for_viewer` -/
def resolveSourceAnchorForViewer (sourceRevisionId : UUID) (sourceAnchorId : Option UUID) :
    Except ReadError (Option ResolvedSourceAnchor) := do
  require (d.SeesRevision actorId sourceRevisionId)
    (.citationUnavailable "source revision is unavailable")
  match sourceAnchorId with
  | none => .ok none
  | some anchorId => do
    let row ← available "source anchor is unavailable" <|
      d.sourceAnchors.find? fun a ↦ a.id = anchorId ∧ a.sourceRevisionId = sourceRevisionId
    let anchorJson ← anchorDict row.anchorJson
    require (row.text ≠ "") (.citationResolverInvariant "source anchor text is invalid")
    .ok (some ⟨row.id, row.sourceRevisionId, row.text, anchorJson⟩)

/-- `resolve_source_anchor_for_member` -/
def resolveSourceAnchorForMember (sourceAnchorId : UUID) : Except ReadError ResolvedSourceAnchor := do
  let row ← available "source anchor is unavailable" <|
    d.sourceAnchors.find? fun a ↦ a.id = sourceAnchorId ∧ d.SeesRevision actorId a.sourceRevisionId
  let anchorJson ← anchorDict row.anchorJson
  let _ ← readTextColumn (lit row.text) "source anchor text"
  .ok ⟨row.id, row.sourceRevisionId, row.text, anchorJson⟩

/-- The chain of a segment whose document is a research. -/
def SeesResearchSegment (segmentId : UUID) : Prop :=
  ∃ segment ∈ d.generatedSegments, segment.id = segmentId ∧
    ∃ document ∈ d.generatedDocuments, (document.row.id = segment.documentId ∧
      document.row.kind = .research) ∧ d.SeesRun actorId document.row.runId

/-- A citation by which the evidence is reached. -/
def SeesResearchEvidence (evidenceId : UUID) : Prop :=
  ∃ c ∈ d.citations, c.target = .webEvidence evidenceId ∧ d.SeesResearchSegment actorId c.segmentId

instance (segmentId : UUID) : Decidable (d.SeesResearchSegment actorId segmentId) :=
  inferInstanceAs (Decidable (∃ _ ∈ _, _))

instance (evidenceId : UUID) : Decidable (d.SeesResearchEvidence actorId evidenceId) :=
  inferInstanceAs (Decidable (∃ _ ∈ _, _))

/-- `resolve_web_evidence_for_member` -/
def resolveWebEvidenceForMember (webEvidenceId : UUID) : Except ReadError EvidenceRow := do
  let row ← available "web evidence is unavailable" <|
    d.webEvidence.find? fun e ↦ e.id = webEvidenceId ∧ d.SeesResearchEvidence actorId e.id
  let url ← readTextColumn row.url "web evidence URL"
  let title ← readTextColumn row.title "web evidence title"
  let domain ← readTextColumn row.domain "web evidence domain"
  let snippetHash ← readTextColumn row.snippetHash "web evidence snippet hash"
  .ok ⟨row.id, url, title, domain, row.accessedAt, snippetHash⟩

/-! ## The merged document -/

/-- A revision and its submission. -/
def revisionSubmission (revisionId : UUID) : Option (RevisionRow × SubmissionRow) :=
  d.sourceRevisions.findSome? fun revision ↦
    if revision.id = revisionId then
      (d.submissions.find? (·.id = revision.submissionId)).map (revision, ·)
    else none

/-- The title behind an anchor that a summary lists. -/
def anchorTitle (anchorId : String) : Option String :=
  d.sourceAnchors.findSome? fun a ↦
    if a.id.str = anchorId then (d.revisionSubmission a.sourceRevisionId).map (·.2.title) else none

/-- `_resolve_anchor_titles` -/
def resolveAnchorTitles (anchorIds : List String) : List (String × String) :=
  anchorIds.filterMap fun anchorId ↦ (d.anchorTitle anchorId).map (anchorId, ·)

/-- `COALESCE(NULLIF(submission.title, ''), revision.filename, '문서')`. -/
def documentTitle (revision : RevisionRow) (submission : SubmissionRow) : String :=
  if submission.title = "" then revision.filename.getD "문서" else submission.title

/-- The eligible anchors of a pinned revision, in their order. -/
def pinnedAnchors (pin : SnapshotRevision) : List ComparisonAnchor :=
  ((d.sourceAnchors.filter fun a ↦ a.sourceRevisionId = pin.sourceRevisionId ∧
    a.extractionRunId = pin.extractionRunId ∧ a.ragEligible = true).insertionSort fun a b ↦
      a.ordinal < b.ordinal ∨ (a.ordinal = b.ordinal ∧ a.id.bits.toNat ≤ b.id.bits.toNat)).map
        fun a ↦ ⟨a.id, a.text⟩

/-- The group of a pinned revision, if it has rows. -/
def pinnedDocument (pin : SnapshotRevision) : Option SnapshotDocument :=
  match d.revisionSubmission pin.sourceRevisionId with
  | some (revision, submission) =>
    if d.pinnedAnchors pin = [] then none
    else some ⟨revision.id, documentTitle revision submission, d.pinnedAnchors pin⟩
  | none => none

/-- `_load_snapshot_documents`; a snapshot pins a revision once. -/
def loadSnapshotDocuments (snapshotId : UUID) : List SnapshotDocument :=
  ((d.snapshotRevisions.filter (·.snapshotId = snapshotId)).insertionSort fun a b ↦
    a.sourceRevisionId.bits.toNat ≤ b.sourceRevisionId.bits.toNat).filterMap d.pinnedDocument

/-- The content of a document with its citations. -/
def citedContent (documentId : UUID) : Except Error Fields :=
  match d.contents.documents.find? (·.id = documentId) with
  | some row => do
    let content ← jsonObjectCopy row.content
    summaryContentWithCitationIds d.contents row.id content
  | none => .error (.generationDocumentUnavailable "generated document is unavailable")

variable (sections : Fields → Except Error (List SummarySection))

/-- The queries of a read, with the casts by which it takes the sections out of a content. -/
def mergedDocumentReads : MergedDocumentReads where
  sections document := do
    let content ← d.citedContent document.documentId
    sections content
  anchorTitles := d.resolveAnchorTitles
  snapshotDocuments := d.loadSnapshotDocuments

/-- `MergedDocumentService.get` -/
def getMerged (sessionId : UUID) : Except Error MergedDocumentView :=
  getMergedDocument (d.mergedDocumentReads sections) sessionId actorId d.database

/-- A version with its blocks as they are read. -/
def readVersion (row : VersionRow) : Except Error (VersionRow × List MergedDocumentBlock) := do
  let blocks ← blocksFromJson row.blocks
  .ok (row, blocks)

/-- `MergedDocumentService.list_versions` -/
def listVersions (sessionId : UUID) : Except Error (List (VersionRow × List MergedDocumentBlock)) := do
  let _ ← requireDocumentMember d.database sessionId actorId
  match loadReportIdentity d.database sessionId with
  | none => .ok []
  | some identity =>
    ((d.versions.filter fun row ↦ row.sessionId = sessionId ∧
      row.snapshotId = identity.snapshotId).insertionSort fun a b ↦
        b.createdAt ≤ a.createdAt).mapM readVersion

/-- `MergedDocumentService.get_version` -/
def getVersion (sessionId versionId : UUID) :
    Except Error (VersionRow × List MergedDocumentBlock) := do
  let _ ← requireDocumentMember d.database sessionId actorId
  let identity ← requireReport d.database sessionId
  match d.versions.find? fun row ↦ row.id = versionId ∧ row.sessionId = sessionId ∧
      row.snapshotId = identity.snapshotId with
  | some row => readVersion row
  | none => .error (.mergedDocumentAccess "merged document version is unavailable")

/-- `ReportSuggestionService.list` -/
def listSuggestions (sessionId : UUID) : Except ReadError (List SuggestionRow) := do
  require (d.SeesSession actorId sessionId) (.reportSuggestionAccess "talk session is unavailable")
  .ok ((d.reportSuggestions.filter (·.sessionId = sessionId)).insertionSort fun a b ↦
    a.createdAt < b.createdAt ∨ (a.createdAt = b.createdAt ∧ a.id.bits.toNat ≤ b.id.bits.toNat))

end RoomRows

/-! ## The nine reads -/

inductive RoomRead
  | resolve (citationId : UUID)
  | resolveSourceAnchorForViewer (sourceRevisionId : UUID) (sourceAnchorId : Option UUID)
  | resolveSourceAnchorForMember (sourceAnchorId : UUID)
  | resolveWebEvidenceForMember (webEvidenceId : UUID)
  | get (sessionId : UUID)
  | listVersions (sessionId : UUID)
  | getVersion (sessionId versionId : UUID)
  | listSuggestions (sessionId : UUID)
  | getSummaryForMember (sessionId : UUID)

/-- What a read returns. -/
inductive RoomReply
  | citation (citation : ResolvedCitation)
  | viewerAnchor (anchor : Option ResolvedSourceAnchor)
  | anchor (anchor : ResolvedSourceAnchor)
  | evidence (evidence : EvidenceRow)
  | merged (view : MergedDocumentView)
  | versions (versions : List (VersionRow × List MergedDocumentBlock))
  | version (version : VersionRow × List MergedDocumentBlock)
  | suggestions (suggestions : List SuggestionRow)
  | summary (content : Fields)

/-- The outcome of a read. -/
def RoomRead.outcome (sections : Fields → Except Error (List SummarySection)) (d : RoomRows)
    (actorId : UUID) : RoomRead → Except ReadError RoomReply
  | resolve citationId => (d.resolve actorId citationId).map .citation
  | resolveSourceAnchorForViewer revisionId anchorId =>
    (d.resolveSourceAnchorForViewer actorId revisionId anchorId).map .viewerAnchor
  | resolveSourceAnchorForMember anchorId =>
    (d.resolveSourceAnchorForMember actorId anchorId).map .anchor
  | resolveWebEvidenceForMember evidenceId =>
    (d.resolveWebEvidenceForMember actorId evidenceId).map .evidence
  | get sessionId => ((d.getMerged actorId sections sessionId).mapError .error).map .merged
  | listVersions sessionId => ((d.listVersions actorId sessionId).mapError .error).map .versions
  | getVersion sessionId versionId =>
    ((d.getVersion actorId sessionId versionId).mapError .error).map .version
  | listSuggestions sessionId => (d.listSuggestions actorId sessionId).map .suggestions
  | getSummaryForMember sessionId =>
    ((MeetingRag.getSummaryForMember d.database d.contents sessionId actorId).mapError .error).map
      .summary

end MeetingRag
