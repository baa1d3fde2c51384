import MeetingRag.Ingestion.Contract
import MeetingRag.Session.Tables

/-!
# The tables of file extraction

What uploading a file and extracting its text read and write beside the queue: the submissions and
their revisions, the runs of the parsers and the anchors they found. The rows are those of file
submissions. Text submissions write the same tables in transactions of their own, and all that the
statements here see of them is how many current revisions a session has.

A submission carries the room of its session, which no statement changes.
-/

open Table Text

namespace MeetingRag

/-! ## Parsers -/

/-- `ParserIdentity`. -/
structure FileParser where
  name : String
  version : String
deriving DecidableEq, Repr

/-- `parser_by_media`. -/
def parserByMedia : MediaType → FileParser
  | .pdf => ⟨"pypdfium2", "5.12.1"⟩
  | .png | .jpeg => ⟨"pillow+tesseract-cli", "12.3.0+5.3.0"⟩
  | .hwp => ⟨"pyhwp", "0.1b15"⟩
  | .hwpx => ⟨"hwpxlib", "1.0.9"⟩
  | .text => ⟨"builtin-utf8-text", "1.0.0"⟩
  | .docx => ⟨"stdlib-docx", "1.0.0"⟩
  | .pptx => ⟨"libreoffice+pypdfium2+tesseract-cli", "1.0.0"⟩
  | .xlsx => ⟨"stdlib-xlsx", "1.0.0"⟩

/-- `_PROFILE_BY_MEDIA`. -/
def profileByMedia : MediaType → String
  | .pdf => "66c3e4fb17d97a94b56511982ba9624ce168d35aa391087b2c414b3eb65f4cc2"
  | .png | .jpeg => "31b063d1175f667d67385fc9d4657e541cf450e7524b257aee2d5da3f87f2a6c"
  | .hwp | .docx => "e320c367c7c5952bcb83a067f44edd8729d65c6c5d20fceccaf69c7a641271df"
  | .hwpx => "ae4e3c7f49383c4d2768445f81fba32ce343701bcf053969bc959b50c4dea8af"
  | .text => "f9459187e413f808732f93f126f8140886cc575130e3884b86c12c65d29bc8b7"
  | .pptx => "588fbb9988828934408a492500541c64714acaaa5db3cad312b8b2f616ec9c86"
  | .xlsx => "00e03add157065ac766b05c63a914d36974288c7dd698a163ba960bfa830b8d2"

/-- An entry of `_FILE_TYPES`. -/
structure FileType where
  suffix : String
  mediaType : MediaType
  parser : FileParser
deriving DecidableEq, Repr

/-- `_FILE_TYPES`. -/
def fileTypes : List FileType :=
  [⟨".pdf", .pdf, ⟨"pypdfium2", "5.12.1"⟩⟩,
    ⟨".png", .png, ⟨"pillow+tesseract-cli", "12.3.0+5.3.0"⟩⟩,
    ⟨".jpg", .jpeg, ⟨"pillow+tesseract-cli", "12.3.0+5.3.0"⟩⟩,
    ⟨".jpeg", .jpeg, ⟨"pillow+tesseract-cli", "12.3.0+5.3.0"⟩⟩,
    ⟨".hwp", .hwp, ⟨"pyhwp", "0.1b15"⟩⟩,
    ⟨".hwpx", .hwpx, ⟨"hwpxlib", "1.0.9"⟩⟩,
    ⟨".txt", .text, ⟨"builtin-utf8-text", "1.0.0"⟩⟩,
    ⟨".docx", .docx, ⟨"stdlib-docx", "1.0.0"⟩⟩,
    ⟨".pptx", .pptx, ⟨"libreoffice+pypdfium2+tesseract-cli", "1.0.0"⟩⟩,
    ⟨".xlsx", .xlsx, ⟨"stdlib-xlsx", "1.0.0"⟩⟩]

/-- The parser of an upload is the one its revision is loaded with. -/
theorem parserByMedia_fileTypes : ∀ t ∈ fileTypes, parserByMedia t.mediaType = t.parser := by
  decide

/-! ## Rows -/

/-- A row of `submissions` of kind `file`, with the room of its session. -/
structure FileSubmission where
  id : UUID
  sessionId : UUID
  roomId : UUID
  authorId : UUID
  title : String
  deleted : Bool
deriving DecidableEq, Repr

/-- A row of `source_revisions`. -/
structure FileRevision where
  id : UUID
  submissionId : UUID
  filename : String
  mimeType : MediaType
  byteSize : ℕ
  sha256 : String
  storageKey : Option String
  processingState : RevisionProcessingState
  approvedExtractionRunId : Option UUID
  isCurrent : Bool
deriving DecidableEq, Repr

/-- A row of `extraction_runs`. -/
structure FileExtractionRun where
  id : UUID
  sourceRevisionId : UUID
  parser : FileParser
  configHash : String
  attemptNo : ℕ
  status : ExtractionStatus
  errorCode : Option String
  jobAttemptId : Option UUID
deriving DecidableEq, Repr

/-- An entry of `result["blocks"]`, without the anchor that is stored with it. -/
structure ExtractedBlock where
  ordinal : ℤ
  blockType : String
  text : String
  confidence : Option ℚ
  anchorHash : String
deriving DecidableEq, Repr

/-- A row of `source_anchors`. -/
structure FileAnchor where
  extractionRunId : UUID
  sourceRevisionId : UUID
  block : ExtractedBlock
deriving DecidableEq, Repr

structure FileTables where
  roomMemberships : List RoomMembership
  talkSessions : List TalkSession
  /-- The sessions of the current revisions of text submissions. -/
  textRevisions : List UUID
  submissions : List FileSubmission
  revisions : List FileRevision
  extractionRuns : List FileExtractionRun
  anchors : List FileAnchor
  auditEvents : List AuditEvent
deriving DecidableEq

/-- The documents of the queue. -/
inductive ExtractionDocument
  /-- `{"revision_id", "media_type", "parser"}`. -/
  | job (revisionId : UUID) (mediaType : MediaType) (parser : FileParser)
  /-- `{"revision_id", "anchor_set_hash", "block_count"}`. -/
  | result (revisionId : UUID) (anchorSetHash : String) (blockCount : ℕ)
  /-- `{"outcome": "failed"}`. -/
  | failed
  /-- A document of another kind of job. -/
  | other
deriving DecidableEq, Repr

/-- All of them are finite JSON. -/
instance : JsonDocument ExtractionDocument := ⟨fun _ ↦ true⟩

abbrev FileDatabase := Store ExtractionDocument FileTables

def emptyFileTables : FileTables := ⟨[], [], [], [], [], [], [], []⟩

/-! ## Constraints -/

def fileSubmissionsClash (a b : FileSubmission) : Prop := a.id = b.id

/-- A submission has one revision, so `UNIQUE (submission_id, revision_no)` and the index of the
current one are the uniqueness of its submission. -/
def fileRevisionsClash (a b : FileRevision) : Prop :=
  a.id = b.id ∨ a.submissionId = b.submissionId ∨ (a.storageKey.isSome ∧ a.storageKey = b.storageKey)

def fileRunsClash (a b : FileExtractionRun) : Prop :=
  a.id = b.id ∨ (a.jobAttemptId.isSome ∧ a.jobAttemptId = b.jobAttemptId) ∨
    (a.sourceRevisionId = b.sourceRevisionId ∧ a.parser = b.parser ∧ a.configHash = b.configHash ∧
      a.attemptNo = b.attemptNo)

def anchorsClash (a b : FileAnchor) : Prop :=
  a.extractionRunId = b.extractionRunId ∧
    (a.block.ordinal = b.block.ordinal ∨ a.block.anchorHash = b.block.anchorHash)

instance : DecidableRel fileSubmissionsClash := fun a b ↦ inferInstanceAs (Decidable (a.id = b.id))

instance : DecidableRel fileRevisionsClash := fun a b ↦ inferInstanceAs (Decidable
  (a.id = b.id ∨ a.submissionId = b.submissionId ∨
    (a.storageKey.isSome ∧ a.storageKey = b.storageKey)))

instance : DecidableRel fileRunsClash := fun a b ↦ inferInstanceAs (Decidable
  (a.id = b.id ∨ (a.jobAttemptId.isSome ∧ a.jobAttemptId = b.jobAttemptId) ∨
    (a.sourceRevisionId = b.sourceRevisionId ∧ a.parser = b.parser ∧ a.configHash = b.configHash ∧
      a.attemptNo = b.attemptNo)))

instance : DecidableRel anchorsClash := fun a b ↦ inferInstanceAs (Decidable
  (a.extractionRunId = b.extractionRunId ∧
    (a.block.ordinal = b.block.ordinal ∨ a.block.anchorHash = b.block.anchorHash)))

/-- The `CHECK` constraints of an anchor, and what PostgreSQL text admits. -/
def Storable (block : ExtractedBlock) : Prop :=
  0 ≤ block.ordinal ∧ (1 ≤ block.blockType.length ∧ block.blockType.length ≤ 64) ∧
    (∀ confidence ∈ block.confidence, 0 ≤ confidence ∧ confidence ≤ 1) ∧
    (block.anchorHash.length = 64 ∧
      ∀ c ∈ block.anchorHash.toList, c.isDigit = true ∨ ('a' ≤ c ∧ c ≤ 'f')) ∧
    Char.ofNat 0 ∉ block.text.toList ∧ Char.ofNat 0 ∉ block.blockType.toList

instance : DecidablePred Storable := fun block ↦
  have (s : String) : Decidable (∀ c ∈ s.toList, c.isDigit = true ∨ ('a' ≤ c ∧ c ≤ 'f')) :=
    List.decidableBAll _ _
  inferInstanceAs (Decidable
    (0 ≤ block.ordinal ∧ (1 ≤ block.blockType.length ∧ block.blockType.length ≤ 64) ∧
      (∀ confidence ∈ block.confidence, 0 ≤ confidence ∧ confidence ≤ 1) ∧
      (block.anchorHash.length = 64 ∧
        ∀ c ∈ block.anchorHash.toList, c.isDigit = true ∨ ('a' ≤ c ∧ c ≤ 'f')) ∧
      Char.ofNat 0 ∉ block.text.toList ∧ Char.ofNat 0 ∉ block.blockType.toList))

/-- `INSERT INTO source_anchors`. -/
def insertAnchor (anchors : List FileAnchor) (anchor : FileAnchor) :
    Except Error (List FileAnchor) := do
  Outcome.require (Storable anchor.block) (.database "source_anchors_check")
  insertUnique anchorsClash (fun _ ↦ .database "source_anchors_extraction_run_id_key") anchor anchors

end MeetingRag
