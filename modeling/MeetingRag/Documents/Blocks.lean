import MeetingRag.Session.Tables

/-!
# Blocks of the merged document

The editor works on headings and paragraphs. Three producers make them: the author, whose blocks are
written to `blocks_json` and read back; the stored summary, from which the first document is drawn;
and the pinned sources, every eligible anchor of which is appended verbatim in chunks.
-/

open Outcome Text

namespace MeetingRag

/-! ## Blocks -/

/-- `Literal[1, 2, 3]`. -/
inductive HeadingLevel
  | one | two | three
deriving DecidableEq, Repr

def HeadingLevel.value : HeadingLevel → ℤ
  | one => 1
  | two => 2
  | three => 3

/-- The level a number names. -/
def headingLevel (n : ℤ) : Option HeadingLevel :=
  [HeadingLevel.one, .two, .three].find? (·.value = n)

inductive MergedDocumentBlock
  | heading (id : String) (level : HeadingLevel) (text : String) (tag : Option String)
  | paragraph (id text : String) (tag : Option String)
deriving DecidableEq, Repr

def MergedDocumentBlock.id : MergedDocumentBlock → String
  | heading id .. => id
  | paragraph id .. => id

/-- An entry of `_blocks_to_json`. -/
def blockToJson : MergedDocumentBlock → PersistedBlock
  | .heading id level text tag => ⟨id, "heading", text, tag, some level.value⟩
  | .paragraph id text tag => ⟨id, "paragraph", text, tag, none⟩

def blocksToJson (blocks : List MergedDocumentBlock) : List PersistedBlock := blocks.map blockToJson

/-- One round of `_blocks_from_json`. -/
def blockFromJson (raw : PersistedBlock) : Except Error MergedDocumentBlock :=
  if raw.type = "heading" then
    match raw.level.bind headingLevel with
    | some level => .ok (.heading raw.id level raw.text raw.tag)
    | none => .error (.valueError "persisted heading block has an invalid level")
  else if raw.type = "paragraph" then .ok (.paragraph raw.id raw.text raw.tag)
  else .error (.valueError "persisted merged document block has an unknown type")

def blocksFromJson (value : List PersistedBlock) : Except Error (List MergedDocumentBlock) :=
  value.mapM blockFromJson

theorem headingLevel_value (level : HeadingLevel) : headingLevel level.value = some level := by
  cases level <;> rfl

theorem blockFromJson_blockToJson (block : MergedDocumentBlock) :
    blockFromJson (blockToJson block) = .ok block := by
  cases block with
  | heading id level text tag =>
    rw [blockFromJson, blockToJson, if_pos rfl]
    dsimp only
    rw [Option.bind_some, headingLevel_value]
  | paragraph id text tag => rfl

/-- **What is written is read back.** -/
theorem blocksFromJson_blocksToJson (blocks : List MergedDocumentBlock) :
    blocksFromJson (blocksToJson blocks) = .ok blocks := by
  rw [blocksFromJson, mapM_eq_ok, blocksToJson, List.forall₂_map_left_iff, List.forall₂_same]
  exact fun block _ ↦ blockFromJson_blockToJson block

/-! ## The sources -/

/-- An anchor of a pinned document. -/
structure ComparisonAnchor where
  anchorId : UUID
  text : String
deriving DecidableEq, Repr

/-- `_SnapshotDocument`, in the order its query returns. -/
structure SnapshotDocument where
  revisionId : UUID
  title : String
  anchors : List ComparisonAnchor
deriving DecidableEq, Repr

def maxCoverageAnchorsPerBlock : ℕ := 10

def maxMergedParagraphLength : ℕ := 20000

def maxMergedDocumentBlocks : ℕ := 500

/-- The blocks of one document so far, and the anchors of the chunk that is not flushed yet. -/
structure CoverageChunks where
  blocks : List PersistedBlock
  pending : List ComparisonAnchor
  chunkIndex : ℕ

section Coverage

variable (documentIndex : ℕ) (document : SnapshotDocument)

/-- The title the chunks of a document are tagged with. -/
def coverageTitle : String :=
  if strip document.title = "" then "제목 없는 문서" else strip document.title

/-- The block of one chunk. -/
def chunkBlock (chunkIndex : ℕ) (pending : List ComparisonAnchor) : PersistedBlock where
  id := "source-" ++ decimal documentIndex ++ "-" ++ decimal chunkIndex
  type := "paragraph"
  text := join "\n\n" (pending.map (·.text))
  tag := some (coverageTitle document ++ " · " ++
    join " " (pending.map fun anchor ↦ "RAG:" ++ anchor.anchorId.str))
  level := none

/-- `flush_chunk`. -/
def flushChunk (c : CoverageChunks) : CoverageChunks :=
  if c.pending = [] then c
  else
    { blocks := c.blocks ++ [chunkBlock documentIndex document c.chunkIndex c.pending]
      pending := []
      chunkIndex := c.chunkIndex + 1 }

/-- The length of a chunk with one more anchor. -/
def nextLength (pending : List ComparisonAnchor) (anchor : ComparisonAnchor) : ℕ :=
  (pending.map (·.text.length)).sum + anchor.text.length + 2 * pending.length

/-- Append one anchor, in a new chunk if the pending one is full. -/
def coverAnchor (c : CoverageChunks) (anchor : ComparisonAnchor) : CoverageChunks :=
  let c := if c.pending.length ≥ maxCoverageAnchorsPerBlock ∨
      nextLength c.pending anchor > maxMergedParagraphLength then flushChunk documentIndex document c
    else c
  { c with pending := c.pending ++ [anchor] }

/-- The chunks of one document. -/
def coverageOf : List PersistedBlock :=
  (flushChunk documentIndex document
    (document.anchors.foldl (coverAnchor documentIndex document) ⟨[], [], 0⟩)).blocks

end Coverage

def sourceCoverageHeading : PersistedBlock where
  id := "source-coverage-heading"
  type := "heading"
  text := "업로드 문서 전체 내용"
  tag := some "원문 전체"
  level := some 1

/-- `_build_source_coverage_blocks`. -/
def buildSourceCoverageBlocks (documents : List SnapshotDocument) : List PersistedBlock :=
  sourceCoverageHeading :: documents.zipIdx.flatMap fun d ↦ coverageOf d.2 d.1

/-! ## The summary -/

/-- An item of a stored summary. -/
structure SummaryItem where
  text : String
  sourceAnchorIds : List String
deriving DecidableEq, Repr

/-- A section of a stored summary. -/
structure SummarySection where
  heading : String
  items : List SummaryItem
deriving DecidableEq, Repr

def anchorIdsIn (sections : List SummarySection) : List String :=
  (sections.flatMap fun s ↦ s.items.flatMap (·.sourceAnchorIds)).dedup

/-- The titles behind the anchors of an item, each once and in order. -/
def itemTitles (anchorTitles : List (String × String)) (item : SummaryItem) : List String :=
  sorted (item.sourceAnchorIds.filterMap fun a ↦ List.lookup a anchorTitles).dedup

/-- The paragraph of an item, if its text is not blank. -/
def itemBlock (anchorTitles : List (String × String)) (sectionIndex itemIndex : ℕ)
    (item : SummaryItem) : Option MergedDocumentBlock :=
  if strip item.text = "" then none
  else
    let titles := itemTitles anchorTitles item
    some (.paragraph ("b-p-" ++ decimal sectionIndex ++ "-" ++ decimal itemIndex) (strip item.text)
      (if titles = [] then none else some (join ", " titles)))

/-- The blocks of a section: its heading, if it is not blank, and its items. -/
def sectionBlocks (anchorTitles : List (String × String)) (sectionIndex : ℕ)
    (s : SummarySection) : List MergedDocumentBlock :=
  (if strip s.heading = "" then []
    else [.heading ("b-h-" ++ decimal sectionIndex) .one (strip s.heading) none]) ++
    s.items.zipIdx.filterMap fun i ↦ itemBlock anchorTitles sectionIndex i.2 i.1

/-- `_baseline_blocks`. -/
def baselineBlocks (sections : List SummarySection) (anchorTitles : List (String × String)) :
    Except Error (List MergedDocumentBlock) :=
  let blocks := sections.zipIdx.flatMap fun s ↦ sectionBlocks anchorTitles s.2 s.1
  if blocks = [] then .error (.valueError "summary has no content to seed a merged document")
  else .ok blocks

end MeetingRag
