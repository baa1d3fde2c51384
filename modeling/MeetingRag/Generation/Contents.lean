import MeetingRag.Documents.Baseline
import MeetingRag.Generation.Grounding
import MeetingRag.Library.JsonSafe

/-!
# The contents of a generated document

A completed generation is stored in five tables: the document with its structured content, the
segments in the order of the text, the citations of the segments, and for a research run the web
evidence and the claims. A reader of a summary joins the content with the citations again: it flattens
the sections of the content, counts the items, and looks each support up by the number of its item and
the anchor that it names.

The rows of one completion are inserted in one transaction, and no other transaction writes to a
document that is there.
-/

open Outcome Py Json Table

namespace MeetingRag

/-- `str(value)` of a UUID. -/
def uuidText (id : UUID) : Str := lit id.str

theorem uuidText_inj {a b : UUID} : uuidText a = uuidText b ↔ a = b :=
  lit_inj.trans UUID.str_inj

/-! ## Writes -/

/-- `GeneratedSegmentWrite`. -/
structure GeneratedSegmentWrite where
  id : UUID
  ordinal : ℕ
  text : Str
  named : ¬Py.Blank text

def GeneratedSegmentWrite.new (id : UUID) (ordinal : ℕ) (text : Str) :
    Except Error GeneratedSegmentWrite :=
  if h : Py.Blank text then .error (.valueError "generated segment text must not be blank")
  else .ok ⟨id, ordinal, text, h⟩

/-- What a citation points at. -/
inductive CitationTarget
  | sourceAnchor (id : UUID)
  | webEvidence (id : UUID)
deriving DecidableEq, Repr

/-- `CitationWrite` and `WebCitationWrite`. -/
structure CitationWrite where
  id : UUID
  segmentId : UUID
  target : CitationTarget
deriving DecidableEq, Repr

def CitationWrite.isWeb (c : CitationWrite) : Bool :=
  match c.target with
  | .sourceAnchor _ => false
  | .webEvidence _ => true

/-- `[0-9a-f]{64}` -/
def isSha256 (s : Str) : Bool :=
  s.length = 64 && s.all fun c ↦ (48 ≤ c.val && c.val ≤ 57) || (97 ≤ c.val && c.val ≤ 102)

/-- `WebEvidenceWrite`. -/
structure WebEvidenceWrite where
  id : UUID
  url : Str
  title : Str
  domain : Str
  accessedAt : Timestamp
  snippetHash : Str
  named : ¬Py.Blank url ∧ ¬Py.Blank title ∧ ¬Py.Blank domain
  hashed : isSha256 snippetHash = true

def WebEvidenceWrite.new (id : UUID) (url title domain : Str) (accessedAt : Timestamp)
    (snippetHash : Str) : Except Error WebEvidenceWrite :=
  if h : ¬Py.Blank url ∧ ¬Py.Blank title ∧ ¬Py.Blank domain then
    if hash : isSha256 snippetHash = true then
      .ok ⟨id, url, title, domain, accessedAt, snippetHash, h, hash⟩
    else .error (.valueError "web evidence snippet hash must be lowercase sha256")
  else .error (.valueError "web evidence fields must not be blank")

inductive Verdict
  | supported
  | refuted
  | mixed
  | unverifiable
deriving DecidableEq, Repr

def Verdict.value : Verdict → String
  | .supported => "supported"
  | .refuted => "refuted"
  | .mixed => "mixed"
  | .unverifiable => "unverifiable"

/-- `ResearchClaimWrite`. -/
structure ResearchClaimWrite where
  id : UUID
  claimText : Str
  sourceAnchorId : UUID
  verdict : Verdict
  explanation : Str
  named : ¬Py.Blank claimText ∧ ¬Py.Blank explanation

def ResearchClaimWrite.new (id : UUID) (claimText : Str) (sourceAnchorId : UUID)
    (verdict : Verdict) (explanation : Str) : Except Error ResearchClaimWrite :=
  if h : ¬Py.Blank claimText ∧ ¬Py.Blank explanation then
    .ok ⟨id, claimText, sourceAnchorId, verdict, explanation, h⟩
  else .error (.valueError "research claim text and explanation must not be blank")

/-! ## Isolation -/

def summaryForbiddenKeys : List String :=
  ["alias", "fixture_alias", "fixture_id", "web_evidence", "web_evidence_ids", "url", "verdict"]

def fixtureForbiddenKeys : List String :=
  ["alias", "fixture_alias", "fixture_id", "source_anchor_alias"]

mutual

/-- The forbidden keys of the first object, in the order of the walk, that has any. -/
def walk (forbidden : List String) : Json → Option (List String)
  | .array items => walkItems forbidden items
  | .object fields =>
    if (forbidden.filter (Has fields ·)) = [] then walkFields forbidden fields
    else some (forbidden.filter (Has fields ·))
  | .null | .bool _ | .int _ | .float _ | .str _ => none

def walkItems (forbidden : List String) : List Json → Option (List String)
  | [] => none
  | v :: items => (walk forbidden v).or (walkItems forbidden items)

def walkFields (forbidden : List String) : Fields → Option (List String)
  | [] => none
  | (_, v) :: fields => (walk forbidden v).or (walkFields forbidden fields)

end

/-- `_assert_summary_content_is_isolated`. -/
def assertSummaryContentIsIsolated (content : Fields) : Except Error Unit :=
  match walk summaryForbiddenKeys (.object content) with
  | none => .ok ()
  | some keys => .error (.valueError
      ("summary content contains forbidden isolation fields: " ++ Text.join ", " (Text.sorted keys)))

/-- `_assert_no_fixture_aliases`. -/
def assertNoFixtureAliases (content : Fields) : Except Error Unit :=
  require (walk fixtureForbiddenKeys (.object content) = none)
    (.generationRepository "persisted content exposes fixture aliases")

/-! ## Completions -/

/-- `_canonical_json_bytes`, as far as it may raise. -/
def canonicalJsonText (content : Fields) : Except Error Str :=
  match dumps (.object content) with
  | .ok text =>
    if Scalar text then .ok text
    else .error (.generationRepository "generation content must be finite JSON")
  | .error _ => .error (.generationRepository "generation content must be finite JSON")

/-- The part of a `GenerationCompletion` that goes to the tables of the contents. -/
structure GenerationWrites where
  kind : GenerationKind
  documentId : UUID
  structuredContent : Fields
  segments : List GeneratedSegmentWrite
  citations : List CitationWrite
  webEvidence : List WebEvidenceWrite
  researchClaims : List ResearchClaimWrite

namespace GenerationWrites

/-- The checks of `GenerationCompletion.__post_init__` on a summary. -/
def postInitSummary (w : GenerationWrites) : Except Error Unit := do
  require (w.segments ≠ [] ∧ w.citations ≠ [])
    (.valueError "summary completion requires segments and source citations")
  require (w.webEvidence.length = 0 ∧ w.researchClaims.length = 0 ∧
      ∀ c ∈ w.citations, c.isWeb = false)
    (.valueError "summary completion cannot contain research persistence")
  require (∀ s ∈ w.segments, ∃ c ∈ w.citations, c.segmentId = s.id)
    (.valueError "every summary segment requires a source citation")
  require ((w.citations.map fun c ↦ (c.segmentId, c.target)).Nodup)
    (.valueError "summary citations must not duplicate a segment/anchor pair")
  assertSummaryContentIsIsolated w.structuredContent

/-- `GenerationCompletion.__post_init__`, after the checks of its names. -/
def postInit (w : GenerationWrites) : Except Error Unit := do
  let _ ← canonicalJsonText w.structuredContent
  require ((w.segments.map (·.id)).Nodup) (.valueError "generated segment IDs must be unique")
  require ((∀ s ∈ w.segments, s.ordinal < w.segments.length) ∧
      ∀ n < w.segments.length, ∃ s ∈ w.segments, s.ordinal = n)
    (.valueError "generated segment ordinals must be contiguous from zero")
  require ((w.citations.map (·.id)).Nodup) (.valueError "citation IDs must be unique")
  require (∀ c ∈ w.citations, ∃ s ∈ w.segments, s.id = c.segmentId)
    (.valueError "citation must target a generated segment")
  require ((w.webEvidence.map (·.id)).Nodup) (.valueError "web evidence IDs must be unique")
  require (∀ c ∈ w.citations, c.isWeb = true → ∃ e ∈ w.webEvidence, c.target = .webEvidence e.id)
    (.valueError "web citation must target completion web evidence")
  require ((w.researchClaims.map (·.id)).Nodup) (.valueError "research claim IDs must be unique")
  match w.kind with
  | .summary => w.postInitSummary
  | .research =>
    require (¬(w.researchClaims.length ≠ 0 ∧ w.webEvidence.length = 0))
      (.valueError "research claims require web evidence")

def new (kind : GenerationKind) (documentId : UUID) (structuredContent : Fields)
    (segments : List GeneratedSegmentWrite) (citations : List CitationWrite)
    (webEvidence : List WebEvidenceWrite) (researchClaims : List ResearchClaimWrite) :
    Except Error GenerationWrites := do
  let w : GenerationWrites :=
    ⟨kind, documentId, structuredContent, segments, citations, webEvidence, researchClaims⟩
  w.postInit
  .ok w

end GenerationWrites

/-! ## Tables -/

structure ContentDocument where
  id : UUID
  content : Fields

structure GeneratedSegment where
  id : UUID
  documentId : UUID
  ordinal : ℕ
  text : Str
deriving DecidableEq, Repr

structure ResearchClaim where
  id : UUID
  runId : UUID
  claimText : Str
  sourceAnchorId : UUID
  verdict : Verdict
  explanation : Str
deriving DecidableEq, Repr

/-- The tables of the contents, and the ids of the anchors that citations may name. A citation row has
the columns of the value it is inserted from, and so has a row of web evidence. -/
structure ContentTables where
  sourceAnchors : List UUID
  documents : List ContentDocument
  segments : List GeneratedSegment
  webEvidence : List WebEvidenceWrite
  citations : List CitationWrite
  researchClaims : List ResearchClaim

/-- `^https?://[^/@[:space:]]+` -/
def safeHttpUrl (space : CodePoint → Bool) : Regex :=
  .all [ .start, .text "http", .opt (.text "s"), .text "://",
    .plus (.char fun c ↦ !(c = 47 || c = 64 || space c)) ]

/-- `^https?://[^/]*@` -/
def userinfoUrl : Regex :=
  .all [.start, .text "http", .opt (.text "s"), .text "://", .star (.char fun c ↦ c ≠ 47), .text "@"]

/-- The constraints of `web_evidence` on its URL. -/
structure UrlChecks (ctype : Ctype) (url : Str) : Prop where
  safe : (safeHttpUrl ctype.space).search url = true
  userinfo : userinfoUrl.search url = false
  control : (10 : CodePoint) ∉ url ∧ (13 : CodePoint) ∉ url

theorem urlChecks_iff {ctype : Ctype} {url : Str} :
    UrlChecks ctype url ↔ (safeHttpUrl ctype.space).search url = true ∧
      userinfoUrl.search url = false ∧ (10 : CodePoint) ∉ url ∧ (13 : CodePoint) ∉ url :=
  ⟨fun h ↦ ⟨h.safe, h.userinfo, h.control⟩, fun h ↦ ⟨h.1, h.2.1, h.2.2⟩⟩

instance (ctype : Ctype) : DecidablePred (UrlChecks ctype) := fun _ ↦
  decidable_of_iff _ urlChecks_iff.symm

def documentsKey (a b : ContentDocument) : Prop := a.id = b.id

instance : DecidableRel documentsKey := fun a b ↦ inferInstanceAs (Decidable (a.id = b.id))

def segmentsKey (a b : GeneratedSegment) : Prop :=
  a.id = b.id ∨ (a.documentId = b.documentId ∧ a.ordinal = b.ordinal)

instance : DecidableRel segmentsKey := fun a b ↦
  inferInstanceAs (Decidable (a.id = b.id ∨ (a.documentId = b.documentId ∧ a.ordinal = b.ordinal)))

def evidenceKey (a b : WebEvidenceWrite) : Prop := a.id = b.id

instance : DecidableRel evidenceKey := fun a b ↦ inferInstanceAs (Decidable (a.id = b.id))

def citationsKey (a b : CitationWrite) : Prop := a.id = b.id

instance : DecidableRel citationsKey := fun a b ↦ inferInstanceAs (Decidable (a.id = b.id))

def claimsKey (a b : ResearchClaim) : Prop := a.id = b.id

instance : DecidableRel claimsKey := fun a b ↦ inferInstanceAs (Decidable (a.id = b.id))

/-- What the row of a document may hold. -/
def StorableContent (content : Fields) : Prop := ∀ s ∈ texts (.object content), StorableText s

instance : DecidablePred StorableContent := fun content ↦
  inferInstanceAs (Decidable (∀ s ∈ texts (.object content), StorableText s))

/-- The columns and the constraints of a row of web evidence. -/
def StorableEvidence (ctype : Ctype) (e : WebEvidenceWrite) : Prop :=
  (StorableText e.url ∧ StorableText e.title ∧ StorableText e.domain) ∧ UrlChecks ctype e.url

instance (ctype : Ctype) : DecidablePred (StorableEvidence ctype) := fun e ↦
  inferInstanceAs (Decidable
    ((StorableText e.url ∧ StorableText e.title ∧ StorableText e.domain) ∧ UrlChecks ctype e.url))

/-- The foreign keys of a citation. -/
def CitationRefers (anchors : List UUID) (segments : List GeneratedSegment)
    (webEvidence : List WebEvidenceWrite) (c : CitationWrite) : Prop :=
  (∃ s ∈ segments, s.id = c.segmentId) ∧
    match c.target with
    | .sourceAnchor id => id ∈ anchors
    | .webEvidence id => ∃ e ∈ webEvidence, e.id = id

instance (anchors : List UUID) (segments : List GeneratedSegment)
    (webEvidence : List WebEvidenceWrite) :
    DecidablePred (CitationRefers anchors segments webEvidence) := fun c ↦ by
  unfold CitationRefers
  split <;> infer_instance

def StorableClaim (anchors : List UUID) (c : ResearchClaim) : Prop :=
  c.sourceAnchorId ∈ anchors ∧ StorableText c.claimText ∧ StorableText c.explanation

instance (anchors : List UUID) : DecidablePred (StorableClaim anchors) := fun c ↦
  inferInstanceAs (Decidable
    (c.sourceAnchorId ∈ anchors ∧ StorableText c.claimText ∧ StorableText c.explanation))

section Insert

variable (w : GenerationWrites)

/-- The rows of the segments of a completion. -/
def GenerationWrites.segmentRows : List GeneratedSegment :=
  w.segments.map fun s ↦ ⟨s.id, w.documentId, s.ordinal, s.text⟩

def GenerationWrites.claimRows (runId : UUID) : List ResearchClaim :=
  w.researchClaims.map fun c ↦
    ⟨c.id, runId, c.claimText, c.sourceAnchorId, c.verdict, c.explanation⟩

/-- The inserts of `persist_success` after it has marked the run. -/
def GenerationWrites.insert (ctype : Ctype) (runId : UUID) (t : ContentTables) :
    Except Error ContentTables := do
  let documents ← insertRow (fun d : ContentDocument ↦ StorableContent d.content) documentsKey
    (.database "generated_documents_check") (.database "generated_documents_pkey") t.documents
    ⟨w.documentId, w.structuredContent⟩
  let segments ← w.segmentRows.foldlM (insertRow (fun s : GeneratedSegment ↦ StorableText s.text)
    segmentsKey (.database "generated_segments_check") (.database "generated_segments_key"))
    t.segments
  let webEvidence ← w.webEvidence.foldlM (insertRow (StorableEvidence ctype) evidenceKey
    (.database "web_evidence_check") (.database "web_evidence_pkey")) t.webEvidence
  let citations ← w.citations.foldlM (insertRow
    (CitationRefers t.sourceAnchors segments webEvidence) citationsKey
    (.database "citations_fkey") (.database "citations_pkey")) t.citations
  let researchClaims ← (w.claimRows runId).foldlM (insertRow (StorableClaim t.sourceAnchors)
    claimsKey (.database "research_claims_check") (.database "research_claims_pkey"))
    t.researchClaims
  .ok ⟨t.sourceAnchors, documents, segments, webEvidence, citations, researchClaims⟩

end Insert

/-! ## Reading a summary -/

/-- `_json_object_copy`: the copy of a value that can be written is equal to it. -/
def jsonObjectCopy (content : Fields) : Except Error Fields :=
  match tokens (.object content) with
  | .ok _ => .ok content
  | .error _ => .error (.generationRepository "persisted content is not JSON-safe")

/-- A value of the content that must be a dict. -/
def contentObject (message : String) : Json → Except Error Fields
  | .object fields => .ok fields
  | _ => .error (.generationRepository message)

/-- A value of the content that must be a list with items. -/
def contentItems (message : String) : Json → Except Error (List Json)
  | .array [] => .error (.generationRepository message)
  | .array items => .ok items
  | _ => .error (.generationRepository message)

/-- The items of one section of a summary. -/
def sectionItems (part : Json) : Except Error (List Fields) := do
  let fields ← contentObject "summary section is invalid" part
  require (ExactKeys ["heading", "items"] fields) (.generationRepository "summary section is invalid")
  let items ← contentItems "summary section items are invalid" (get fields "items")
  items.mapM (contentObject "summary item is invalid")

/-- The key and the id of a citation of a segment that names a source anchor. -/
def citationEntry (segment : GeneratedSegment) (c : CitationWrite) : Option ((ℕ × Str) × Str) :=
  match c.target with
  | .sourceAnchor anchorId =>
    if c.segmentId = segment.id then some ((segment.ordinal, uuidText anchorId), uuidText c.id)
    else none
  | .webEvidence _ => none

/-- The citations of the segments of a document that name a source anchor. The order of the rows is
left out: no two of them may have one key. -/
def sourceCitations (t : ContentTables) (documentId : UUID) : List ((ℕ × Str) × Str) :=
  (t.segments.filter (·.documentId = documentId)).flatMap fun segment ↦
    t.citations.filterMap (citationEntry segment)

/-- `citations_by_support`. -/
def citationsBySupport (rows : List ((ℕ × Str) × Str)) : Except Error (List ((ℕ × Str) × Str)) :=
  rows.foldlM (fun table row ↦ insertUnique (fun a b : (ℕ × Str) × Str ↦ a.1 = b.1)
    (fun _ ↦ .generationRepository "summary has duplicate support citations") row table) []

/-- One support of the item with the given ordinal gets its citation. -/
def citeSupport (bySupport : List ((ℕ × Str) × Str)) (ordinal : ℕ) (support : Json) :
    Except Error Json := do
  let fields ← contentObject "summary support is invalid" support
  match get fields "source_anchor_id" with
  | .str anchorId =>
    match bySupport.find? (·.1 = (ordinal, anchorId)) with
    | some row => .ok (.object (setItem fields (lit "citation_id", .str row.2)))
    | none => .error (.generationRepository "summary support citation is missing")
  | _ => .error (.generationRepository "summary support anchor is invalid")

/-- One item, with the ordinal that `enumerate` gives it. -/
def citeItem (bySupport : List ((ℕ × Str) × Str)) (p : Fields × ℕ) : Except Error Json := do
  let supports ← contentItems "summary item supports are invalid" (get p.1 "supports")
  let cited ← supports.mapM (citeSupport bySupport p.2)
  .ok (.object (setItem p.1 (lit "supports", .array cited)))

/-- The sections with the items that the loop has written to in place: `counts` has the number of
items of each section. -/
def putBack : List Fields → List ℕ → List Json → List Json
  | part :: parts, n :: counts, items =>
    .object (setItem part (lit "items", .array (items.take n))) :: putBack parts counts (items.drop n)
  | _, _, _ => []

/-- `_summary_content_with_citation_ids`. -/
def summaryContentWithCitationIds (t : ContentTables) (documentId : UUID) (stored : Fields) :
    Except Error Fields := do
  assertSummaryContentIsIsolated stored
  assertNoFixtureAliases stored
  let content ← jsonObjectCopy stored
  let sections ← contentItems "summary document sections are invalid" (get content "sections")
  let items ← sections.mapM sectionItems
  let bySupport ← citationsBySupport (sourceCitations t documentId)
  let cited ← items.flatten.zipIdx.mapM (citeItem bySupport)
  let parts ← sections.mapM (contentObject "summary section is invalid")
  .ok (setItem content
    (lit "sections", .array (putBack parts (items.map (·.length)) cited)))

/-- `get_summary_for_member`. -/
def getSummaryForMember (db : Database) (t : ContentTables) (sessionId actorId : UUID) :
    Except Error Fields := do
  let document ← memberDocument db sessionId actorId .summary
  match t.documents.find? (·.id = document.documentId) with
  | none => .error (.generationDocumentUnavailable "generated document is unavailable")
  | some row => do
    let content ← jsonObjectCopy row.content
    let structured ← summaryContentWithCitationIds t row.id content
    .ok (dict ((lit "snapshot_id", .str (uuidText document.snapshotId)) :: structured))

end MeetingRag
