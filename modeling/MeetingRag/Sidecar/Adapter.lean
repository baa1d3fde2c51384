import MeetingRag.Ingestion.Parsing
import MeetingRag.Sidecar.Writer

/-!
# The adapter of the HWP sidecar

The adapter reads the output of the sidecar as JSON, demands every field, builds an anchor and a block
for each record, and checks the result as a whole. A failure of the protocol is one message; what the
checks of the models raise is a `ValueError` that nobody turns into one.
-/

open Outcome Py Py.Json

namespace MeetingRag

namespace Sidecar

/-- What leaves the adapter as an exception. -/
inductive AdapterError
  | extraction (code message : String)
  | uncaught (e : Exc)

/-- `_protocol_failure`. -/
def protocolFailure : AdapterError :=
  .extraction "INTERNAL_ERROR" "HWP sidecar returned an invalid protocol response"

/-- An exception of Python that nothing catches. -/
def raising {α : Type} : Except Exc α → Except AdapterError α
  | .ok a => .ok a
  | .error e => .error (.uncaught e)

/-! ## JSON -/

def isByteSpace (b : UInt8) : Bool := b ∈ ([9, 10, 11, 12, 13, 32] : List UInt8)

/-- `raw.strip()`. -/
def stripBytes (raw : List UInt8) : List UInt8 := (raw.dropWhile isByteSpace).rdropWhile isByteSpace

/-- The line end that the sidecar adds. -/
def dropLineEnd (raw : List UInt8) : List UInt8 :=
  if [13, 10] <:+ raw then raw.take (raw.length - 2)
  else if [10] <:+ raw then raw.take (raw.length - 1)
  else raw

def requireMapping : Json → Except AdapterError Fields
  | .object fields => .ok fields
  | _ => .error protocolFailure

/-- `_parse_json_object`. -/
def parseJsonObject (limit : ℕ) (raw : List UInt8) : Except AdapterError Fields := do
  let raw := dropLineEnd raw
  require (raw ≠ [] ∧ raw = stripBytes raw) protocolFailure
  match loadsUtf8 (strictHooks "duplicate JSON key" "non-finite JSON number") limit raw with
  | .ok parsed => requireMapping parsed
  | .error e => .error (if e.IsValueError then protocolFailure else .uncaught e)

def requireExactKeys (names : List String) (raw : Fields) : Except AdapterError Unit :=
  require (ExactKeys names raw) protocolFailure

/-- `_require_index`. -/
def requireIndex : Json → Except AdapterError ℕ
  | .int n => if 0 ≤ n then .ok n.toNat else .error protocolFailure
  | _ => .error protocolFailure

/-- `_require_text`. -/
def requireText (U : Nfc) (maximum : ℕ) : Json → Except AdapterError Str
  | .str s => do
    require (s ≠ [] ∧ s.length ≤ maximum ∧ U.normalizeText s = s) protocolFailure
    .ok s
  | _ => .error protocolFailure

/-- `kind not in {…}`, which raises for a list or an object. -/
def requireKind : Json → Except AdapterError RecordKind
  | .str s =>
    match [RecordKind.paragraph, .tableCell, .footnote].find? fun kind ↦ lit kind.value = s with
    | some kind => .ok kind
    | none => .error protocolFailure
  | .array _ | .object _ => .error (.uncaught .typeError)
  | _ => .error protocolFailure

/-- The fields of a locator besides its section and paragraph. -/
def pathNames : RecordKind → List String
  | .paragraph => []
  | .tableCell => ["cell", "cell_paragraph", "table", "table_block", "table_row"]
  | .footnote => ["footnote", "footnote_paragraph"]

/-- `_parse_locator`. -/
def parseLocator (kind : RecordKind) (raw : Json) : Except AdapterError Locator := do
  let locator ← requireMapping raw
  requireExactKeys ("paragraph" :: "section" :: pathNames kind) locator
  let sectionIndex ← requireIndex (get locator "section")
  let paragraph ← requireIndex (get locator "paragraph")
  match kind with
  | .paragraph => .ok ⟨sectionIndex, paragraph, .body⟩
  | .tableCell => do
    let table ← requireIndex (get locator "table")
    let tableBlock ← requireIndex (get locator "table_block")
    let tableRow ← requireIndex (get locator "table_row")
    let cell ← requireIndex (get locator "cell")
    let cellParagraph ← requireIndex (get locator "cell_paragraph")
    .ok ⟨sectionIndex, paragraph, .table table tableBlock tableRow cell cellParagraph⟩
  | .footnote => do
    let footnote ← requireIndex (get locator "footnote")
    let footnoteParagraph ← requireIndex (get locator "footnote_paragraph")
    .ok ⟨sectionIndex, paragraph, .footnote footnote footnoteParagraph⟩

/-! ## Anchors and blocks -/

/-- `HwpParagraphAnchor`. -/
structure HwpParagraphAnchor where
  sourceSha256 : Str
  extractionProfileHash : Str
  parser : Str
  parserVersion : Str
  locator : Locator
  textFingerprint : Str
deriving DecidableEq

section Models

variable (U : Nfc)

def requireIdentifier (label : String) (value : Str) : Except Exc Unit :=
  check (value ≠ [] ∧ value.length ≤ 128 ∧ U.normalizeText value = value)
    (label ++ " must be non-empty normalized text up to 128 characters")

def requireSha256 (label : String) (value : Str) : Except Exc Unit :=
  check (IsSha256 value) (label ++ " must be lowercase SHA-256 hex")

/-- `HwpParagraphAnchor.from_text`, with `__post_init__`. Paths are complete and exclusive by type. -/
def HwpParagraphAnchor.fromText (source profile parser parserVersion : Str) (locator : Locator)
    (text : Str) : Except Exc HwpParagraphAnchor := do
  let normalized := U.normalizeText text
  check (normalized ≠ []) "HWP anchor text must not be empty"
  let fingerprint ← MeetingRag.textFingerprint U normalized
  requireSha256 "anchor source_sha256" source
  requireSha256 "anchor extraction_profile_hash" profile
  requireIdentifier U "HWP parser" parser
  requireIdentifier U "HWP parser_version" parserVersion
  requireSha256 "anchor text_fingerprint" fingerprint
  .ok ⟨source, profile, parser, parserVersion, locator, fingerprint⟩

def tableDict (table tableBlock tableRow cell cellParagraph : ℕ) : List (String × Json) :=
  [("index", .int table), ("block", .int tableBlock), ("row", .int tableRow), ("cell", .int cell),
    ("paragraph", .int cellParagraph)]

def footnoteDict (footnote footnoteParagraph : ℕ) : List (String × Json) :=
  [("index", .int footnote), ("paragraph", .int footnoteParagraph)]

/-- The path in the `locator` of `to_dict`. -/
def pathDict : LocatorPath → List (String × Json)
  | .body => []
  | .table table tableBlock tableRow cell cellParagraph =>
    [("table", .object (obj (tableDict table tableBlock tableRow cell cellParagraph)))]
  | .footnote footnote footnoteParagraph =>
    [("footnote", .object (obj (footnoteDict footnote footnoteParagraph)))]

def HwpParagraphAnchor.locatorDict (a : HwpParagraphAnchor) : List (String × Json) :=
  ("parser", .str a.parser) :: ("parser_version", .str a.parserVersion) ::
    ("section", .int a.locator.sectionIndex) :: ("paragraph", .int a.locator.paragraph) ::
    pathDict a.locator.path

def HwpParagraphAnchor.fields (a : HwpParagraphAnchor) : List (String × Json) :=
  [("schema_version", .int 1), ("kind", .str (lit "hwp_paragraph")),
    ("source_sha256", .str a.sourceSha256),
    ("extraction_profile_hash", .str a.extractionProfileHash),
    ("locator", .object (obj a.locatorDict)), ("text_fingerprint", .str a.textFingerprint)]

def HwpParagraphAnchor.toDict (a : HwpParagraphAnchor) : Json := .object (obj a.fields)

def keyCollision : String := "canonical JSON contains colliding normalized keys"

def HwpParagraphAnchor.anchorHash (a : HwpParagraphAnchor) : Except Exc Str :=
  canonicalSha256 U keyCollision a.toDict

/-- `ExtractedBlock`, whose confidence is `None`. -/
structure ExtractedBlock where
  ordinal : ℕ
  text : Str
  blockType : Str
  anchor : HwpParagraphAnchor
deriving DecidableEq

def ExtractedBlock.make (ordinal : ℕ) (text blockType : Str) (anchor : HwpParagraphAnchor) :
    Except Exc ExtractedBlock := do
  check (text ≠ [] ∧ U.normalizeText text = text) "block text must be non-empty normalized text"
  check (blockType ≠ [] ∧ blockType.length ≤ 64) "block_type must contain 1 to 64 characters"
  .ok ⟨ordinal, text, blockType, anchor⟩

/-- `ExtractionWarning`, whose block ordinal is `None`. -/
structure ExtractionWarning where
  code : String
  message : Str
deriving DecidableEq

def ExtractionWarning.make (code : String) (message : Str) : Except Exc ExtractionWarning := do
  let normalized := U.normalizeText message
  check (normalized ≠ [] ∧ normalized.length ≤ 512 ∧ normalized = message ∧ (10 : CodePoint) ∉ normalized)
    "warning message must be a normalized single line up to 512 characters"
  .ok ⟨code, message⟩

/-- The media types of `_PARSER_BY_MEDIA`. -/
inductive HwpMedia
  | hwp | hwpx
deriving DecidableEq, Repr

/-- The pinned parser: its name and its version. -/
def HwpMedia.parser : HwpMedia → String × String
  | hwp => ("hwplib", "1.1.10")
  | hwpx => ("hwpxlib", "1.0.9")

structure ExtractionResult where
  sourceSha256 : Str
  mediaType : HwpMedia
  parserName : Str
  parserVersion : Str
  normalizationProfile : Str
  configProfileHash : Str
  blocks : List ExtractedBlock
  warnings : List ExtractionWarning

/-- The round of `__post_init__` for one block: its checks, and the hash of its anchor. -/
def ExtractionResult.blockHash (r : ExtractionResult) (block : ExtractedBlock) : Except Exc Str := do
  check (block.anchor.sourceSha256 = r.sourceSha256) "block anchor belongs to a different source"
  check (block.anchor.extractionProfileHash = r.configProfileHash)
    "block anchor belongs to a different extraction profile"
  let fingerprint ← textFingerprint U block.text
  check (block.anchor.textFingerprint = fingerprint)
    "block text does not match its anchor fingerprint"
  block.anchor.anchorHash U

/-- `ExtractionResult.__post_init__`. -/
def ExtractionResult.validate (r : ExtractionResult) : Except Exc ExtractionResult := do
  check (IsSha256 r.sourceSha256) "source_sha256 must be lowercase SHA-256 hex"
  check (IsSha256 r.configProfileHash) "config_profile_hash must be lowercase SHA-256 hex"
  [("parser_name", r.parserName), ("parser_version", r.parserVersion),
    ("normalization_profile", r.normalizationProfile)].forM fun label ↦
      check (label.2 ≠ [] ∧ label.2.length ≤ 128 ∧ U.normalizeText label.2 = label.2)
        (label.1 ++ " must be normalized text up to 128 characters")
  check (r.blocks ≠ []) "successful extraction must contain at least one block"
  check (r.blocks.map (·.ordinal) = List.range r.blocks.length)
    "block ordinals must be contiguous from zero"
  let hashes ← r.blocks.mapM (r.blockHash U)
  check hashes.Nodup "successful extraction contains duplicate anchors"
  .ok r

end Models

/-! ## `_parse_success` -/

/-- The bounds of an `ExtractionPolicy` on a result. -/
structure OutputPolicy where
  maxBlocks : ℕ
  maxBlockChars : ℕ
  maxTotalChars : ℕ

/-- The defaults. -/
def defaultPolicy : OutputPolicy := ⟨10000, 100000, 1000000⟩

/-- What the adapter expects: the hash of the file, `hwp_config_profile_hash` and the media type. -/
structure Expectation where
  sourceSha256 : Str
  profileHash : Str
  mediaType : HwpMedia
  isSource : IsSha256 sourceSha256
  isProfile : IsSha256 profileHash

section Success

variable (U : Nfc) (policy : OutputPolicy) (expected : Expectation)

/-- One round of the loop over the records. -/
def parseRecord (state : List ExtractedBlock × ℕ) (rawRecord : Json) :
    Except AdapterError (List ExtractedBlock × ℕ) := do
  let (blocks, totalChars) := state
  let record ← requireMapping rawRecord
  requireExactKeys ["kind", "locator", "text", "text_fingerprint"] record
  let kind ← requireKind (get record "kind")
  let text ← requireText U policy.maxBlockChars (get record "text")
  require (totalChars + text.length ≤ policy.maxTotalChars)
    (.extraction "OUTPUT_TOO_LARGE" "HWP extraction exceeds configured character limit")
  let fingerprint ← raising (textFingerprint U text)
  require (EqStr fingerprint (get record "text_fingerprint")) protocolFailure
  let locator ← parseLocator kind (get record "locator")
  let anchor ← raising (HwpParagraphAnchor.fromText U expected.sourceSha256 expected.profileHash
    (lit expected.mediaType.parser.1) (lit expected.mediaType.parser.2) locator text)
  let block ← raising (ExtractedBlock.make U blocks.length text (lit "hwp_" ++ lit kind.value) anchor)
  .ok (blocks ++ [block], totalChars + text.length)

/-- One round of the loop over the warnings. -/
def parseWarning (blocks : List ExtractedBlock) (warnings : List ExtractionWarning)
    (rawWarning : Json) : Except AdapterError (List ExtractionWarning) := do
  if EqStr (lit "NO_EXTRACTABLE_TEXT") rawWarning then
    require (blocks = []) protocolFailure
    .ok warnings
  else if EqStr (lit "UNSUPPORTED_ENDNOTE") rawWarning then do
    let warning ← raising (ExtractionWarning.make U "PARTIAL_EXTRACTION"
      (lit "HWP endnotes were not extracted by the pinned parser"))
    .ok (warnings ++ [warning])
  else if EqStr (lit "NESTED_CONTROL_SKIPPED") rawWarning then do
    let warning ← raising (ExtractionWarning.make U "PARTIAL_EXTRACTION"
      (lit "unsupported nested HWP controls were skipped"))
    .ok (warnings ++ [warning])
  else .error protocolFailure

def requireArray (maximum : ℕ) : Json → Except AdapterError (List Json)
  | .array items => do
    require (items.length ≤ maximum) protocolFailure
    .ok items
  | _ => .error protocolFailure

/-- `_parse_success`, up to the records. -/
def parseHead (payload : Fields) : Except AdapterError Unit := do
  requireExactKeys ["extraction_profile_hash", "ok", "parser", "records", "schema_version",
    "source_sha256", "warnings"] payload
  require (EqStr (lit "hwp-sidecar.v1") (get payload "schema_version")) protocolFailure
  require (EqStr expected.sourceSha256 (get payload "source_sha256")) protocolFailure
  require (EqStr expected.profileHash (get payload "extraction_profile_hash")) protocolFailure
  let parser ← requireMapping (get payload "parser")
  requireExactKeys ["name", "version"] parser
  require (EqStr (lit expected.mediaType.parser.1) (get parser "name") ∧
    EqStr (lit expected.mediaType.parser.2) (get parser "version")) protocolFailure

/-- `_parse_success`. -/
def parseSuccess (payload : Fields) : Except AdapterError ExtractionResult := do
  parseHead expected payload
  let rawRecords ← requireArray policy.maxBlocks (get payload "records")
  let (blocks, _) ← rawRecords.foldlM (parseRecord U policy expected) ([], 0)
  let rawWarnings ← requireArray 128 (get payload "warnings")
  let warnings ← rawWarnings.foldlM (parseWarning U blocks) []
  require (blocks ≠ [])
    (.extraction "NO_EXTRACTABLE_TEXT" "HWP document contains no extractable text")
  raising (ExtractionResult.validate U ⟨expected.sourceSha256, expected.mediaType,
    lit expected.mediaType.parser.1, lit expected.mediaType.parser.2, lit "nfc-lf-v1",
    expected.profileHash, blocks, warnings⟩)

/-- The end of `extract`, for a sidecar that ended with exit code 0 and said nothing else. -/
def readOutput (limit : ℕ) (stdout : List UInt8) : Except AdapterError ExtractionResult := do
  let payload ← parseJsonObject limit stdout
  match get payload "ok" with
  | .bool true => parseSuccess U policy expected payload
  | _ => .error protocolFailure

end Success

end Sidecar

end MeetingRag
