import MeetingRag.Ingestion.Normalization

/-!
# The parser protocol

What an envelope of a parser has to be, said field by field and without an order of checks: a success
with its source, parser, blocks, anchors and warnings, or a failure. The host has two validators of
this one contract, and each is related to it in its own module.

`Locator`, `BlockHead` and `ResultHead` are also the places at which a validator may be when it meets a
value that makes Python raise, so they stand on their own.
-/

open Outcome Py Json

namespace MeetingRag

/-! ## What the host expects -/

inductive MediaType
  | text | pdf | png | jpeg | hwp | hwpx | docx | pptx | xlsx
deriving DecidableEq, Repr

def MediaType.value : MediaType → String
  | .text => "text/plain"
  | .pdf => "application/pdf"
  | .png => "image/png"
  | .jpeg => "image/jpeg"
  | .hwp => "application/x-hwp"
  | .hwpx => "application/x-hwpx"
  | .docx => "application/vnd.openxmlformats-officedocument.wordprocessingml.document"
  | .pptx => "application/vnd.openxmlformats-officedocument.presentationml.presentation"
  | .xlsx => "application/vnd.openxmlformats-officedocument.spreadsheetml.sheet"

inductive AnchorKind
  | textLine | pdfBlock | imageBbox | docxParagraph | xlsxCell | hwpParagraph
deriving DecidableEq, Repr

def AnchorKind.value : AnchorKind → String
  | .textLine => "text_line"
  | .pdfBlock => "pdf_block"
  | .imageBbox => "image_bbox"
  | .docxParagraph => "docx_paragraph"
  | .xlsxCell => "xlsx_cell"
  | .hwpParagraph => "hwp_paragraph"

theorem AnchorKind.value_injective : Function.Injective AnchorKind.value := by
  intro a b h
  cases a <;> cases b <;> first | rfl | exact absurd h (by decide)

/-- `_ANCHOR_KIND_BY_MEDIA_TYPE`. -/
def anchorKind : MediaType → AnchorKind
  | .text => .textLine
  | .pdf | .pptx => .pdfBlock
  | .png | .jpeg => .imageBbox
  | .hwp | .hwpx => .hwpParagraph
  | .docx => .docxParagraph
  | .xlsx => .xlsxCell

/-- Text that the protocol admits: bounded, normalized, and without a lone surrogate. -/
structure ProtocolText (U : Nfc) (maximum : ℤ) (s : Str) : Prop where
  nonempty : s ≠ []
  bounded : s.length ≤ maximum
  normalized : U.normalizeText s = s
  scalar : Scalar s

/-- Spelled-out ASCII text is protocol text. -/
theorem protocolText_lit (U : Nfc) {maximum : ℤ} {s : String} (hne : lit s ≠ [])
    (hbound : (lit s).length ≤ maximum) (hprint : Printable (lit s)) :
    ProtocolText U maximum (lit s) :=
  ⟨hne, hbound, U.normalizeText_ascii hprint, scalar_lit s⟩

theorem ProtocolText.textFingerprint {U : Nfc} {maximum : ℤ} {s : Str} (h : ProtocolText U maximum s) :
    textFingerprint U s = .ok (sha256Hex (encodeUtf8 s)) := by
  rw [MeetingRag.textFingerprint, h.normalized, encode_of_scalar h.scalar, ok_bind]

theorem protocolText_value (U : Nfc) (kind : AnchorKind) : ProtocolText U 128 (lit kind.value) := by
  cases kind <;> exact protocolText_lit U (by decide) (by decide) (by decide)

/-- The pinned parser that the host expects. -/
structure ParserIdentity (U : Nfc) where
  name : Str
  version : Str
  nameText : ProtocolText U 128 name
  versionText : ProtocolText U 128 version

/-- The bounds on the blocks of a result. -/
structure Bounds where
  maxBlocks : ℤ
  maxBlockChars : ℤ
  maxTotalChars : ℤ

/-- What the host knows of a run before it reads what the parser sent. -/
structure Expected (U : Nfc) where
  sourceSha256 : Str
  mediaType : MediaType
  parser : ParserIdentity U
  bounds : Bounds

/-! ## Fields -/

section Fields

variable (U : Nfc)

def IsText (maximum : ℤ) (v : Json) : Prop := ∃ s, v = .str s ∧ ProtocolText U maximum s

def IsHash (v : Json) : Prop := ∃ s, v = .str s ∧ IsSha256 s

def IsIndex (minimum : ℤ) (v : Json) : Prop := ∃ n, v = .int n ∧ minimum ≤ n

/-- Four numbers of the unit interval that enclose an area. -/
def IsBbox (v : Json) : Prop :=
  ∃ a b c d left top right bottom, v = .array [a, b, c, d] ∧ unit? a = some left ∧
    unit? b = some top ∧ unit? c = some right ∧ unit? d = some bottom ∧ left < right ∧ top < bottom

def IsConfidence (v : Json) : Prop := v = .null ∨ (unit? v).isSome

/-- A path of indexes, one under each name. -/
def IsPath (names : List String) (v : Json) : Prop :=
  ∃ path, v = .object path ∧ ExactKeys names path ∧ ∀ name ∈ names, IsIndex 0 (get path name)

/-! ## Locators -/

def TextLocator (fields : Fields) : Prop :=
  ExactKeys ["line", "start", "end"] fields ∧ IsIndex 1 (get fields "line") ∧
    ∃ m n, get fields "start" = .int m ∧ get fields "end" = .int n ∧ 0 ≤ m ∧ m < n

/-- A PDF locator up to its box. -/
def PdfLocatorHead (fields : Fields) : Prop :=
  ExactKeys ["page", "block_id", "bbox"] fields ∧ IsIndex 0 (get fields "page") ∧
    IsText U 128 (get fields "block_id")

/-- An image locator up to its box. -/
def ImageLocatorHead (fields : Fields) : Prop :=
  ExactKeys ["image_id", "bbox"] fields ∧ IsText U 128 (get fields "image_id")

def DocxLocator (fields : Fields) : Prop :=
  Has fields "paragraph" ∧ KeysIn ["paragraph", "table"] fields ∧
    IsIndex 0 (get fields "paragraph") ∧
    (Has fields "table" → IsPath ["index", "row", "cell", "paragraph"] (get fields "table"))

def XlsxLocator (fields : Fields) : Prop :=
  ExactKeys ["sheet", "cell", "row", "column"] fields ∧ IsText U 128 (get fields "sheet") ∧
    IsText U 128 (get fields "cell") ∧ IsIndex 1 (get fields "row") ∧ IsIndex 1 (get fields "column")

def HwpLocator (parser : ParserIdentity U) (fields : Fields) : Prop :=
  (∀ name ∈ ["parser", "parser_version", "section", "paragraph"], Has fields name) ∧
    KeysIn ["parser", "parser_version", "section", "paragraph", "table", "footnote"] fields ∧
    get fields "parser" = .str parser.name ∧ get fields "parser_version" = .str parser.version ∧
    IsIndex 0 (get fields "section") ∧ IsIndex 0 (get fields "paragraph") ∧
    ¬(Has fields "table" ∧ Has fields "footnote") ∧
    (Has fields "table" → IsPath ["index", "block", "row", "cell", "paragraph"] (get fields "table")) ∧
    (Has fields "footnote" → IsPath ["index", "paragraph"] (get fields "footnote"))

def Locator (parser : ParserIdentity U) : AnchorKind → Fields → Prop
  | .textLine, fields => TextLocator fields
  | .pdfBlock, fields => PdfLocatorHead U fields ∧ IsBbox (get fields "bbox")
  | .imageBbox, fields => ImageLocatorHead U fields ∧ IsBbox (get fields "bbox")
  | .docxParagraph, fields => DocxLocator fields
  | .xlsxCell, fields => XlsxLocator U fields
  | .hwpParagraph, fields => HwpLocator U parser fields

end Fields

/-! ## Blocks -/

section Blocks

variable {U : Nfc} (expected : Expected U)

/-- An anchor up to its locator. -/
structure AnchorHead (profile text kind : Str) (anchor : Fields) : Prop where
  keys : ExactKeys ["schema_version", "kind", "source_sha256", "extraction_profile_hash", "locator",
    "text_fingerprint"] anchor
  schemaVersion : EqInt 1 (get anchor "schema_version")
  kindField : get anchor "kind" = .str kind
  source : get anchor "source_sha256" = .str expected.sourceSha256
  profileField : get anchor "extraction_profile_hash" = .str profile
  fingerprint : get anchor "text_fingerprint" = .str (sha256Hex (encodeUtf8 text))

structure IsAnchor (profile text : Str) (anchor : Fields) : Prop extends
    AnchorHead expected profile text (lit (anchorKind expected.mediaType).value) anchor where
  locator : ∃ fields, get anchor "locator" = .object fields ∧
    Locator U expected.parser (anchorKind expected.mediaType) fields

/-- A block up to its confidence. -/
structure BlockHead (ordinal : ℕ) (text : Str) (block : Fields) : Prop where
  keys : ExactKeys ["ordinal", "text", "block_type", "confidence", "anchor", "anchor_hash"] block
  ordinalField : EqInt ordinal (get block "ordinal")
  textField : get block "text" = .str text
  textOk : ProtocolText U expected.bounds.maxBlockChars text
  blockType : IsText U 64 (get block "block_type")

/-- A block with its text and the hash of its anchor. -/
structure IsBlock (profile : Str) (ordinal : ℕ) (text hash : Str) (block : Fields) : Prop extends
    BlockHead expected ordinal text block where
  confidence : IsConfidence (get block "confidence")
  anchorField : ∃ anchor, get block "anchor" = .object anchor ∧ IsAnchor expected profile text anchor ∧
    canonicalSha256 U "" (.object anchor) = .ok hash
  anchorHash : get block "anchor_hash" = .str hash

/-- The blocks from the ordinal `n` on, each with its text and the hash of its anchor. -/
def AreBlocks (profile : Str) (n : ℕ) (blocks : List Json) (rows : List (Str × Str)) : Prop :=
  List.Forall₂ (fun p row ↦ ∃ block, p.1 = .object block ∧
    IsBlock expected profile p.2 row.1 row.2 block) (blocks.zipIdx n) rows

/-- The characters in the texts of some blocks. -/
def totalChars (rows : List (Str × Str)) : ℕ := (rows.map fun row ↦ row.1.length).sum

end Blocks

/-! ## Envelopes -/

section Envelopes

/-- `_WARNING_CODES`. -/
def warningCodes : List String := ["LOW_CONFIDENCE", "PARTIAL_EXTRACTION", "FOOTNOTE_UNRESOLVED"]

/-- `_ERROR_CODES` and `_PARSER_FAILURE_CODES`. -/
def errorCodes : List String :=
  ["EMPTY_INPUT", "INPUT_TOO_LARGE", "UNSUPPORTED_MEDIA_TYPE", "TYPE_MISMATCH",
    "DEPENDENCY_UNAVAILABLE", "CORRUPT_DOCUMENT", "ENCRYPTED_DOCUMENT", "IMAGE_PIXEL_LIMIT",
    "PDF_PAGE_LIMIT", "INVALID_COORDINATE", "ZIP_EXPANSION_LIMIT", "XML_DTD_FORBIDDEN",
    "OCR_REQUIRED", "OCR_TIMEOUT", "OCR_FAILED", "NO_EXTRACTABLE_TEXT", "OUTPUT_TOO_LARGE",
    "INTERNAL_ERROR"]

/-- The payload whose hash is the anchor set hash. -/
def anchorSet (hashes : List Str) : Json :=
  .object [(lit "schema_version", .int 1), (lit "anchor_hashes", .array (hashes.map .str))]

variable {U : Nfc} (expected : Expected U)

/-- A warning about one of `count` blocks, or about none. -/
def IsWarning (U : Nfc) (count : ℕ) (v : Json) : Prop :=
  ∃ warning, v = .object warning ∧ ExactKeys ["code", "message", "block_ordinal"] warning ∧
    (get warning "code").OneOf warningCodes ∧ IsText U 512 (get warning "message") ∧
    (get warning "block_ordinal" = .null ∨
      ∃ n : ℤ, get warning "block_ordinal" = .int n ∧ 0 ≤ n ∧ n < count)

/-- A result up to its blocks. -/
structure ResultHead (profile : Str) (blocks : List Json) (result : Fields) : Prop where
  keys : ExactKeys ["source_sha256", "media_type", "parser", "normalization_profile",
    "config_profile_hash", "anchor_set_hash", "blocks", "warnings"] result
  source : get result "source_sha256" = .str expected.sourceSha256
  mediaType : get result "media_type" = .str (lit expected.mediaType.value)
  parser : ∃ parser, get result "parser" = .object parser ∧ ExactKeys ["name", "version"] parser ∧
    get parser "name" = .str expected.parser.name ∧
    get parser "version" = .str expected.parser.version
  normalization : get result "normalization_profile" = .str (lit "nfc-lf-v1")
  profileField : get result "config_profile_hash" = .str profile
  profileHash : IsSha256 profile
  anchorSetHash : IsHash (get result "anchor_set_hash")
  blocksField : get result "blocks" = .array blocks
  nonempty : blocks ≠ []
  bounded : blocks.length ≤ expected.bounds.maxBlocks

/-- A result with the text and the anchor hash of each block. -/
structure IsResult (profile : Str) (blocks : List Json) (rows : List (Str × Str)) (result : Fields) :
    Prop extends ResultHead expected profile blocks result where
  areBlocks : AreBlocks expected profile 0 blocks rows
  total : totalChars rows ≤ expected.bounds.maxTotalChars
  anchorSet : ∃ hash, canonicalSha256 U "" (MeetingRag.anchorSet (rows.map Prod.snd)) = .ok hash ∧
    get result "anchor_set_hash" = .str hash
  warnings : ∃ warnings, get result "warnings" = .array warnings ∧
    ∀ w ∈ warnings, IsWarning U blocks.length w

/-- The header of an envelope that says whether the parser succeeded. -/
def Header (ok : Bool) (payload : Fields) : Prop :=
  EqInt 1 (get payload "schema_version") ∧ get payload "ok" = .bool ok

/-- The envelope of a success, with the text and the anchor hash of each block. -/
def IsSuccess (rows : List (Str × Str)) (payload : Fields) : Prop :=
  Header true payload ∧ ExactKeys ["schema_version", "ok", "result"] payload ∧
    ∃ result profile blocks, get payload "result" = .object result ∧
      IsResult expected profile blocks rows result

/-- The envelope of a failure. -/
def IsFailure (U : Nfc) (payload : Fields) : Prop :=
  Header false payload ∧ ExactKeys ["schema_version", "ok", "error"] payload ∧
    ∃ error, get payload "error" = .object error ∧ ExactKeys ["code", "message", "retryable"] error ∧
      (get error "code").OneOf errorCodes ∧
      (∃ message, get error "message" = .str message ∧ ProtocolText U 512 message ∧
        (10 : CodePoint) ∉ message) ∧
      ∃ b, get error "retryable" = .bool b

end Envelopes

end MeetingRag
