import MeetingRag.Ingestion.CellReferences
import MeetingRag.Ingestion.Docx

/-!
# The extractor of XLSX documents

`XlsxExtractor` reads the sheets of a workbook in the order in which they are listed, and the cells of a
sheet in document order. A cell has the text of its shared string, of its inline string, of its value, or
of its formula. Every cell with a text becomes a block, until a block would exceed one of the two limits of
the policy: then a warning is given, and nothing after it is read.

The parts of the package are parsed here. A part that cannot be read or parsed raises a typed failure.

## Main results

* `walkCells_spec`, `walkSheets_spec`: what the two loops have done when they return.
* `extract_truncates`: the blocks are the longest prefix of the cells with text that fits the limits, and
  the warning says whether it is all of them.
-/

open Outcome Py Py.Json

namespace MeetingRag

namespace Xlsx

/-! ## Names -/

/-- `_xml_local_name`. -/
def localName (tag : String) : String :=
  if tag.toList.head? = some '\x7b' then String.ofList (tag.toList.rtakeWhile (· ≠ '\x7d')) else tag

/-- `_xml_namespace`. -/
def xmlNamespace (tag : String) : Option String :=
  if tag.toList.head? = some '\x7b' ∧ '\x7d' ∈ tag.toList then
    some (String.ofList (tag.toList.tail.takeWhile (· ≠ '\x7d')))
  else none

def xlsxNamespaces : List String :=
  ["http://schemas.openxmlformats.org/spreadsheetml/2006/main",
    "http://purl.oclc.org/ooxml/spreadsheetml/main"]

def docRelNamespaces : List String :=
  ["http://schemas.openxmlformats.org/officeDocument/2006/relationships",
    "http://purl.oclc.org/ooxml/officeDocument/relationships"]

def pkgRelNamespaces : List String :=
  ["http://schemas.openxmlformats.org/package/2006/relationships",
    "http://purl.oclc.org/ooxml/package/relationships"]

def relTypeWorksheet : List String :=
  ["http://schemas.openxmlformats.org/officeDocument/2006/relationships/worksheet",
    "http://purl.oclc.org/ooxml/officeDocument/relationships/worksheet"]

/-- `_is_allowed_xml_tag`. -/
def isAllowedXmlTag (namespaces : List String) (name tag : String) : Bool :=
  localName tag = name && (xmlNamespace tag).any (· ∈ namespaces)

/-- `element.attrib` and `element.text`. -/
def attributes : XmlElement → List (String × Str)
  | .mk _ attributes _ _ => attributes

def text : XmlElement → Option Str
  | .mk _ _ text _ => text

/-- `_children` and `_child`. -/
def childrenOf (namespaces : List String) (name : String) (root : XmlElement) : List XmlElement :=
  root.children.filter fun node ↦ isAllowedXmlTag namespaces name node.tag

def childOf (namespaces : List String) (name : String) (root : XmlElement) : Option XmlElement :=
  root.children.find? fun node ↦ isAllowedXmlTag namespaces name node.tag

mutual

/-- `_descendants`: an element itself and what is below it, in document order. -/
def descendants (namespaces : List String) (name : String) : XmlElement → List XmlElement
  | .mk tag attributes text children =>
    (if isAllowedXmlTag namespaces name tag then [.mk tag attributes text children] else []) ++
      descendantsIn namespaces name children

def descendantsIn (namespaces : List String) (name : String) : List XmlElement → List XmlElement
  | [] => []
  | child :: rest => descendants namespaces name child ++ descendantsIn namespaces name rest

end

/-! ## Numerals -/

/-- `str.isdigit` for one code point, and the value of a decimal digit. A superscript is a digit without
a decimal value. -/
structure Digits where
  isDigit : CodePoint → Bool
  decimal : CodePoint → Option ℕ
  isDigit_ascii : ∀ c, c.val < 0x80 → (isDigit c = true ↔ 48 ≤ c.val ∧ c.val ≤ 57)
  decimal_ascii : ∀ c, 48 ≤ c.val → c.val ≤ 57 → decimal c = some (c.val - 48)

/-- The longest numeral that `int` reads. -/
def maxNumeralDigits : ℕ := 4300

/-- `int(text)`, for a text of digits; `none` is a `ValueError`. -/
def Digits.int (D : Digits) (text : Str) : Option ℕ :=
  if text.length ≤ maxNumeralDigits then (text.mapM D.decimal).map digitsValue else none

/-! ## Blocks -/

/-- `XlsxCellAnchor`. -/
structure XlsxCellAnchor where
  sourceSha256 : Str
  extractionProfileHash : Str
  sheet : Str
  cell : Str
  row : ℕ
  column : ℕ
  textFingerprint : Str
deriving DecidableEq

/-- `to_dict`. -/
def XlsxCellAnchor.toDict (a : XlsxCellAnchor) : Json :=
  .object (obj [("schema_version", .int 1), ("kind", .str (lit "xlsx_cell")),
    ("source_sha256", .str a.sourceSha256),
    ("extraction_profile_hash", .str a.extractionProfileHash),
    ("locator", .object (obj [("sheet", .str a.sheet), ("cell", .str a.cell), ("row", .int a.row),
      ("column", .int a.column)])),
    ("text_fingerprint", .str a.textFingerprint)])

/-- `ExtractedBlock`, whose type is `xlsx_cell` and whose confidence is 1. -/
structure ExtractedBlock where
  ordinal : ℕ
  text : Str
  anchor : XlsxCellAnchor
deriving DecidableEq

/-- The one warning of the extractor, with its block. -/
structure TruncationWarning where
  blockOrdinal : Option ℕ
deriving DecidableEq

/-- `ExtractionResult`. -/
structure ExtractionResult where
  sourceSha256 : Str
  configProfileHash : Str
  blocks : List ExtractedBlock
  warnings : List TruncationWarning
deriving DecidableEq

/-- The limits of the policy that the extractor reads. -/
structure Limits where
  maxBlocks : ℕ
  maxBlockChars : ℕ
  maxTotalChars : ℕ

abbrev XlsxError := Docx.ExtractionError

def corrupt (message : String) : XlsxError := .failure ⟨"CORRUPT_DOCUMENT", message⟩

/-- A typed failure, and an exception of another type. -/
def typed {α : Type} : Except ExtractionFailure α → Except XlsxError α
  | .ok a => .ok a
  | .error f => .error (.failure f)

def untyped {α : Type} : Except Exc α → Except XlsxError α
  | .ok a => .ok a
  | .error e => .error (.exc e)

section Extractor

variable (U : Nfc) (L : Letters) (D : Digits) (source : Docx.Source) (limits : Limits)

/-- `_require_identifier`. -/
def requireIdentifier (label : String) (value : Str) : Except Exc Unit :=
  check (value ≠ [] ∧ value.length ≤ 128 ∧ U.normalizeText value = value)
    (label ++ " must be non-empty normalized text up to 128 characters")

/-- `XlsxCellAnchor.from_text`. The digests of the source have been checked. -/
def anchorFromText (sheet cell : Str) (row column : ℕ) (text : Str) : Except Exc XlsxCellAnchor := do
  check (U.normalizeText text ≠ []) "XLSX anchor text must not be empty"
  let fingerprint ← textFingerprint U (U.normalizeText text)
  requireIdentifier U "XLSX sheet" sheet
  requireIdentifier U "XLSX cell" cell
  check (1 ≤ row) "XLSX row must be an integer >= 1"
  check (1 ≤ column) "XLSX column must be an integer >= 1"
  .ok ⟨source.sha256, source.profileHash, sheet, cell, row, column, fingerprint⟩

/-- `ExtractedBlock(…)`. -/
def newBlock (ordinal : ℕ) (text : Str) (anchor : XlsxCellAnchor) : Except Exc ExtractedBlock := do
  check (text ≠ [] ∧ U.normalizeText text = text) "block text must be non-empty normalized text"
  .ok ⟨ordinal, text, anchor⟩

/-! ### Cells -/

/-- `_shared_string_text`. -/
def sharedStringText (node : XmlElement) : Str :=
  U.normalizeText ((descendants xlsxNamespaces "t" node).flatMap XmlElement.ownText)

/-- `_parse_shared_strings`. -/
def parseSharedStrings (root : XmlElement) : List Str :=
  (childrenOf xlsxNamespaces "si" root).map (sharedStringText U)

/-- The index text of a cell with a shared string. -/
def rawIndex (cell : XmlElement) : Str :=
  strip ((childOf xlsxNamespaces "v" cell).elim [] XmlElement.ownText)

/-- `raw_index.isdigit()`. -/
def isDigitText (text : Str) : Bool := text ≠ [] && text.all D.isDigit

/-- `_cell_value`. -/
def cellValue (sharedStrings : List Str) (cell : XmlElement) : Except XlsxError Str :=
  if cell.get "t" = some (lit "s") then
    if isDigitText D (rawIndex cell) = false then
      .error (corrupt "XLSX shared string reference is invalid")
    else
      match D.int (rawIndex cell) with
      | none => .error (.exc (.valueError "invalid literal for int()"))
      | some index =>
        match sharedStrings[index]? with
        | none => .error (corrupt "XLSX shared string reference is invalid")
        | some value => .ok (strip value)
  else if cell.get "t" = some (lit "inlineStr") then
    .ok ((childOf xlsxNamespaces "is" cell).elim [] (sharedStringText U))
  else
    match (childOf xlsxNamespaces "v" cell).bind text with
    | some (c :: rest) => .ok (strip (U.normalizeText (c :: rest)))
    | _ =>
      .ok ((childOf xlsxNamespaces "f" cell).elim [] fun formula ↦
        strip (U.normalizeText formula.ownText))

/-! ### Loops -/

/-- What the loops change: the blocks, the number of their characters and the warnings. -/
structure Walk where
  blocks : List ExtractedBlock
  totalChars : ℕ
  warnings : List TruncationWarning

/-- `len(blocks) - 1 if blocks else None`. -/
def lastOrdinal (blocks : List ExtractedBlock) : Option ℕ :=
  if blocks = [] then none else some (blocks.length - 1)

/-- The block of a cell with a text that fits. -/
def cellBlock (sheetName cellRef : Str) (row column : ℕ) (text : Str) (ordinal : ℕ) :
    Except Exc ExtractedBlock := do
  let anchor ← anchorFromText U source sheetName cellRef row column text
  newBlock U ordinal text anchor

/-- The loop over the cells of a sheet. -/
def walkCells (sharedStrings : List Str) (sheetName : Str) (w : Walk) :
    List XmlElement → Except XlsxError Walk
  | [] => .ok w
  | cell :: rest => do
    let text ← cellValue U D sharedStrings cell
    if text = [] then walkCells sharedStrings sheetName w rest
    else
      match cell.get "r" with
      | none | some [] => .error (corrupt "XLSX text cell has no coordinate")
      | some (c :: reference) => do
        let (cellRef, row, column) ← typed (cellLocation U L (c :: reference))
        if w.blocks.length ≥ limits.maxBlocks ∨
            w.totalChars + text.length > limits.maxTotalChars then
          .ok { w with warnings := w.warnings ++ [⟨lastOrdinal w.blocks⟩] }
        else do
          let block ← untyped
            (cellBlock U source sheetName cellRef row column text w.blocks.length)
          walkCells sharedStrings sheetName
            { w with blocks := w.blocks ++ [block], totalChars := w.totalChars + text.length } rest

/-- The loop over the sheets, each a name and the name of its part. -/
def walkSheets (readPart : Str → Except ExtractionFailure XmlElement) (sharedStrings : List Str)
    (w : Walk) : List (Str × Str) → Except XlsxError Walk
  | [] => .ok w
  | (sheetName, partName) :: rest => do
    let root ← typed (readPart partName)
    let w ← walkCells U L D source limits sharedStrings sheetName w
      (descendants xlsxNamespaces "c" root)
    if w.warnings ≠ [] then .ok w
    else walkSheets readPart sharedStrings w rest

/-! ### Sheets -/

def slash : CodePoint := codePoint '/'

def backslash : CodePoint := codePoint '\\'

/-- The components of `posixpath.normpath`, for a path without a leading slash. -/
def normalComponents (components : List Str) : List Str :=
  components.foldl (fun kept component ↦
    if component = [] ∨ component = lit "." then kept
    else if component ≠ lit ".." ∨ kept = [] ∨ kept.getLast? = some (lit "..") then
      kept ++ [component]
    else kept.dropLast) []

/-- `posixpath.normpath`, for a path without a leading slash. -/
def normpath (path : Str) : Str :=
  let components := normalComponents (path.splitOn slash)
  if components = [] then lit "." else [slash].intercalate components

/-- `PurePosixPath(path).parts`, for a path without a leading slash. -/
def pathParts (path : Str) : List Str :=
  (path.splitOn slash).filter fun part ↦ part ≠ [] ∧ part ≠ lit "."

/-- `_safe_relationship_target`. -/
def safeRelationshipTarget (target : Str) : Except ExtractionFailure Str :=
  let normalized := target.map fun c ↦ if c = backslash then slash else c
  let path :=
    if normalized.head? = some slash then normalized.dropWhile (· = slash)
    else normpath (lit "xl/" ++ normalized)
  if ¬lit "xl/" <+: path ∨ lit ".." ∈ pathParts path then
    .error ⟨"CORRUPT_DOCUMENT", "XLSX relationship target is invalid"⟩
  else .ok path

/-- The dictionary `targets`: the identifiers of the worksheets and their targets, in order. -/
def worksheetTargets (rels : XmlElement) : List (Option Str × Option Str) :=
  ((childrenOf pkgRelNamespaces "Relationship" rels).filter fun relation ↦
    (relation.get "Type").any fun kind ↦ relTypeWorksheet.any fun type ↦ lit type = kind).map
      fun relation ↦ (relation.get "Id", relation.get "Target")

/-- `targets.get(relationship_id)`: the last entry under the key. -/
def targetOf (targets : List (Option Str × Option Str)) (relationshipId : Option Str) : Option Str :=
  (targets.reverse.find? (·.1 = relationshipId)).bind Prod.snd

/-- The attribute of a sheet that names its relationship. -/
def relationshipId (sheet : XmlElement) : Option Str :=
  ((attributes sheet).find? fun entry ↦
    localName entry.1 = "id" && (xmlNamespace entry.1).any (· ∈ docRelNamespaces)).map Prod.snd

/-- One round of the loop over the sheets of a workbook. -/
def sheetPart (targets : List (Option Str × Option Str)) (sheet : XmlElement) :
    Except ExtractionFailure (Str × Str) :=
  let name := strip (U.normalizeText ((sheet.get "name").getD []))
  match targetOf targets (relationshipId sheet) with
  | none | some [] => .error ⟨"CORRUPT_DOCUMENT", "XLSX worksheet relationship is invalid"⟩
  | some (c :: target) => do
    require (name ≠ []) ⟨"CORRUPT_DOCUMENT", "XLSX worksheet relationship is invalid"⟩
    let path ← safeRelationshipTarget (c :: target)
    .ok (name.take 128, path)

/-- `_sheet_parts`, of the parsed parts. -/
def sheetParts (workbook rels : XmlElement) : Except ExtractionFailure (List (Str × Str)) := do
  require ((xmlNamespace workbook.tag).any (· ∈ xlsxNamespaces) = true)
    ⟨"CORRUPT_DOCUMENT", "XLSX workbook namespace is unsupported"⟩
  match childOf xlsxNamespaces "sheets" workbook with
  | none => .error ⟨"CORRUPT_DOCUMENT", "XLSX workbook has no worksheets"⟩
  | some sheets => do
    let result ← (childrenOf xlsxNamespaces "sheet" sheets).mapM
      (sheetPart U (worksheetTargets rels))
    require (result ≠ []) ⟨"NO_EXTRACTABLE_TEXT", "XLSX workbook has no worksheets"⟩
    .ok result

/-! ### The result -/

/-- The round of `ExtractionResult.__post_init__` for one block. -/
def blockHash (r : ExtractionResult) (block : ExtractedBlock) : Except Exc Str := do
  check (block.anchor.sourceSha256 = r.sourceSha256) "block anchor belongs to a different source"
  check (block.anchor.extractionProfileHash = r.configProfileHash)
    "block anchor belongs to a different extraction profile"
  let fingerprint ← textFingerprint U block.text
  check (block.anchor.textFingerprint = fingerprint)
    "block text does not match its anchor fingerprint"
  canonicalSha256 U Protocol.collision block.anchor.toDict

/-- `ExtractionResult.__post_init__`. The names of the parser and of the profile are constants that pass
their check. -/
def ExtractionResult.validate (r : ExtractionResult) : Except Exc ExtractionResult := do
  check (IsSha256 r.sourceSha256) "source_sha256 must be lowercase SHA-256 hex"
  check (IsSha256 r.configProfileHash) "config_profile_hash must be lowercase SHA-256 hex"
  check (r.blocks ≠ []) "successful extraction must contain at least one block"
  check (r.blocks.map (·.ordinal) = List.range r.blocks.length)
    "block ordinals must be contiguous from zero"
  let hashes ← r.blocks.mapM (blockHash U r)
  check hashes.Nodup "successful extraction contains duplicate anchors"
  check (∀ w ∈ r.warnings, ∀ ordinal ∈ w.blockOrdinal, ordinal < r.blocks.length)
    "warning refers to an unknown block ordinal"
  .ok r

/-- The loop of `validate_bounds`. -/
def boundBlocks (totalChars : ℕ) : List ExtractedBlock → Except ExtractionFailure Unit
  | [] => .ok ()
  | block :: rest => do
    require (¬block.text.length > limits.maxBlockChars)
      ⟨"OUTPUT_TOO_LARGE", "an extracted block exceeds configured character limit"⟩
    require (¬totalChars + block.text.length > limits.maxTotalChars)
      ⟨"OUTPUT_TOO_LARGE", "extracted text exceeds configured character limit"⟩
    boundBlocks (totalChars + block.text.length) rest

/-- `validate_bounds`. -/
def ExtractionResult.validateBounds (r : ExtractionResult) :
    Except ExtractionFailure ExtractionResult := do
  require (¬r.blocks.length > limits.maxBlocks)
    ⟨"OUTPUT_TOO_LARGE", "extracted block count exceeds configured limit"⟩
  boundBlocks limits 0 r.blocks
  .ok r

/-- `extract`, for parsed parts. -/
def extract (workbook rels : XmlElement) (shared : Option XmlElement)
    (readPart : Str → Except ExtractionFailure XmlElement) : Except XlsxError ExtractionResult := do
  let sharedStrings := shared.elim [] (parseSharedStrings U)
  let sheets ← typed (sheetParts U workbook rels)
  let w ← walkSheets U L D source limits readPart sharedStrings ⟨[], 0, []⟩ sheets
  if w.blocks = [] then
    .error (.failure ⟨"NO_EXTRACTABLE_TEXT", "XLSX contains no extractable cell text"⟩)
  else do
    let result ← untyped (ExtractionResult.validate U
      ⟨source.sha256, source.profileHash, w.blocks, w.warnings⟩)
    typed (result.validateBounds limits)

end Extractor

/-! ## The cells with text -/

/-- A cell with a text, and the name of its sheet. -/
structure CellText where
  sheet : Str
  element : XmlElement
  text : Str

/-- The number of characters of some cells. -/
def charCount (cells : List CellText) : ℕ := (cells.map (·.text.length)).sum

/-- The cells stay within the two limits. -/
structure Fits (limits : Limits) (cells : List CellText) : Prop where
  blocks : cells.length ≤ limits.maxBlocks
  chars : charCount cells ≤ limits.maxTotalChars

/-- The longest part at the front that stays within the limits. -/
structure LongestPrefix (limits : Limits) (cells kept : List CellText) : Prop where
  front : kept <+: cells
  fits : Fits limits kept
  longest : ∀ other, other <+: cells → Fits limits other → other.length ≤ kept.length

section Cells

variable (U : Nfc) (L : Letters) (D : Digits)

/-- The cell with its text, if it has one. -/
def cellText (sharedStrings : List Str) (sheet : Str) (cell : XmlElement) : Option CellText :=
  match cellValue U D sharedStrings cell with
  | .ok (c :: rest) => some ⟨sheet, cell, c :: rest⟩
  | _ => none

/-- The cells with text of a sheet, in document order. -/
def sheetCells (readPart : Str → Except ExtractionFailure XmlElement) (sharedStrings : List Str)
    (sheet : Str × Str) : List CellText :=
  match readPart sheet.2 with
  | .ok root => (descendants xlsxNamespaces "c" root).filterMap (cellText U D sharedStrings sheet.1)
  | .error _ => []

/-- The cells with text of all sheets, in the order of the sheets. -/
def nonEmptyCells (readPart : Str → Except ExtractionFailure XmlElement) (sharedStrings : List Str)
    (sheets : List (Str × Str)) : List CellText :=
  sheets.flatMap (sheetCells U D readPart sharedStrings)

/-- A block is that of a cell: its sheet, its text, and the place its reference denotes. -/
structure BlockOf (block : ExtractedBlock) (cell : CellText) : Prop where
  text : block.text = cell.text
  sheet : block.anchor.sheet = cell.sheet
  place : ∃ reference, cell.element.get "r" = some reference ∧
    cellLocation U L reference = .ok (block.anchor.cell, block.anchor.row, block.anchor.column)

end Cells

theorem charCount_append (a b : List CellText) : charCount (a ++ b) = charCount a + charCount b := by
  rw [charCount, List.map_append, List.sum_append]
  rfl

theorem Fits.of_prefix {limits : Limits} {a b : List CellText} (h : a <+: b) (hb : Fits limits b) :
    Fits limits a := by
  obtain ⟨rest, rfl⟩ := h
  have hblocks := hb.blocks
  have hchars := hb.chars
  rw [List.length_append] at hblocks
  rw [charCount_append] at hchars
  exact ⟨by omega, by omega⟩

/-! ## What the loops do -/

/-- There is room for a cell behind the blocks of a walk. -/
def Room (limits : Limits) (w : Walk) (cell : CellText) : Prop :=
  w.blocks.length < limits.maxBlocks ∧ w.totalChars + cell.text.length ≤ limits.maxTotalChars

/-- A loop over some cells has kept those at the front: either all of them, without a warning, or those
in front of one that there was no room for. -/
structure Walked (U : Nfc) (L : Letters) (limits : Limits) (w w' : Walk)
    (cells kept : List CellText) : Prop where
  blocks : ∃ new, w'.blocks = w.blocks ++ new ∧ List.Forall₂ (BlockOf U L) new kept
  total : w'.totalChars = w.totalChars + charCount kept
  within : w.blocks.length ≤ limits.maxBlocks → w.totalChars ≤ limits.maxTotalChars →
    w'.blocks.length ≤ limits.maxBlocks ∧ w'.totalChars ≤ limits.maxTotalChars
  stop : (w'.warnings = [] ∧ kept = cells) ∨
    (w'.warnings ≠ [] ∧ ∃ next rest, cells = kept ++ next :: rest ∧ ¬Room limits w' next)

section Loops

variable {U : Nfc} {L : Letters} {D : Digits} {source : Docx.Source} {limits : Limits}
  {w w' w'' : Walk} {cells cells' kept kept' : List CellText}

theorem Walked.refl (h : w.warnings = []) : Walked U L limits w w [] [] where
  blocks := ⟨[], (List.append_nil _).symm, .nil⟩
  total := rfl
  within hblocks htotal := ⟨hblocks, htotal⟩
  stop := .inl ⟨h, rfl⟩

/-- After a loop that has kept everything, another one goes on. -/
theorem Walked.append (h : Walked U L limits w w' cells kept) (hnone : w'.warnings = [])
    (h' : Walked U L limits w' w'' cells' kept') :
    Walked U L limits w w'' (cells ++ cells') (kept ++ kept') where
  blocks := by
    obtain ⟨new, hnew, hblocks⟩ := h.blocks
    obtain ⟨new', hnew', hblocks'⟩ := h'.blocks
    exact ⟨new ++ new', by rw [hnew', hnew, List.append_assoc], List.rel_append hblocks hblocks'⟩
  total := by rw [h'.total, h.total, charCount_append, Nat.add_assoc]
  within hblocks htotal := by
    obtain ⟨hblocks, htotal⟩ := h.within hblocks htotal
    exact h'.within hblocks htotal
  stop := by
    obtain ⟨-, rfl⟩ | ⟨hsome, -⟩ := h.stop
    · obtain ⟨hnone', rfl⟩ | ⟨hsome', next, rest, rfl, hroom⟩ := h'.stop
      · exact .inl ⟨hnone', rfl⟩
      · exact .inr ⟨hsome', next, rest, (List.append_assoc _ _ _).symm, hroom⟩
    · exact absurd hnone hsome

/-- After a loop that has stopped, the cells behind are left out as well. -/
theorem Walked.stopped (h : Walked U L limits w w' cells kept) (hsome : w'.warnings ≠ [])
    (cells' : List CellText) : Walked U L limits w w' (cells ++ cells') kept where
  blocks := h.blocks
  total := h.total
  within := h.within
  stop := by
    obtain ⟨hnone, -⟩ | ⟨-, next, rest, rfl, hroom⟩ := h.stop
    · exact absurd hnone hsome
    · exact .inr ⟨hsome, next, rest ++ cells', by rw [List.append_assoc, List.cons_append], hroom⟩

theorem typed_eq_ok {α : Type} {x : Except ExtractionFailure α} {a : α} :
    typed x = .ok a ↔ x = .ok a := by
  cases x with
  | ok b => simp [typed]
  | error f => simp [typed]

theorem untyped_eq_ok {α : Type} {x : Except Exc α} {a : α} : untyped x = .ok a ↔ x = .ok a := by
  cases x with
  | ok b => simp [untyped]
  | error f => simp [untyped]

/-- The block of a cell says where the cell is. -/
theorem cellBlock_eq_ok {sheet cellRef t : Str} {row column ordinal : ℕ} {block : ExtractedBlock}
    (h : cellBlock U source sheet cellRef row column t ordinal = .ok block) :
    block.text = t ∧ block.anchor.sheet = sheet ∧ block.anchor.cell = cellRef ∧
      block.anchor.row = row ∧ block.anchor.column = column := by
  simp only [cellBlock, anchorFromText, newBlock, requireIdentifier, bind_eq_ok, check_eq_ok,
    exists_const, Except.ok.injEq] at h
  obtain ⟨_, ⟨-, fingerprint, -, -, -, -, -, rfl⟩, -, rfl⟩ := h
  exact ⟨rfl, rfl, rfl, rfl, rfl⟩

/-- **The loop over the cells of a sheet.** -/
theorem walkCells_spec {sharedStrings : List Str} {sheet : Str} {elements : List XmlElement}
    (hnone : w.warnings = [])
    (h : walkCells U L D source limits sharedStrings sheet w elements = .ok w') :
    ∃ kept, Walked U L limits w w' (elements.filterMap (cellText U D sharedStrings sheet)) kept := by
  induction elements generalizing w with
  | nil =>
    obtain rfl := Except.ok.inj h
    exact ⟨[], .refl hnone⟩
  | cons element elements ih =>
    rw [walkCells, bind_eq_ok] at h
    obtain ⟨t, hvalue, h⟩ := h
    cases t with
    | nil =>
      -- A cell without a text is passed over.
      rw [if_pos rfl] at h
      have hcell : cellText U D sharedStrings sheet element = none := by rw [cellText, hvalue]
      rw [List.filterMap_cons_none hcell]
      exact ih hnone h
    | cons c t =>
      rw [if_neg (List.cons_ne_nil c t)] at h
      have hcell : cellText U D sharedStrings sheet element = some ⟨sheet, element, c :: t⟩ := by
        rw [cellText, hvalue]
      rw [List.filterMap_cons_some hcell]
      cases hreference : element.get "r" with
      | none =>
        rw [hreference] at h
        exact nomatch h
      | some reference =>
        cases reference with
        | nil =>
          rw [hreference] at h
          exact nomatch h
        | cons d reference =>
          simp only [hreference, bind_eq_ok, typed_eq_ok] at h
          obtain ⟨⟨cellRef, row, column⟩, hlocation, h⟩ := h
          dsimp only at h
          split at h
          · -- There is no room for the cell: the loop stops with a warning.
            rename_i hfull
            obtain rfl := Except.ok.inj h
            refine ⟨[], ⟨[], (List.append_nil _).symm, .nil⟩, rfl, fun hb ht ↦ ⟨hb, ht⟩, .inr ⟨?_, _, _,
              rfl, fun hroom ↦ ?_⟩⟩
            · simp
            · obtain hblocks | htotal := hfull
              · exact absurd hroom.1 (Nat.not_lt.mpr hblocks)
              · exact absurd hroom.2 (Nat.not_le.mpr htotal)
          · rename_i hroom
            rw [bind_eq_ok] at h
            obtain ⟨block, hblock, h⟩ := h
            rw [untyped_eq_ok] at hblock
            obtain ⟨htext, hsheet, hcellRef, hrow, hcolumn⟩ := cellBlock_eq_ok hblock
            obtain ⟨kept, hwalked⟩ := ih (w := { w with
              blocks := w.blocks ++ [block], totalChars := w.totalChars + (c :: t).length }) hnone h
            -- One block is added, and the loop goes on behind it.
            have hone : Walked U L limits w
                { w with blocks := w.blocks ++ [block], totalChars := w.totalChars + (c :: t).length }
                [⟨sheet, element, c :: t⟩] [⟨sheet, element, c :: t⟩] := by
              refine ⟨⟨[block], rfl, .cons ⟨htext, hsheet, d :: reference, hreference, ?_⟩ .nil⟩,
                rfl, fun _ _ ↦ ⟨?_, ?_⟩, .inl ⟨hnone, rfl⟩⟩
              · rw [hlocation, hcellRef, hrow, hcolumn]
              · rw [List.length_append, List.length_singleton]
                omega
              · dsimp only
                omega
            exact ⟨_, hone.append hnone hwalked⟩

/-- **The loop over the sheets.** -/
theorem walkSheets_spec {readPart : Str → Except ExtractionFailure XmlElement}
    {sharedStrings : List Str} {sheets : List (Str × Str)} (hnone : w.warnings = [])
    (h : walkSheets U L D source limits readPart sharedStrings w sheets = .ok w') :
    ∃ kept, Walked U L limits w w' (nonEmptyCells U D readPart sharedStrings sheets) kept := by
  induction sheets generalizing w with
  | nil =>
    obtain rfl := Except.ok.inj h
    exact ⟨[], .refl hnone⟩
  | cons sheet sheets ih =>
    rw [walkSheets] at h
    simp only [bind_eq_ok, typed_eq_ok] at h
    obtain ⟨root, hroot, v, hcells, h⟩ := h
    have hsheet : sheetCells U D readPart sharedStrings sheet =
        (descendants xlsxNamespaces "c" root).filterMap (cellText U D sharedStrings sheet.1) := by
      rw [sheetCells, hroot]
    obtain ⟨kept, hwalked⟩ := walkCells_spec hnone hcells
    rw [nonEmptyCells, List.flatMap_cons, hsheet]
    split at h
    · rename_i hsome
      obtain rfl := Except.ok.inj h
      exact ⟨kept, hwalked.stopped hsome _⟩
    · rename_i hagain
      have hnone' : v.warnings = [] := not_not.mp hagain
      obtain ⟨kept', hwalked'⟩ := ih hnone' h
      exact ⟨_, hwalked.append hnone' hwalked'⟩

/-- A walk from the start has kept the longest prefix that fits. -/
theorem Walked.longestPrefix (h : Walked U L limits ⟨[], 0, []⟩ w' cells kept) :
    LongestPrefix limits cells kept ∧ List.Forall₂ (BlockOf U L) w'.blocks kept ∧
      (w'.warnings ≠ [] ↔ kept.length < cells.length) := by
  obtain ⟨new, hnew, hblocks⟩ := h.blocks
  obtain ⟨hlength, htotal⟩ := h.within (Nat.zero_le _) (Nat.zero_le _)
  have hkept := h.total
  rw [List.nil_append] at hnew
  rw [Nat.zero_add] at hkept
  subst hnew
  have hcount : w'.blocks.length = kept.length := hblocks.length_eq
  have hfits : Fits limits kept := ⟨hcount ▸ hlength, hkept ▸ htotal⟩
  obtain ⟨hnone, rfl⟩ | ⟨hsome, next, rest, rfl, hroom⟩ := h.stop
  · refine ⟨⟨List.prefix_rfl, hfits, fun other hother _ ↦ hother.length_le⟩, hblocks, ?_⟩
    simp [hnone]
  · refine ⟨⟨List.prefix_append _ _, hfits, fun other hother hfitsOther ↦ ?_⟩, hblocks, ?_⟩
    · -- A longer prefix would hold the cell that there was no room for.
      by_contra hlonger
      have hnext : kept ++ [next] <+: kept ++ next :: rest := by
        rw [List.prefix_append_right_inj]
        exact ⟨rest, rfl⟩
      have hin : kept ++ [next] <+: other := by
        refine List.prefix_of_prefix_length_le hnext hother ?_
        rw [List.length_append, List.length_singleton]
        omega
      have hfitsNext := hfitsOther.of_prefix hin
      have hb := hfitsNext.blocks
      have hc := hfitsNext.chars
      rw [List.length_append, List.length_singleton] at hb
      rw [charCount_append] at hc
      exact hroom ⟨by omega, by rw [hkept]; simpa [charCount] using hc⟩
    · simp [hsome]

end Loops

/-! ## Truncation -/

/-- **Truncation is exact.** When a result is returned, its blocks are those of the longest prefix of the
cells with text that fits the limits, in the order of sheets and document, and a warning is given where
this is not all of them. -/
theorem extract_truncates (U : Nfc) (L : Letters) (D : Digits) (source : Docx.Source)
    (limits : Limits) (workbook rels : XmlElement) (shared : Option XmlElement)
    (readPart : Str → Except ExtractionFailure XmlElement) (result : ExtractionResult)
    (h : extract U L D source limits workbook rels shared readPart = .ok result) :
    ∃ sheets kept, sheetParts U workbook rels = .ok sheets ∧
      LongestPrefix limits
        (nonEmptyCells U D readPart (shared.elim [] (parseSharedStrings U)) sheets) kept ∧
      List.Forall₂ (BlockOf U L) result.blocks kept ∧
      (result.warnings ≠ [] ↔ kept.length <
        (nonEmptyCells U D readPart (shared.elim [] (parseSharedStrings U)) sheets).length) := by
  simp only [extract, bind_eq_ok, typed_eq_ok] at h
  obtain ⟨sheets, hsheets, w, hwalk, h⟩ := h
  split at h
  · cases h
  simp only [bind_eq_ok, typed_eq_ok, untyped_eq_ok] at h
  obtain ⟨validated, hvalidate, hbounds⟩ := h
  -- Neither check changes the result.
  have hvalidated : validated = ⟨source.sha256, source.profileHash, w.blocks, w.warnings⟩ := by
    simp only [ExtractionResult.validate, bind_eq_ok, check_eq_ok, exists_const,
      Except.ok.injEq] at hvalidate
    obtain ⟨-, -, -, -, _, -, -, -, hsame⟩ := hvalidate
    exact hsame.symm
  have hresult : result = validated := by
    rw [ExtractionResult.validateBounds, bind_eq_ok] at hbounds
    obtain ⟨_, -, hbounds⟩ := hbounds
    rw [bind_eq_ok] at hbounds
    obtain ⟨_, -, hbounds⟩ := hbounds
    exact (Except.ok.inj hbounds).symm
  obtain ⟨kept, hwalked⟩ := walkSheets_spec rfl hwalk
  subst hresult
  subst hvalidated
  exact ⟨sheets, kept, hsheets, hwalked.longestPrefix⟩

/-! ### A workbook with two cells -/

/-- The digits of ASCII. -/
def asciiDigits : Digits where
  isDigit c := decide (48 ≤ c.val ∧ c.val ≤ 57)
  decimal c := if 48 ≤ c.val ∧ c.val ≤ 57 then some (c.val - 48) else none
  isDigit_ascii _ _ := decide_eq_true_iff
  decimal_ascii _ hlow hhigh := if_pos ⟨hlow, hhigh⟩

def xlsxTag (name : String) : String :=
  "\x7bhttp://schemas.openxmlformats.org/spreadsheetml/2006/main\x7d" ++ name

/-- A workbook that lists one sheet. -/
def oneSheet : XmlElement :=
  .mk (xlsxTag "workbook") [] none [.mk (xlsxTag "sheets") [] none
    [.mk (xlsxTag "sheet")
      [("name", lit "Plan"), ("\x7bhttp://purl.oclc.org/ooxml/officeDocument/relationships\x7did", lit "r1")]
      none []]]

/-- The relationships of that workbook. -/
def oneSheetRels : XmlElement :=
  .mk "Relationships" [] none
    [.mk "\x7bhttp://schemas.openxmlformats.org/package/2006/relationships\x7dRelationship"
      [("Id", lit "r1"), ("Type", lit "http://purl.oclc.org/ooxml/officeDocument/relationships/worksheet"),
        ("Target", lit "sheet.xml")] none []]

/-- A cell with a value of a type. -/
def valueCell (reference kind value : String) : XmlElement :=
  .mk (xlsxTag "c") [("r", lit reference), ("t", lit kind)] none
    [.mk (xlsxTag "v") [] (some (lit value)) []]

/-- The worksheet with some cells. -/
def worksheet (cells : List XmlElement) : XmlElement :=
  .mk (xlsxTag "worksheet") [] none [.mk (xlsxTag "row") [] none cells]

theorem isSha256_replicate : IsSha256 (List.replicate 64 97) := by decide

def someSource : Docx.Source where
  sha256 := List.replicate 64 97
  profileHash := List.replicate 64 97
  isSha256 := isSha256_replicate
  isProfile := isSha256_replicate

/-- The extraction of the worksheet with some cells. -/
def extractCells (limits : Limits) (cells : List XmlElement) : Except XlsxError ExtractionResult :=
  extract Nfc.ascii asciiLetters asciiDigits someSource limits oneSheet oneSheetRels none
    fun _ ↦ .ok (worksheet cells)

/-- There is room for one of two cells. -/
theorem extract_truncates_twoCells :
    ∃ result, extractCells ⟨1, 10, 10⟩ [valueCell "A1" "n" "x", valueCell "B1" "n" "y"] = .ok result ∧
      ∃ sheets kept, sheetParts Nfc.ascii oneSheet oneSheetRels = .ok sheets ∧
        LongestPrefix ⟨1, 10, 10⟩ (nonEmptyCells Nfc.ascii asciiDigits
          (fun _ ↦ .ok (worksheet [valueCell "A1" "n" "x", valueCell "B1" "n" "y"])) [] sheets) kept ∧
        List.Forall₂ (BlockOf Nfc.ascii asciiLetters) result.blocks kept ∧
        kept.length < (nonEmptyCells Nfc.ascii asciiDigits
          (fun _ ↦ .ok (worksheet [valueCell "A1" "n" "x", valueCell "B1" "n" "y"])) [] sheets).length := by
  have hwarned : (extractCells ⟨1, 10, 10⟩ [valueCell "A1" "n" "x", valueCell "B1" "n" "y"]).toOption.any
      (·.warnings ≠ []) = true := by decide +kernel
  cases hresult : extractCells ⟨1, 10, 10⟩ [valueCell "A1" "n" "x", valueCell "B1" "n" "y"] with
  | error e =>
    rw [hresult] at hwarned
    exact nomatch hwarned
  | ok result =>
    rw [hresult] at hwarned
    obtain ⟨sheets, kept, hsheets, hprefix, hblocks, hwarnings⟩ :=
      extract_truncates _ _ _ _ _ _ _ _ _ _ hresult
    exact ⟨result, rfl, sheets, kept, hsheets, hprefix, hblocks,
      hwarnings.mp (of_decide_eq_true hwarned)⟩

end Xlsx

end MeetingRag
