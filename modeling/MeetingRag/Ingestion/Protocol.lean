import MeetingRag.Ingestion.Blocks

/-!
# The protocol validator

`validate_parser_payload`, which the sandbox runner applies to what a parser wrote. It accepts the
envelopes of the contract whose parser is the approved one and whose anchors are pairwise distinct
(`validateParserPayload_eq_ok`), and it raises something else than a `ValueError` exactly at a trap
(`raises_validateParserPayload`).
-/

open Outcome Py Json

namespace MeetingRag

namespace Protocol

/-- `_APPROVED_PARSERS`. -/
def approvedParsers : MediaType → Option (String × String)
  | .text => none
  | .pdf => some ("pypdfium2", "5.12.1")
  | .png => some ("pillow+tesseract-cli", "12.3.0+5.3.0")
  | .jpeg => some ("pillow+tesseract-cli", "12.3.0+5.3.0")
  | .hwp => some ("pyhwp", "0.1b15")
  | .hwpx => some ("hwpxlib", "1.0.9")
  | .docx => some ("stdlib-docx", "1.0.0")
  | .pptx => some ("libreoffice+pypdfium2+tesseract-cli", "1.0.0")
  | .xlsx => some ("stdlib-xlsx", "1.0.0")

/-- The anchor kind of a media type, which `_validate_success` spells out. -/
def expectedAnchorKind : MediaType → Except Exc String
  | .text => .error .keyError
  | .pdf | .pptx => .ok "pdf_block"
  | .png | .jpeg => .ok "image_bbox"
  | .hwp | .hwpx => .ok "hwp_paragraph"
  | .docx => .ok "docx_paragraph"
  | .xlsx => .ok "xlsx_cell"

def collision : String := "canonical JSON contains colliding normalized keys"

section Code

variable (U : Nfc)

/-- `_require_string`. -/
def requireString (label : String) (maximum : ℤ) : Json → Except Exc Str
  | .str s => do
    check (s ≠ [] ∧ s.length ≤ maximum ∧ U.normalizeText s = s)
      (label ++ " must be bounded normalized text")
    check (Scalar s) (label ++ " must contain only Unicode scalar values")
    .ok s
  | _ => .error (.valueError (label ++ " must be bounded normalized text"))

/-- The text under a name. -/
def stringItem (label : String) (maximum : ℤ) (fields : Fields) (name : String) : Except Exc Str := do
  let v ← getItem fields name
  requireString U label maximum v

/-- The check that a field equals a text. -/
def checkItem (s : Str) (message : String) (fields : Fields) (name : String) : Except Exc Unit := do
  let v ← getItem fields name
  check (EqStr s v) message

/-- The check of `_validate_locator` that an HWP anchor has the parser of the result. -/
def identity (name version : Str) (locator : Fields) : Except Exc Unit := do
  let parser ← stringItem U "HWP parser" 128 locator "parser"
  check (parser = name) "HWP anchor parser differs from result parser"
  let parserVersion ← stringItem U "HWP parser_version" 128 locator "parser_version"
  check (parserVersion = version) "HWP anchor parser version differs from result parser"

end Code

theorem requireString_eq_ok {U : Nfc} {label : String} {maximum : ℤ} {v : Json} {s : Str} :
    requireString U label maximum v = .ok s ↔ v = .str s ∧ ProtocolText U maximum s := by
  cases v with
  | str t =>
    rw [requireString, check_bind_eq_ok, check_bind_eq_ok, Except.ok.injEq, Json.str.injEq]
    constructor
    · rintro ⟨⟨hne, hbound, hnorm⟩, hscalar, rfl⟩
      exact ⟨rfl, hne, hbound, hnorm, hscalar⟩
    · rintro ⟨rfl, h⟩
      exact ⟨⟨h.nonempty, h.bounded, h.normalized⟩, h.scalar, rfl⟩
  | _ => simp [requireString]

theorem not_raises_requireString {U : Nfc} {label : String} {maximum : ℤ} {v : Json} :
    ¬Raises Exc.Uncaught (requireString U label maximum v) := by
  cases v with
  | str s => exact not_raises_bind not_raises_check fun _ _ ↦ not_raises_bind not_raises_check fun _ _ ↦
      not_raises_ok
  | _ => simp [requireString]

theorem stringItem_eq_ok {U : Nfc} {label name : String} {maximum : ℤ} {fields : Fields} {s : Str}
    (h : Has fields name) : stringItem U label maximum fields name = .ok s ↔
      get fields name = .str s ∧ ProtocolText U maximum s := by
  rw [stringItem, getItem_of_has h, ok_bind, requireString_eq_ok]

theorem not_raises_stringItem {U : Nfc} {label name : String} {maximum : ℤ} {fields : Fields}
    (h : Has fields name) : ¬Raises Exc.Uncaught (stringItem U label maximum fields name) := by
  rw [stringItem, getItem_of_has h, ok_bind]
  exact not_raises_requireString

theorem checkItem_eq_ok {s : Str} {message name : String} {fields : Fields} {w : Unit}
    (h : Has fields name) : checkItem s message fields name = .ok w ↔ get fields name = .str s := by
  rw [checkItem, getItem_of_has h, ok_bind, check_eq_ok, eqStr_iff]

theorem not_raises_checkItem {s : Str} {message name : String} {fields : Fields}
    (h : Has fields name) : ¬Raises Exc.Uncaught (checkItem s message fields name) := by
  rw [checkItem, getItem_of_has h, ok_bind]
  exact not_raises_check

/-- How this validator checks a locator. -/
def dialect (U : Nfc) : Dialect U where
  item := getItem
  text := requireString U
  identity := identity U
  blockId := "PDF block_id"
  imageId := "image_id"
  bboxShape := "anchor bbox must contain four coordinates"
  bboxCoordinate := "anchor bbox coordinate is outside [0, 1]"
  bboxArea := "anchor bbox must have positive area"
  unknownKind := "unknown anchor kind"
  item_of_has := getItem_of_has
  text_eq_ok := requireString_eq_ok
  not_raises_text := not_raises_requireString
  identity_eq_ok := by
    intro parser fields hname hversion
    simp only [identity, bind_eq_ok, stringItem_eq_ok hname, stringItem_eq_ok hversion, check_eq_ok]
    constructor
    · rintro ⟨_, ⟨hp, -⟩, -, rfl, _, ⟨hv, -⟩, rfl⟩
      exact ⟨hp, hv⟩
    · rintro ⟨hp, hv⟩
      exact ⟨_, ⟨hp, parser.nameText⟩, (), rfl, _, ⟨hv, parser.versionText⟩, rfl⟩
  not_raises_identity := by
    intro name version fields hname hversion
    refine not_raises_bind (not_raises_stringItem hname) fun _ _ ↦ ?_
    refine not_raises_bind not_raises_check fun _ _ ↦ ?_
    exact not_raises_bind (not_raises_stringItem hversion) fun _ _ ↦ not_raises_check

/-! ## The checks in order -/

section Code

variable (U : Nfc) (source : Str) (mediaType : MediaType) (bounds : Bounds)

/-- The part of `_validate_anchor` before the locator: the anchor and its kind. -/
def anchorHead (profile text : Str) (v : Json) : Except Exc (Fields × Str) := do
  let anchor ← requireMapping "block.anchor" v
  requireExactKeys ["schema_version", "kind", "source_sha256", "extraction_profile_hash", "locator",
    "text_fingerprint"] "block.anchor" anchor
  let schemaVersion ← getItem anchor "schema_version"
  check (EqInt 1 schemaVersion) "anchor schema_version is not 1"
  let kind ← stringItem U "anchor kind" 128 anchor "kind"
  checkItem source "anchor source does not match the staged input" anchor "source_sha256"
  checkItem profile "anchor profile does not match extraction result" anchor "extraction_profile_hash"
  let fingerprint ← textFingerprint U text
  checkItem fingerprint "anchor fingerprint does not match block text" anchor "text_fingerprint"
  .ok (anchor, kind)

/-- `_validate_anchor`, with the texts that the caller expects. -/
def validateAnchor (profile text name version : Str) (v : Json) : Except Exc Fields := do
  let (anchor, kind) ← anchorHead U source profile text v
  let locator ← getItem anchor "locator"
  let locator ← requireMapping "anchor.locator" locator
  (dialect U).validateLocator name version kind locator
  .ok anchor

/-- The part of `_validate_success` about a block up to its confidence. -/
def blockHead (total : ℤ) (ordinal : ℕ) (v : Json) : Except Exc (Fields × Str) := do
  let block ← requireMapping ("blocks[" ++ toString ordinal ++ "]") v
  requireExactKeys ["ordinal", "text", "block_type", "confidence", "anchor", "anchor_hash"]
    ("blocks[" ++ toString ordinal ++ "]") block
  let blockOrdinal ← getItem block "ordinal"
  check (EqInt ordinal blockOrdinal) "block ordinals are not contiguous"
  let text ← stringItem U ("blocks[" ++ toString ordinal ++ "].text") bounds.maxBlockChars block "text"
  check (total + text.length ≤ bounds.maxTotalChars) "result text exceeds the configured limit"
  let _ ← stringItem U "block_type" 64 block "block_type"
  .ok (block, text)

/-- The check of a confidence. -/
def validateConfidence : Json → Except Exc Unit
  | .null => .ok ()
  | v => do
    let _ ← requireUnit "block confidence is invalid" v
    .ok ()

/-- The part of `_validate_success` about a block: the anchor hashes and the characters so far, and
those with the block. -/
def validateBlock (profile name version : Str) :
    List Str × ℤ → Json × ℕ → Except Exc (List Str × ℤ)
  | (hashes, total), (v, ordinal) => do
    let (block, text) ← blockHead U bounds total ordinal v
    let confidence ← getItem block "confidence"
    validateConfidence confidence
    let rawAnchor ← getItem block "anchor"
    let anchor ← validateAnchor U source profile text name version rawAnchor
    let kind ← expectedAnchorKind mediaType
    checkItem (lit kind) "anchor kind is incompatible with the staged media type" anchor "kind"
    let hash ← canonicalSha256 U collision (.object anchor)
    checkItem hash "anchor hash does not match its canonical payload" block "anchor_hash"
    .ok (hashes ++ [hash], total + text.length)

/-- The part of `_validate_success` about a warning. -/
def validateWarning (count : ℕ) : Json × ℕ → Except Exc Unit
  | (v, index) => do
    let warning ← requireMapping ("warnings[" ++ toString index ++ "]") v
    requireExactKeys ["code", "message", "block_ordinal"] ("warnings[" ++ toString index ++ "]") warning
    let code ← getItem warning "code"
    let known ← isIn warningCodes code
    check (known = true) "warning code is unsupported"
    let _ ← stringItem U "warning message" 512 warning "message"
    let ordinal ← getItem warning "block_ordinal"
    match ordinal with
    | .null => .ok ()
    | ordinal => do
      let n ← requireIndex "warning block ordinal" 0 ordinal
      check (n < count) "warning references an unknown block"

/-- The parser of a result: its name and its version. -/
def validateParser (result : Fields) : Except Exc (Str × Str) := do
  let parser ← getItem result "parser"
  let parser ← requireMapping "result.parser" parser
  requireExactKeys ["name", "version"] "result.parser" parser
  let name ← stringItem U "parser name" 128 parser "name"
  let version ← stringItem U "parser version" 128 parser "version"
  match approvedParsers mediaType with
  | none => .error .keyError
  | some approved => do
    check (name = lit approved.1 ∧ version = lit approved.2)
      "result parser is not the approved pinned implementation"
    .ok (name, version)

/-- The part of `_validate_success` up to the blocks: the result, its parser, its profile and its
blocks. -/
def resultHead (payload : Fields) : Except Exc (Fields × (Str × Str) × Str × List Json) := do
  requireExactKeys ["schema_version", "ok", "result"] "success envelope" payload
  let result ← getItem payload "result"
  let result ← requireMapping "result" result
  requireExactKeys ["source_sha256", "media_type", "parser", "normalization_profile",
    "config_profile_hash", "anchor_set_hash", "blocks", "warnings"] "result" result
  checkItem source "result source does not match the staged input" result "source_sha256"
  checkItem (lit mediaType.value) "result media_type does not match the staged input" result "media_type"
  let parser ← validateParser U mediaType result
  checkItem (lit "nfc-lf-v1") "normalization profile is unsupported" result "normalization_profile"
  let profile ← getItem result "config_profile_hash"
  let profile ← requireSha256 "config profile" profile
  let anchorSetHash ← getItem result "anchor_set_hash"
  let _ ← requireSha256 "anchor set" anchorSetHash
  let blocks ← getItem result "blocks"
  let blocks ← asArray "result blocks are missing or exceed the configured limit" blocks
  check (blocks ≠ [] ∧ blocks.length ≤ bounds.maxBlocks)
    "result blocks are missing or exceed the configured limit"
  .ok (result, parser, profile, blocks)

/-- `_validate_success`. -/
def validateSuccess (payload : Fields) : Except Exc Unit := do
  let (result, (name, version), profile, blocks) ← resultHead U source mediaType bounds payload
  let (hashes, _) ← (blocks.zipIdx).foldlM
    (validateBlock U source mediaType bounds profile name version) ([], 0)
  check hashes.Nodup "result contains duplicate anchors"
  let hash ← canonicalSha256 U collision (anchorSet hashes)
  checkItem hash "anchor set hash does not match the ordered block sequence" result "anchor_set_hash"
  let warnings ← getItem result "warnings"
  let warnings ← asArray "result warnings must be an array" warnings
  (warnings.zipIdx).forM (validateWarning U blocks.length)

/-- `_validate_failure`. -/
def validateFailure (payload : Fields) : Except Exc Unit := do
  requireExactKeys ["schema_version", "ok", "error"] "failure envelope" payload
  let error ← getItem payload "error"
  let error ← requireMapping "error" error
  requireExactKeys ["code", "message", "retryable"] "error" error
  let code ← getItem error "code"
  let known ← isIn errorCodes code
  check (known = true) "error code is unsupported"
  let message ← stringItem U "error message" 512 error "message"
  check ((10 : CodePoint) ∉ message) "error message must be one line"
  let retryable ← getItem error "retryable"
  check (retryable.isBool = true) "error retryable must be boolean"

/-- `validate_parser_payload`. -/
def validateParserPayload (payload : Fields) : Except Exc Unit := do
  check (IsSha256 source) "expected source must be lowercase SHA-256"
  check (mediaType ≠ .text) "expected media type is unsupported"
  check (EqInt 1 (get payload "schema_version") ∧ (get payload "ok").isBool = true)
    "parser envelope header is invalid"
  let ok ← getItem payload "ok"
  match ok with
  | .bool true => validateSuccess U source mediaType bounds payload
  | _ => validateFailure U payload

end Code

/-! ## What the validator accepts -/

section Accepts

variable {U : Nfc} {expected : Expected U} {profile text : Str} {v : Json}

/-- The host expects the approved parser of the media type. -/
def Approved (expected : Expected U) : Prop :=
  ∃ approved, approvedParsers expected.mediaType = some approved ∧
    expected.parser.name = lit approved.1 ∧ expected.parser.version = lit approved.2

theorem Approved.mediaType_ne (h : Approved expected) : expected.mediaType ≠ .text := by
  obtain ⟨approved, hsome, -⟩ := h
  intro htext
  rw [htext] at hsome
  exact nomatch hsome

theorem Approved.expectedAnchorKind (h : Approved expected) :
    expectedAnchorKind expected.mediaType = .ok (anchorKind expected.mediaType).value := by
  obtain ⟨approved, happroved, -⟩ := h
  generalize expected.mediaType = mediaType at happroved
  cases mediaType with
  | text => exact nomatch happroved
  | _ => rfl

theorem anchorHead_eq_ok {maximum : ℤ} (htext : ProtocolText U maximum text) {anchor : Fields}
    {kind : Str} : anchorHead U expected.sourceSha256 profile text v = .ok (anchor, kind) ↔
      v = .object anchor ∧ AnchorHead expected profile text kind anchor ∧ ProtocolText U 128 kind := by
  rw [anchorHead, htext.textFingerprint, bind_eq_ok]
  simp only [requireMapping_eq_ok, requireExactKeys, check_bind_eq_ok]
  constructor
  · rintro ⟨fields, rfl, hkeys, h⟩
    rw [getItem_of_has (hkeys.2 "schema_version" (by simp)), ok_bind, check_bind_eq_ok] at h
    obtain ⟨hversion, h⟩ := h
    simp only [bind_eq_ok, stringItem_eq_ok (hkeys.2 "kind" (by simp)),
      checkItem_eq_ok (hkeys.2 "source_sha256" (by simp)),
      checkItem_eq_ok (hkeys.2 "extraction_profile_hash" (by simp)),
      checkItem_eq_ok (hkeys.2 "text_fingerprint" (by simp)), ok_bind] at h
    obtain ⟨_, ⟨hkind, hkindText⟩, -, hsource, -, hprofile, -, hfingerprint, h⟩ := h
    cases h
    exact ⟨rfl, ⟨hkeys, hversion, hkind, hsource, hprofile, hfingerprint⟩, hkindText⟩
  · rintro ⟨rfl, h, hkindText⟩
    refine ⟨anchor, rfl, h.keys, ?_⟩
    rw [getItem_of_has (h.keys.2 "schema_version" (by simp)), ok_bind, check_bind_eq_ok]
    refine ⟨h.schemaVersion, ?_⟩
    simp only [bind_eq_ok, stringItem_eq_ok (h.keys.2 "kind" (by simp)),
      checkItem_eq_ok (h.keys.2 "source_sha256" (by simp)),
      checkItem_eq_ok (h.keys.2 "extraction_profile_hash" (by simp)),
      checkItem_eq_ok (h.keys.2 "text_fingerprint" (by simp)), ok_bind]
    exact ⟨kind, ⟨h.kindField, hkindText⟩, (), h.source, (), h.profileField, (), h.fingerprint, rfl⟩

theorem validateAnchor_eq_ok {maximum : ℤ} (htext : ProtocolText U maximum text) {anchor : Fields} :
    validateAnchor U expected.sourceSha256 profile text expected.parser.name expected.parser.version v =
        .ok anchor ↔
      v = .object anchor ∧ ∃ kind : AnchorKind, AnchorHead expected profile text (lit kind.value) anchor ∧
        ∃ locator, get anchor "locator" = .object locator ∧ Locator U expected.parser kind locator := by
  rw [validateAnchor, bind_eq_ok]
  constructor
  · rintro ⟨⟨fields, kind⟩, hhead, h⟩
    obtain ⟨rfl, hhead, -⟩ := (anchorHead_eq_ok htext).mp hhead
    dsimp only at h
    rw [getItem_of_has (hhead.keys.2 "locator" (by simp)), ok_bind] at h
    simp only [bind_eq_ok, requireMapping_eq_ok, Dialect.validateLocator_eq_ok] at h
    obtain ⟨locator, hlocator, -, ⟨k, rfl, hok⟩, h⟩ := h
    cases h
    exact ⟨rfl, k, hhead, locator, hlocator, hok⟩
  · rintro ⟨rfl, k, hhead, locator, hlocator, hok⟩
    refine ⟨(anchor, lit k.value), (anchorHead_eq_ok htext).mpr ⟨rfl, hhead, protocolText_value U k⟩, ?_⟩
    dsimp only
    rw [getItem_of_has (hhead.keys.2 "locator" (by simp)), ok_bind]
    simp only [bind_eq_ok, requireMapping_eq_ok, Dialect.validateLocator_eq_ok]
    exact ⟨locator, hlocator, (), ⟨k, rfl, hok⟩, trivial⟩

theorem blockHead_eq_ok {total : ℤ} {ordinal : ℕ} {block : Fields} :
    blockHead U expected.bounds total ordinal v = .ok (block, text) ↔
      v = .object block ∧ BlockHead expected ordinal text block ∧
        total + text.length ≤ expected.bounds.maxTotalChars := by
  rw [blockHead, bind_eq_ok]
  simp only [requireMapping_eq_ok, requireExactKeys, check_bind_eq_ok]
  constructor
  · rintro ⟨fields, rfl, hkeys, h⟩
    rw [getItem_of_has (hkeys.2 "ordinal" (by simp)), ok_bind, check_bind_eq_ok] at h
    obtain ⟨hordinal, h⟩ := h
    simp only [bind_eq_ok, stringItem_eq_ok (hkeys.2 "text" (by simp)),
      stringItem_eq_ok (hkeys.2 "block_type" (by simp)), check_eq_ok] at h
    obtain ⟨_, ⟨htext, htextOk⟩, -, hbound, blockType, hblockType, h⟩ := h
    cases h
    exact ⟨rfl, ⟨hkeys, hordinal, htext, htextOk, blockType, hblockType⟩, hbound⟩
  · rintro ⟨rfl, h, hbound⟩
    refine ⟨block, rfl, h.keys, ?_⟩
    rw [getItem_of_has (h.keys.2 "ordinal" (by simp)), ok_bind, check_bind_eq_ok]
    refine ⟨h.ordinalField, ?_⟩
    simp only [bind_eq_ok, stringItem_eq_ok (h.keys.2 "text" (by simp)),
      stringItem_eq_ok (h.keys.2 "block_type" (by simp)), check_eq_ok]
    obtain ⟨blockType, hblockType⟩ := h.blockType
    exact ⟨text, ⟨h.textField, h.textOk⟩, (), hbound, blockType, hblockType, rfl⟩

theorem validateConfidence_eq_ok {w : Unit} : validateConfidence v = .ok w ↔ IsConfidence v := by
  unfold validateConfidence
  split
  · exact iff_of_true rfl (Or.inl rfl)
  · next hnull =>
    rw [bind_eq_ok, IsConfidence, or_iff_right hnull, Option.isSome_iff_exists]
    simp only [requireUnit_eq_ok, and_true]

theorem acceptsBlocks (happroved : Approved expected) :
    AcceptsBlocks expected profile (validateBlock U expected.sourceSha256 expected.mediaType
      expected.bounds profile expected.parser.name expected.parser.version) := by
  intro hashes total v ordinal s
  rw [validateBlock, bind_eq_ok]
  constructor
  · rintro ⟨⟨block, text⟩, hhead, h⟩
    obtain ⟨rfl, hhead, hbound⟩ := blockHead_eq_ok.mp hhead
    dsimp only at h
    rw [getItem_of_has (hhead.keys.2 "confidence" (by simp)), ok_bind, bind_eq_ok] at h
    obtain ⟨_, hconfidence, h⟩ := h
    rw [getItem_of_has (hhead.keys.2 "anchor" (by simp)), ok_bind, bind_eq_ok] at h
    obtain ⟨anchor, hanchor, h⟩ := h
    obtain ⟨hfield, kind, hanchorHead, locator, hlocator⟩ := (validateAnchor_eq_ok hhead.textOk).mp hanchor
    rw [happroved.expectedAnchorKind, ok_bind] at h
    simp only [bind_eq_ok, checkItem_eq_ok (hanchorHead.keys.2 "kind" (by simp)),
      checkItem_eq_ok (hhead.keys.2 "anchor_hash" (by simp))] at h
    obtain ⟨-, hkind, hash, hhash, -, hanchorHash, h⟩ := h
    have heq : kind = anchorKind expected.mediaType :=
      AnchorKind.value_injective (lit_injective (Json.str.inj (hanchorHead.kindField.symm.trans hkind)))
    subst heq
    refine ⟨block, text, hash, rfl, ⟨hhead, validateConfidence_eq_ok.mp hconfidence,
      ⟨anchor, hfield, ⟨hanchorHead, locator, hlocator⟩, ?_⟩, hanchorHash⟩, hbound,
      (Except.ok.inj h).symm⟩
    exact (canonicalSha256_congr U collision "").mp hhash
  · rintro ⟨block, text, hash, rfl, hblock, hbound, rfl⟩
    obtain ⟨anchor, hfield, hanchor, hhash⟩ := hblock.anchorField
    refine ⟨(block, text), blockHead_eq_ok.mpr ⟨rfl, hblock.toBlockHead, hbound⟩, ?_⟩
    have hconfidence : validateConfidence (get block "confidence") = .ok () :=
      validateConfidence_eq_ok.mpr hblock.confidence
    have hkind : checkItem (lit (anchorKind expected.mediaType).value)
        "anchor kind is incompatible with the staged media type" anchor "kind" = .ok () :=
      (checkItem_eq_ok (hanchor.keys.2 "kind" (by simp))).mpr hanchor.kindField
    have hanchorHash : checkItem hash "anchor hash does not match its canonical payload" block
        "anchor_hash" = .ok () :=
      (checkItem_eq_ok (hblock.keys.2 "anchor_hash" (by simp))).mpr hblock.anchorHash
    dsimp only
    rw [getItem_of_has (hblock.keys.2 "confidence" (by simp)), ok_bind, hconfidence, ok_bind,
      getItem_of_has (hblock.keys.2 "anchor" (by simp)), ok_bind,
      (validateAnchor_eq_ok hblock.textOk).mpr ⟨hfield, _, hanchor.toAnchorHead, hanchor.locator⟩, ok_bind,
      happroved.expectedAnchorKind, ok_bind, hkind, ok_bind,
      (canonicalSha256_congr U "" collision).mp hhash, ok_bind, hanchorHash, ok_bind]

theorem acceptsWarnings {count : ℕ} : AcceptsWarnings U count (validateWarning U count) := by
  intro w i
  rw [validateWarning, bind_eq_ok]
  simp only [requireMapping_eq_ok, requireExactKeys, check_bind_eq_ok]
  refine exists_congr fun warning ↦ and_congr_right fun _ ↦ and_congr_right fun hkeys ↦ ?_
  rw [getItem_of_has (hkeys.2 "code" (by simp)), ok_bind, bind_eq_ok]
  simp only [bind_eq_ok, check_eq_ok, stringItem_eq_ok (hkeys.2 "message" (by simp)),
    getItem_of_has (hkeys.2 "block_ordinal" (by simp)), Except.ok.injEq]
  constructor
  · rintro ⟨known, hcode, -, rfl, message, hmessage, ordinal, rfl, h⟩
    refine ⟨isIn_eq_ok_true.mp hcode, ⟨message, hmessage⟩, ?_⟩
    split at h
    · next hnull => exact Or.inl hnull
    · simp only [bind_eq_ok, requireIndex_eq_ok, check_eq_ok] at h
      obtain ⟨n, ⟨hn, hnonneg⟩, hlt⟩ := h
      exact Or.inr ⟨n, hn, hnonneg, hlt⟩
  · rintro ⟨hcode, ⟨message, hmessage⟩, hordinal⟩
    refine ⟨true, isIn_eq_ok_true.mpr hcode, (), rfl, message, hmessage, _, rfl, ?_⟩
    rcases hordinal with hnull | ⟨n, hn, hnonneg, hlt⟩
    · rw [hnull]
    · rw [hn]
      exact bind_eq_ok.mpr ⟨n, requireIndex_eq_ok.mpr ⟨rfl, hnonneg⟩, check_eq_ok.mpr hlt⟩

theorem validateParser_eq_ok (happroved : Approved expected) {result : Fields} {name version : Str}
    (hhas : Has result "parser") :
    validateParser U expected.mediaType result = .ok (name, version) ↔
      (name = expected.parser.name ∧ version = expected.parser.version) ∧
        ∃ parser, get result "parser" = .object parser ∧ ExactKeys ["name", "version"] parser ∧
          get parser "name" = .str expected.parser.name ∧
          get parser "version" = .str expected.parser.version := by
  obtain ⟨approved, happroved, hname, hversion⟩ := happroved
  rw [validateParser, getItem_of_has hhas, ok_bind, bind_eq_ok, happroved]
  simp only [requireMapping_eq_ok, requireExactKeys, check_bind_eq_ok]
  constructor
  · rintro ⟨parser, hparser, hkeys, h⟩
    simp only [bind_eq_ok, stringItem_eq_ok (hkeys.2 "name" (by simp)),
      stringItem_eq_ok (hkeys.2 "version" (by simp)), check_eq_ok, Except.ok.injEq] at h
    obtain ⟨_, ⟨hn, -⟩, _, ⟨hv, -⟩, -, ⟨rfl, rfl⟩, h⟩ := h
    obtain ⟨rfl, rfl⟩ := Prod.mk.inj h
    rw [hname, hversion]
    exact ⟨⟨rfl, rfl⟩, parser, hparser, hkeys, hn, hv⟩
  · rintro ⟨⟨rfl, rfl⟩, parser, hparser, hkeys, hn, hv⟩
    refine ⟨parser, hparser, hkeys, ?_⟩
    simp only [bind_eq_ok, stringItem_eq_ok (hkeys.2 "name" (by simp)),
      stringItem_eq_ok (hkeys.2 "version" (by simp)), check_eq_ok]
    exact ⟨_, ⟨hn, expected.parser.nameText⟩, _, ⟨hv, expected.parser.versionText⟩, (),
      ⟨hname, hversion⟩, rfl⟩

theorem resultHead_eq_ok (happroved : Approved expected) {payload result : Fields}
    {parser : Str × Str} {blocks : List Json} :
    resultHead U expected.sourceSha256 expected.mediaType expected.bounds payload =
        .ok (result, parser, profile, blocks) ↔
      parser = (expected.parser.name, expected.parser.version) ∧
        ExactKeys ["schema_version", "ok", "result"] payload ∧ get payload "result" = .object result ∧
        ResultHead expected profile blocks result := by
  rw [resultHead, requireExactKeys, check_bind_eq_ok]
  constructor
  · rintro ⟨hkeys, h⟩
    rw [getItem_of_has (hkeys.2 "result" (by simp)), ok_bind, bind_eq_ok] at h
    obtain ⟨fields, hresult, h⟩ := h
    rw [requireExactKeys, check_bind_eq_ok] at h
    obtain ⟨hresultKeys, h⟩ := h
    have has : ∀ name ∈ ["source_sha256", "media_type", "parser", "normalization_profile",
        "config_profile_hash", "anchor_set_hash", "blocks", "warnings"], Has fields name := hresultKeys.2
    simp only [bind_eq_ok, checkItem_eq_ok (has "source_sha256" (by simp)),
      checkItem_eq_ok (has "media_type" (by simp)), checkItem_eq_ok (has "normalization_profile" (by simp)),
      getItem_of_has (has "config_profile_hash" (by simp)),
      getItem_of_has (has "anchor_set_hash" (by simp)), getItem_of_has (has "blocks" (by simp)),
      Except.ok.injEq, requireSha256_eq_ok, asArray_eq_ok, check_eq_ok] at h
    obtain ⟨-, hsource, -, hmedia, ⟨name, version⟩, hparser, -, hnorm, _, rfl, _, ⟨hprofile, hhash⟩, _, rfl,
      anchors, hanchors, _, rfl, _, hblocks, -, ⟨hne, hbound⟩, h⟩ := h
    obtain ⟨⟨rfl, rfl⟩, hidentity⟩ := (validateParser_eq_ok happroved (has "parser" (by simp))).mp hparser
    cases h
    exact ⟨rfl, hkeys, requireMapping_eq_ok.mp hresult, hresultKeys, hsource, hmedia, hidentity, hnorm,
      hprofile, hhash, ⟨anchors, hanchors⟩, hblocks, hne, hbound⟩
  · rintro ⟨rfl, hkeys, hresult, h⟩
    refine ⟨hkeys, ?_⟩
    rw [getItem_of_has (hkeys.2 "result" (by simp)), ok_bind, requireMapping_eq_ok.mpr hresult, ok_bind,
      requireExactKeys, check_bind_eq_ok]
    refine ⟨h.keys, ?_⟩
    simp only [bind_eq_ok, checkItem_eq_ok (h.keys.2 "source_sha256" (by simp)),
      checkItem_eq_ok (h.keys.2 "media_type" (by simp)),
      checkItem_eq_ok (h.keys.2 "normalization_profile" (by simp)),
      getItem_of_has (h.keys.2 "config_profile_hash" (by simp)),
      getItem_of_has (h.keys.2 "anchor_set_hash" (by simp)), getItem_of_has (h.keys.2 "blocks" (by simp)),
      Except.ok.injEq, requireSha256_eq_ok, asArray_eq_ok, check_eq_ok]
    obtain ⟨anchors, hanchors⟩ := h.anchorSetHash
    have hparser := (validateParser_eq_ok happroved (h.keys.2 "parser" (by simp))).mpr ⟨⟨rfl, rfl⟩, h.parser⟩
    exact ⟨(), h.source, (), h.mediaType, _, hparser, (), h.normalization, _, rfl, profile,
      ⟨h.profileField, h.profileHash⟩, _, rfl, anchors, hanchors, _, rfl, blocks, h.blocksField, (),
      ⟨h.nonempty, h.bounded⟩, rfl⟩

theorem validateSuccess_eq_ok (happroved : Approved expected) {payload : Fields} :
    validateSuccess U expected.sourceSha256 expected.mediaType expected.bounds payload = .ok () ↔
      ExactKeys ["schema_version", "ok", "result"] payload ∧
        ∃ result profile blocks rows, get payload "result" = .object result ∧
          IsResult expected profile blocks rows result ∧ (rows.map Prod.snd).Nodup := by
  rw [validateSuccess, bind_eq_ok]
  constructor
  · rintro ⟨⟨result, ⟨name, version⟩, profile, blocks⟩, hok, h⟩
    obtain ⟨hparser, hkeys, hresult, hhead⟩ := (resultHead_eq_ok happroved).mp hok
    obtain ⟨rfl, rfl⟩ := Prod.mk.inj hparser
    dsimp only at h
    rw [bind_eq_ok] at h
    obtain ⟨⟨hashes, total⟩, hblocks, h⟩ := h
    obtain ⟨rows, hrows, htotal, hs⟩ := (foldlM_blocks (acceptsBlocks happroved)).mp hblocks
    rw [List.nil_append, zero_add] at hs
    obtain ⟨rfl, rfl⟩ := Prod.mk.inj hs
    dsimp only at h
    rw [check_bind_eq_ok, bind_eq_ok] at h
    obtain ⟨hnodup, hash, hhash, h⟩ := h
    simp only [bind_eq_ok, checkItem_eq_ok (hhead.keys.2 "anchor_set_hash" (by simp)),
      getItem_of_has (hhead.keys.2 "warnings" (by simp)), Except.ok.injEq, asArray_eq_ok,
      forM_warnings acceptsWarnings] at h
    obtain ⟨-, hset, _, rfl, warnings, hwarnings, hall⟩ := h
    have htotal := htotal.resolve_left hhead.nonempty
    rw [zero_add] at htotal
    exact ⟨hkeys, result, profile, blocks, rows, hresult, ⟨hhead, hrows, htotal,
      ⟨hash, (canonicalSha256_congr U collision "").mp hhash, hset⟩, warnings, hwarnings, hall⟩, hnodup⟩
  · rintro ⟨hkeys, result, profile, blocks, rows, hresult, h, hnodup⟩
    refine ⟨(result, (expected.parser.name, expected.parser.version), profile, blocks),
      (resultHead_eq_ok happroved).mpr ⟨rfl, hkeys, hresult, h.toResultHead⟩, ?_⟩
    have hblocks : (blocks.zipIdx).foldlM (validateBlock U expected.sourceSha256 expected.mediaType
        expected.bounds profile expected.parser.name expected.parser.version) ([], 0) = .ok _ :=
      (foldlM_blocks (acceptsBlocks happroved)).mpr
        ⟨rows, h.areBlocks, Or.inr (by rw [zero_add]; exact h.total), rfl⟩
    obtain ⟨hash, hhash, hset⟩ := h.anchorSet
    obtain ⟨warnings, hwarnings, hall⟩ := h.warnings
    dsimp only
    rw [hblocks, ok_bind]
    dsimp only
    rw [List.nil_append, check_bind_eq_ok, (canonicalSha256_congr U "" collision).mp hhash, ok_bind]
    refine ⟨hnodup, ?_⟩
    simp only [bind_eq_ok, checkItem_eq_ok (h.keys.2 "anchor_set_hash" (by simp)),
      getItem_of_has (h.keys.2 "warnings" (by simp)), Except.ok.injEq, asArray_eq_ok,
      forM_warnings acceptsWarnings]
    exact ⟨(), hset, _, rfl, warnings, hwarnings, hall⟩

theorem validateFailure_eq_ok {payload : Fields} :
    validateFailure U payload = .ok () ↔
      ExactKeys ["schema_version", "ok", "error"] payload ∧ ∃ error, get payload "error" = .object error ∧
        ExactKeys ["code", "message", "retryable"] error ∧ (get error "code").OneOf errorCodes ∧
        (∃ message, get error "message" = .str message ∧ ProtocolText U 512 message ∧
          (10 : CodePoint) ∉ message) ∧ ∃ b, get error "retryable" = .bool b := by
  rw [validateFailure, requireExactKeys, check_bind_eq_ok]
  refine and_congr_right fun hkeys ↦ ?_
  rw [getItem_of_has (hkeys.2 "error" (by simp)), ok_bind, bind_eq_ok]
  simp only [requireMapping_eq_ok, requireExactKeys, check_bind_eq_ok]
  refine exists_congr fun error ↦ and_congr_right fun _ ↦ and_congr_right fun herror ↦ ?_
  rw [getItem_of_has (herror.2 "code" (by simp)), ok_bind]
  simp only [bind_eq_ok, check_eq_ok, stringItem_eq_ok (herror.2 "message" (by simp)),
    getItem_of_has (herror.2 "retryable" (by simp)), Except.ok.injEq, isBool_iff]
  constructor
  · rintro ⟨known, hcode, -, rfl, message, ⟨hmessage, htext⟩, -, hline, _, rfl, hretryable⟩
    exact ⟨isIn_eq_ok_true.mp hcode, ⟨message, hmessage, htext, hline⟩, hretryable⟩
  · rintro ⟨hcode, ⟨message, hmessage, htext, hline⟩, hretryable⟩
    exact ⟨true, isIn_eq_ok_true.mpr hcode, (), rfl, message, ⟨hmessage, htext⟩, (), hline, _, rfl,
      hretryable⟩

/-- **What the protocol validator accepts**: the envelopes of the contract, where the anchors of a
success are pairwise distinct. -/
theorem validateParserPayload_eq_ok (happroved : Approved expected) {payload : Fields} :
    validateParserPayload U expected.sourceSha256 expected.mediaType expected.bounds payload = .ok () ↔
      IsSha256 expected.sourceSha256 ∧
        ((∃ rows, IsSuccess expected rows payload ∧ (rows.map Prod.snd).Nodup) ∨ IsFailure U payload) := by
  rw [validateParserPayload, check_bind_eq_ok, check_bind_eq_ok, check_bind_eq_ok,
    and_iff_right happroved.mediaType_ne]
  refine and_congr_right fun _ ↦ ?_
  constructor
  · rintro ⟨⟨hversion, hok⟩, h⟩
    obtain ⟨b, hb⟩ := isBool_iff.mp hok
    have hhas : Has payload "ok" := has_of_get_ne_null (by rw [hb]; exact Json.noConfusion)
    rw [getItem_of_has hhas, ok_bind, hb] at h
    cases b with
    | true =>
      obtain ⟨hkeys, result, profile, blocks, rows, hresult, hall, hnodup⟩ :=
        (validateSuccess_eq_ok happroved).mp h
      exact Or.inl ⟨rows, ⟨⟨hversion, hb⟩, hkeys, result, profile, blocks, hresult, hall⟩, hnodup⟩
    | false => exact Or.inr ⟨⟨hversion, hb⟩, validateFailure_eq_ok.mp h⟩
  · rintro (⟨rows, ⟨⟨hversion, hb⟩, hkeys, result, profile, blocks, hresult, hall⟩, hnodup⟩ |
      ⟨⟨hversion, hb⟩, hfailure⟩)
    · refine ⟨⟨hversion, isBool_iff.mpr ⟨_, hb⟩⟩, ?_⟩
      rw [getItem_of_has (hkeys.2 "ok" (by simp)), ok_bind, hb]
      exact (validateSuccess_eq_ok happroved).mpr
        ⟨hkeys, result, profile, blocks, rows, hresult, hall, hnodup⟩
    · refine ⟨⟨hversion, isBool_iff.mpr ⟨_, hb⟩⟩, ?_⟩
      rw [getItem_of_has (hfailure.1.2 "ok" (by simp)), ok_bind, hb]
      exact validateFailure_eq_ok.mpr hfailure

end Accepts

/-! ## What the validator raises -/

section Raises

variable {U : Nfc} {expected : Expected U} {profile text : Str} {v : Json}

theorem not_raises_anchorHead {source : Str} : ¬Raises Exc.Uncaught (anchorHead U source profile text v) := by
  refine not_raises_bind not_raises_requireMapping fun anchor _ ↦ ?_
  rw [requireExactKeys, raises_check_bind]
  rintro ⟨hkeys, h⟩
  rw [getItem_of_has (hkeys.2 "schema_version" (by simp)), ok_bind] at h
  refine not_raises_bind not_raises_check (fun _ _ ↦ ?_) h
  refine not_raises_bind (not_raises_stringItem (hkeys.2 "kind" (by simp))) fun _ _ ↦ ?_
  refine not_raises_bind (not_raises_checkItem (hkeys.2 "source_sha256" (by simp))) fun _ _ ↦ ?_
  refine not_raises_bind (not_raises_checkItem (hkeys.2 "extraction_profile_hash" (by simp))) fun _ _ ↦ ?_
  refine not_raises_bind (not_raises_textFingerprint U text) fun _ _ ↦ ?_
  exact not_raises_bind (not_raises_checkItem (hkeys.2 "text_fingerprint" (by simp))) fun _ _ ↦
    not_raises_ok

theorem raises_validateAnchor {maximum : ℤ} (htext : ProtocolText U maximum text) {name version : Str} :
    Raises Exc.Uncaught (validateAnchor U expected.sourceSha256 profile text name version v) ↔
      ∃ anchor, ∃ kind : AnchorKind, ∃ locator, v = .object anchor ∧
        AnchorHead expected profile text (lit kind.value) anchor ∧
        get anchor "locator" = .object locator ∧ LocatorTrap U kind locator := by
  rw [validateAnchor, raises_bind_of_not not_raises_anchorHead]
  constructor
  · rintro ⟨⟨anchor, kind⟩, hok, h⟩
    obtain ⟨hv, hhead, -⟩ := (anchorHead_eq_ok htext).mp hok
    dsimp only at h
    rw [getItem_of_has (hhead.keys.2 "locator" (by simp)), ok_bind,
      raises_bind_of_not not_raises_requireMapping] at h
    obtain ⟨locator, hlocator, h⟩ := h
    rcases raises_bind.mp h with h | ⟨_, -, h⟩
    · obtain ⟨k, rfl, htrap⟩ := Dialect.raises_validateLocator.mp h
      exact ⟨anchor, k, locator, hv, hhead, requireMapping_eq_ok.mp hlocator, htrap⟩
    · exact absurd h not_raises_ok
  · rintro ⟨anchor, k, locator, hv, hhead, hlocator, htrap⟩
    refine ⟨(anchor, lit k.value), (anchorHead_eq_ok htext).mpr ⟨hv, hhead, protocolText_value U k⟩, ?_⟩
    dsimp only
    rw [getItem_of_has (hhead.keys.2 "locator" (by simp)), ok_bind, requireMapping_eq_ok.mpr hlocator,
      ok_bind, raises_bind]
    exact Or.inl (Dialect.raises_validateLocator.mpr ⟨k, rfl, htrap⟩)

theorem not_raises_blockHead {bounds : Bounds} {total : ℤ} {ordinal : ℕ} :
    ¬Raises Exc.Uncaught (blockHead U bounds total ordinal v) := by
  refine not_raises_bind not_raises_requireMapping fun block _ ↦ ?_
  rw [requireExactKeys, raises_check_bind]
  rintro ⟨hkeys, h⟩
  rw [getItem_of_has (hkeys.2 "ordinal" (by simp)), ok_bind] at h
  refine not_raises_bind not_raises_check (fun _ _ ↦ ?_) h
  refine not_raises_bind (not_raises_stringItem (hkeys.2 "text" (by simp))) fun _ _ ↦ ?_
  refine not_raises_bind not_raises_check fun _ _ ↦ ?_
  exact not_raises_bind (not_raises_stringItem (hkeys.2 "block_type" (by simp))) fun _ _ ↦ not_raises_ok

theorem raises_validateConfidence : Raises Exc.Uncaught (validateConfidence v) ↔ Overflows v := by
  unfold validateConfidence
  split
  · exact iff_of_false not_raises_ok not_false
  · rw [raises_bind, raises_requireUnit]
    exact or_iff_left fun ⟨_, _, h⟩ ↦ not_raises_ok h

theorem raises_validateBlock (happroved : Approved expected) {hashes : List Str} {total : ℤ}
    {ordinal : ℕ} :
    Raises Exc.Uncaught (validateBlock U expected.sourceSha256 expected.mediaType expected.bounds profile
        expected.parser.name expected.parser.version (hashes, total) (v, ordinal)) ↔
      BlockTrap expected (fun _ ↦ True) profile total ordinal v := by
  rw [validateBlock, raises_bind_of_not not_raises_blockHead]
  constructor
  · rintro ⟨⟨block, text⟩, hok, h⟩
    obtain ⟨hv, hhead, hbound⟩ := blockHead_eq_ok.mp hok
    refine ⟨block, text, hv, hhead, hbound, ?_⟩
    dsimp only at h
    rw [getItem_of_has (hhead.keys.2 "confidence" (by simp)), ok_bind, raises_bind,
      raises_validateConfidence] at h
    refine h.imp_right fun ⟨_, hconfidence, h⟩ ↦ ⟨validateConfidence_eq_ok.mp hconfidence, ?_⟩
    rw [getItem_of_has (hhead.keys.2 "anchor" (by simp)), ok_bind] at h
    rcases raises_bind.mp h with h | ⟨anchor, hanchor, h⟩
    · obtain ⟨anchor, kind, locator, hanchor, htrap⟩ := (raises_validateAnchor hhead.textOk).mp h
      exact ⟨anchor, kind, locator, trivial, hanchor, htrap⟩
    · -- Past its anchor a block only meets `ValueError`s.
      obtain ⟨-, kind, hanchorHead, -⟩ := (validateAnchor_eq_ok hhead.textOk).mp hanchor
      rw [happroved.expectedAnchorKind, ok_bind] at h
      refine absurd h (not_raises_bind (not_raises_checkItem (hanchorHead.keys.2 "kind" (by simp))) ?_)
      refine fun _ _ ↦ not_raises_bind (not_raises_canonicalSha256 U _ _) fun _ _ ↦ ?_
      exact not_raises_bind (not_raises_checkItem (hhead.keys.2 "anchor_hash" (by simp))) fun _ _ ↦
        not_raises_ok
  · rintro ⟨block, text, hv, hhead, hbound, h⟩
    refine ⟨(block, text), blockHead_eq_ok.mpr ⟨hv, hhead, hbound⟩, ?_⟩
    dsimp only
    rw [getItem_of_has (hhead.keys.2 "confidence" (by simp)), ok_bind, raises_bind,
      raises_validateConfidence]
    refine h.imp_right fun ⟨hconfidence, anchor, kind, locator, _, hanchor, htrap⟩ ↦
      ⟨(), validateConfidence_eq_ok.mpr hconfidence, ?_⟩
    rw [getItem_of_has (hhead.keys.2 "anchor" (by simp)), ok_bind, raises_bind]
    exact Or.inl ((raises_validateAnchor hhead.textOk).mpr ⟨anchor, kind, locator, hanchor, htrap⟩)

theorem raises_validateWarning {count i : ℕ} :
    Raises Exc.Uncaught (validateWarning U count (v, i)) ↔ WarningTrap v := by
  rw [validateWarning, raises_bind_of_not not_raises_requireMapping]
  simp only [requireExactKeys, raises_check_bind]
  refine exists_congr fun warning ↦ and_congr requireMapping_eq_ok (and_congr_right fun hkeys ↦ ?_)
  rw [getItem_of_has (hkeys.2 "code" (by simp)), ok_bind, raises_bind, raises_isIn]
  refine or_iff_left ?_
  rintro ⟨known, -, h⟩
  refine not_raises_bind not_raises_check (fun _ _ ↦ ?_) h
  refine not_raises_bind (not_raises_stringItem (hkeys.2 "message" (by simp))) fun _ _ ↦ ?_
  rw [getItem_of_has (hkeys.2 "block_ordinal" (by simp)), ok_bind]
  split
  · exact not_raises_ok
  · exact not_raises_bind not_raises_requireIndex fun _ _ ↦ not_raises_check

theorem not_raises_validateParser (happroved : Approved expected) {result : Fields}
    (hhas : Has result "parser") :
    ¬Raises Exc.Uncaught (validateParser U expected.mediaType result) := by
  obtain ⟨approved, happroved, -⟩ := happroved
  rw [validateParser, getItem_of_has hhas, ok_bind, happroved]
  refine not_raises_bind not_raises_requireMapping fun parser _ ↦ ?_
  rw [requireExactKeys, raises_check_bind]
  rintro ⟨hkeys, h⟩
  refine not_raises_bind (not_raises_stringItem (hkeys.2 "name" (by simp))) (fun _ _ ↦ ?_) h
  refine not_raises_bind (not_raises_stringItem (hkeys.2 "version" (by simp))) fun _ _ ↦ ?_
  exact not_raises_bind not_raises_check fun _ _ ↦ not_raises_ok

theorem not_raises_resultHead (happroved : Approved expected) {payload : Fields} :
    ¬Raises Exc.Uncaught
      (resultHead U expected.sourceSha256 expected.mediaType expected.bounds payload) := by
  rw [resultHead, requireExactKeys, raises_check_bind]
  rintro ⟨hkeys, h⟩
  rw [getItem_of_has (hkeys.2 "result" (by simp)), ok_bind] at h
  refine not_raises_bind not_raises_requireMapping (fun result _ ↦ ?_) h
  rw [requireExactKeys, raises_check_bind]
  rintro ⟨hresult, h⟩
  have has : ∀ name ∈ ["source_sha256", "media_type", "parser", "normalization_profile",
      "config_profile_hash", "anchor_set_hash", "blocks", "warnings"], Has result name := hresult.2
  refine not_raises_bind (not_raises_checkItem (has "source_sha256" (by simp))) (fun _ _ ↦ ?_) h
  refine not_raises_bind (not_raises_checkItem (has "media_type" (by simp))) fun _ _ ↦ ?_
  refine not_raises_bind (not_raises_validateParser happroved (has "parser" (by simp))) fun _ _ ↦ ?_
  refine not_raises_bind (not_raises_checkItem (has "normalization_profile" (by simp))) fun _ _ ↦ ?_
  rw [getItem_of_has (has "config_profile_hash" (by simp)), ok_bind]
  refine not_raises_bind not_raises_requireSha256 fun _ _ ↦ ?_
  rw [getItem_of_has (has "anchor_set_hash" (by simp)), ok_bind]
  refine not_raises_bind not_raises_requireSha256 fun _ _ ↦ ?_
  rw [getItem_of_has (has "blocks" (by simp)), ok_bind]
  refine not_raises_bind not_raises_asArray fun _ _ ↦ ?_
  exact not_raises_bind not_raises_check fun _ _ ↦ not_raises_ok

theorem raises_validateSuccess (happroved : Approved expected) {payload : Fields} :
    Raises Exc.Uncaught
        (validateSuccess U expected.sourceSha256 expected.mediaType expected.bounds payload) ↔
      ExactKeys ["schema_version", "ok", "result"] payload ∧ ∃ result, get payload "result" = .object result ∧
        ResultTrap expected (fun _ ↦ True) List.Nodup result := by
  rw [validateSuccess, raises_bind_of_not (not_raises_resultHead happroved)]
  have hloop : ∀ profile blocks, Raises Exc.Uncaught (List.foldlM (validateBlock U expected.sourceSha256
      expected.mediaType expected.bounds profile expected.parser.name expected.parser.version) ([], 0)
      (List.zipIdx blocks)) ↔ _ := fun profile blocks ↦
    raises_blocks (acceptsBlocks happroved) fun _ _ _ _ ↦ raises_validateBlock happroved
  constructor
  · rintro ⟨⟨result, parser, profile, blocks⟩, hok, h⟩
    obtain ⟨rfl, hkeys, hresult, hhead⟩ := (resultHead_eq_ok happroved).mp hok
    refine ⟨hkeys, result, hresult, profile, blocks, hhead, ?_⟩
    dsimp only at h
    rw [raises_bind, hloop] at h
    refine h.imp_right ?_
    rintro ⟨⟨hashes, total⟩, hblocks, h⟩
    obtain ⟨rows, hrows, htotal, hs⟩ := (foldlM_blocks (acceptsBlocks happroved)).mp hblocks
    rw [List.nil_append, zero_add] at hs
    obtain ⟨rfl, rfl⟩ := Prod.mk.inj hs
    dsimp only at h
    rw [raises_check_bind, raises_bind_of_not (not_raises_canonicalSha256 U _ _)] at h
    obtain ⟨hnodup, hash, hhash, h⟩ := h
    rw [raises_bind_of_not (not_raises_checkItem (hhead.keys.2 "anchor_set_hash" (by simp)))] at h
    obtain ⟨_, hset, h⟩ := h
    rw [getItem_of_has (hhead.keys.2 "warnings" (by simp)), ok_bind,
      raises_bind_of_not not_raises_asArray] at h
    obtain ⟨warnings, hwarnings, h⟩ := h
    obtain ⟨pre, w, post, hsplit, hpre, htrap⟩ :=
      (raises_warnings acceptsWarnings fun _ _ ↦ raises_validateWarning).mp h
    have htotal := htotal.resolve_left hhead.nonempty
    rw [zero_add] at htotal
    exact ⟨rows, hash, warnings, pre, w, post, hrows, htotal, hnodup,
      (canonicalSha256_congr U collision "").mp hhash,
      (checkItem_eq_ok (hhead.keys.2 "anchor_set_hash" (by simp))).mp hset, asArray_eq_ok.mp hwarnings,
      hsplit, hpre, htrap⟩
  · rintro ⟨hkeys, result, hresult, profile, blocks, hhead, h⟩
    refine ⟨(result, (expected.parser.name, expected.parser.version), profile, blocks),
      (resultHead_eq_ok happroved).mpr ⟨rfl, hkeys, hresult, hhead⟩, ?_⟩
    dsimp only
    rw [raises_bind, hloop]
    refine h.imp_right ?_
    rintro ⟨rows, hash, warnings, pre, w, post, hrows, htotal, hnodup, hhash, hset, hwarnings, hsplit, hpre,
      htrap⟩
    have hsetOk : checkItem hash "anchor set hash does not match the ordered block sequence" result
        "anchor_set_hash" = .ok () :=
      (checkItem_eq_ok (hhead.keys.2 "anchor_set_hash" (by simp))).mpr hset
    refine ⟨_, (foldlM_blocks (acceptsBlocks happroved)).mpr
      ⟨rows, hrows, Or.inr (by rw [zero_add]; exact htotal), rfl⟩, ?_⟩
    dsimp only
    rw [List.nil_append, raises_check_bind, (canonicalSha256_congr U "" collision).mp hhash, ok_bind, hsetOk,
      ok_bind, getItem_of_has (hhead.keys.2 "warnings" (by simp)), ok_bind, asArray_eq_ok.mpr hwarnings,
      ok_bind]
    exact ⟨hnodup, (raises_warnings acceptsWarnings fun _ _ ↦ raises_validateWarning).mpr
      ⟨pre, w, post, hsplit, hpre, htrap⟩⟩

theorem raises_validateFailure {payload : Fields} :
    Raises Exc.Uncaught (validateFailure U payload) ↔
      ExactKeys ["schema_version", "ok", "error"] payload ∧ ∃ error, get payload "error" = .object error ∧
        ExactKeys ["code", "message", "retryable"] error ∧ (get error "code").Unhashable := by
  rw [validateFailure, requireExactKeys, raises_check_bind]
  refine and_congr_right fun hkeys ↦ ?_
  rw [getItem_of_has (hkeys.2 "error" (by simp)), ok_bind, raises_bind_of_not not_raises_requireMapping]
  simp only [requireExactKeys, raises_check_bind]
  refine exists_congr fun error ↦ and_congr requireMapping_eq_ok (and_congr_right fun herror ↦ ?_)
  rw [getItem_of_has (herror.2 "code" (by simp)), ok_bind, raises_bind, raises_isIn]
  refine or_iff_left ?_
  rintro ⟨known, -, h⟩
  refine not_raises_bind not_raises_check (fun _ _ ↦ ?_) h
  refine not_raises_bind (not_raises_stringItem (herror.2 "message" (by simp))) fun _ _ ↦ ?_
  refine not_raises_bind not_raises_check fun _ _ ↦ ?_
  rw [getItem_of_has (herror.2 "retryable" (by simp)), ok_bind]
  exact not_raises_check

/-- **What the protocol validator raises** beside a `ValueError`: a trap of a success, with a box under
any kind of anchor, or an error code that no set can hold. -/
theorem raises_validateParserPayload (happroved : Approved expected) (hsource : IsSha256 expected.sourceSha256)
    {payload : Fields} :
    Raises Exc.Uncaught
        (validateParserPayload U expected.sourceSha256 expected.mediaType expected.bounds payload) ↔
      SuccessTrap expected (fun _ ↦ True) List.Nodup payload ∨ ErrorTrap payload := by
  rw [validateParserPayload, raises_check_bind, and_iff_right hsource, raises_check_bind,
    and_iff_right happroved.mediaType_ne, raises_check_bind]
  constructor
  · rintro ⟨⟨hversion, hok⟩, h⟩
    obtain ⟨b, hb⟩ := isBool_iff.mp hok
    rw [getItem_of_has (has_of_get_ne_null (by rw [hb]; exact Json.noConfusion)), ok_bind, hb] at h
    cases b with
    | true =>
      obtain ⟨hkeys, hresult⟩ := (raises_validateSuccess happroved).mp h
      exact Or.inl ⟨⟨hversion, hb⟩, hkeys, hresult⟩
    | false =>
      obtain ⟨hkeys, herror⟩ := raises_validateFailure.mp h
      exact Or.inr ⟨⟨hversion, hb⟩, hkeys, herror⟩
  · rintro (⟨⟨hversion, hb⟩, hkeys, hresult⟩ | ⟨⟨hversion, hb⟩, hkeys, herror⟩)
    · refine ⟨⟨hversion, isBool_iff.mpr ⟨_, hb⟩⟩, ?_⟩
      rw [getItem_of_has (hkeys.2 "ok" (by simp)), ok_bind, hb]
      exact (raises_validateSuccess happroved).mpr ⟨hkeys, hresult⟩
    · refine ⟨⟨hversion, isBool_iff.mpr ⟨_, hb⟩⟩, ?_⟩
      rw [getItem_of_has (hkeys.2 "ok" (by simp)), ok_bind, hb]
      exact raises_validateFailure.mpr ⟨hkeys, herror⟩

end Raises

end Protocol

end MeetingRag
