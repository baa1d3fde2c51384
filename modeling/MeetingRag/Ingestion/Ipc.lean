import MeetingRag.Ingestion.Blocks

/-!
# The validator of the orchestrator

`_validate_phase1_payload`, which the orchestrator applies to the result file of a parser process. It
accepts the envelopes of the contract for the parser that its request pins
(`validatePhase1Payload_ok_iff`), and it raises something else than a `ValueError` exactly at a trap of
a success (`raises_validatePhase1Payload`).
-/

open Outcome Py Json

namespace MeetingRag

namespace Ipc

/-- `SandboxRequest`. -/
structure SandboxRequest (U : Nfc) where
  inputBytes : List UInt8
  expectedMediaType : MediaType
  expectedParser : ParserIdentity U

/-- What the request and the bounds of the policy expect. -/
def SandboxRequest.expected {U : Nfc} (request : SandboxRequest U) (policy : Bounds) : Expected U where
  sourceSha256 := sha256Hex request.inputBytes
  mediaType := request.expectedMediaType
  parser := request.expectedParser
  bounds := policy

/-- `_ParsedFailure`. -/
structure ParsedFailure where
  code : Str
  retryable : Bool

def collision : String := "canonical JSON has colliding normalized keys"

section Code

variable (U : Nfc)

/-- `_require_normalized_text`. -/
def requireNormalizedText (label : String) (maximum : ℤ) : Json → Except Exc Str
  | .str s => do
    check (s ≠ [] ∧ s.length ≤ maximum) (label ++ " must be bounded non-empty text")
    check (Scalar s) (label ++ " must contain Unicode scalar values")
    check (U.normalizeText s = s) (label ++ " must use NFC/LF normalization")
    .ok s
  | _ => .error (.valueError (label ++ " must be bounded non-empty text"))

/-- The check of `_validate_locator` that an HWP locator has the parser of the request. -/
def identity (name version : Str) (locator : Fields) : Except Exc Unit :=
  check (EqStr name (get locator "parser") ∧ EqStr version (get locator "parser_version"))
    "HWP locator parser identity does not match the request"

end Code

theorem requireNormalizedText_eq_ok {U : Nfc} {label : String} {maximum : ℤ} {v : Json} {s : Str} :
    requireNormalizedText U label maximum v = .ok s ↔ v = .str s ∧ ProtocolText U maximum s := by
  cases v with
  | str t =>
    rw [requireNormalizedText, check_bind_eq_ok, check_bind_eq_ok, check_bind_eq_ok, Except.ok.injEq,
      Json.str.injEq]
    constructor
    · rintro ⟨⟨hne, hbound⟩, hscalar, hnorm, rfl⟩
      exact ⟨rfl, hne, hbound, hnorm, hscalar⟩
    · rintro ⟨rfl, h⟩
      exact ⟨⟨h.nonempty, h.bounded⟩, h.scalar, h.normalized, rfl⟩
  | _ => simp [requireNormalizedText]

theorem not_raises_requireNormalizedText {U : Nfc} {label : String} {maximum : ℤ} {v : Json} :
    ¬Raises Exc.Uncaught (requireNormalizedText U label maximum v) := by
  cases v with
  | str s =>
    refine not_raises_bind not_raises_check fun _ _ ↦ not_raises_bind not_raises_check fun _ _ ↦ ?_
    exact not_raises_bind not_raises_check fun _ _ ↦ not_raises_ok
  | _ => simp [requireNormalizedText]

/-- How this validator checks a locator. -/
def dialect (U : Nfc) : Dialect U where
  item fields name := .ok (get fields name)
  text := requireNormalizedText U
  identity := identity
  blockId := "PDF block id"
  imageId := "image id"
  bboxShape := "bbox must contain four coordinates"
  bboxCoordinate := "bbox coordinate is outside [0, 1]"
  bboxArea := "bbox must have positive area"
  unknownKind := "anchor kind is unsupported"
  item_of_has _ := rfl
  text_eq_ok := requireNormalizedText_eq_ok
  not_raises_text := not_raises_requireNormalizedText
  identity_eq_ok _ _ := by rw [identity, check_eq_ok, eqStr_iff, eqStr_iff]
  not_raises_identity _ _ := not_raises_check

/-! ## The checks in order -/

section Code

variable {U : Nfc} (expected : Expected U)

/-- The part of `_validate_anchor` before the locator. -/
def anchorHead (profile text : Str) (anchor : Fields) : Except Exc Unit := do
  requireExactKeys ["schema_version", "kind", "source_sha256", "extraction_profile_hash", "locator",
    "text_fingerprint"] "anchor" anchor
  check (EqInt 1 (get anchor "schema_version")) "anchor schema version is unsupported"
  check (EqStr (lit (anchorKind expected.mediaType).value) (get anchor "kind"))
    "anchor kind is incompatible with the media type"
  check (EqStr expected.sourceSha256 (get anchor "source_sha256"))
    "anchor source does not match the staged snapshot"
  check (EqStr profile (get anchor "extraction_profile_hash"))
    "anchor profile does not match the extraction result"
  let fingerprint ← requireSha256 "anchor text fingerprint" (get anchor "text_fingerprint")
  let data ← encode (U.normalizeText text)
  check (fingerprint = sha256Hex data) "anchor fingerprint does not match the block text"

/-- `_validate_anchor`. -/
def validateAnchor (profile text : Str) (anchor : Fields) : Except Exc Unit := do
  anchorHead expected profile text anchor
  let locator ← requireMapping "anchor locator" (get anchor "locator")
  (dialect U).validateLocator expected.parser.name expected.parser.version
    (lit (anchorKind expected.mediaType).value) locator

/-- The part of `_validate_success_payload` about a block up to its confidence. -/
def blockHead (total : ℤ) (ordinal : ℕ) (v : Json) : Except Exc (Fields × Str) := do
  let block ← requireMapping ("blocks[" ++ toString ordinal ++ "]") v
  requireExactKeys ["ordinal", "text", "block_type", "confidence", "anchor", "anchor_hash"]
    ("blocks[" ++ toString ordinal ++ "]") block
  check (EqInt ordinal (get block "ordinal")) "block ordinals must be contiguous"
  let text ← requireNormalizedText U ("blocks[" ++ toString ordinal ++ "].text")
    expected.bounds.maxBlockChars (get block "text")
  check (total + text.length ≤ expected.bounds.maxTotalChars) "result text exceeds the configured limit"
  let _ ← requireNormalizedText U "block type" 64 (get block "block_type")
  .ok (block, text)

/-- `_validate_confidence`. -/
def validateConfidence : Json → Except Exc Unit
  | .null => .ok ()
  | v => do
    let _ ← requireUnit "block confidence is invalid" v
    .ok ()

/-- The part of `_validate_success_payload` about a block: the anchor hashes and the characters so
far, and those with the block. -/
def validateBlock (profile : Str) : List Str × ℤ → Json × ℕ → Except Exc (List Str × ℤ)
  | (hashes, total), (v, ordinal) => do
    let (block, text) ← blockHead expected total ordinal v
    validateConfidence (get block "confidence")
    let anchor ← requireMapping ("blocks[" ++ toString ordinal ++ "].anchor") (get block "anchor")
    validateAnchor expected profile text anchor
    let anchorHash ← requireSha256 "block anchor hash" (get block "anchor_hash")
    let hash ← canonicalSha256 U collision (.object anchor)
    check (anchorHash = hash) "block anchor hash is not canonical"
    .ok (hashes ++ [anchorHash], total + text.length)

/-- The part of `_validate_warnings` about one warning. -/
def validateWarning (U : Nfc) (count : ℕ) : Json × ℕ → Except Exc Unit
  | (v, index) => do
    let warning ← requireMapping ("warnings[" ++ toString index ++ "]") v
    requireExactKeys ["code", "message", "block_ordinal"] "warning" warning
    let known ← isIn warningCodes (get warning "code")
    check (known = true) "warning code is unsupported"
    let _ ← requireNormalizedText U "warning message" 512 (get warning "message")
    match get warning "block_ordinal" with
    | .null => .ok ()
    | ordinal => do
      let n ← requireIndex "warning block ordinal" 0 ordinal
      check (n < count) "warning references an unknown block"

/-- `_validate_warnings`. -/
def validateWarnings (U : Nfc) (v : Json) (count : ℕ) : Except Exc Unit := do
  let warnings ← asArray "warnings must be an array" v
  (warnings.zipIdx).forM (validateWarning U count)

/-- The part of `_validate_success_payload` up to the blocks: the result, its profile, the hash of its
anchor set and its blocks. -/
def resultHead (payload : Fields) : Except Exc (Fields × Str × Str × List Json) := do
  requireExactKeys ["schema_version", "ok", "result"] "success envelope" payload
  let result ← getItem payload "result"
  let result ← requireMapping "result" result
  requireExactKeys ["source_sha256", "media_type", "parser", "normalization_profile",
    "config_profile_hash", "anchor_set_hash", "blocks", "warnings"] "result" result
  check (EqStr expected.sourceSha256 (get result "source_sha256"))
    "result source does not match the staged snapshot"
  check (EqStr (lit expected.mediaType.value) (get result "media_type"))
    "result media type does not match the request"
  let parser ← getItem result "parser"
  let parser ← requireMapping "result.parser" parser
  requireExactKeys ["name", "version"] "result.parser" parser
  check (EqStr expected.parser.name (get parser "name") ∧
      EqStr expected.parser.version (get parser "version"))
    "result parser does not match the pinned request"
  check (EqStr (lit "nfc-lf-v1") (get result "normalization_profile"))
    "result normalization profile is unsupported"
  let profile ← requireSha256 "result config profile" (get result "config_profile_hash")
  let anchorSetHash ← requireSha256 "result anchor set" (get result "anchor_set_hash")
  let blocks ← asArray "result blocks are missing or exceed the configured limit" (get result "blocks")
  check (blocks ≠ [] ∧ blocks.length ≤ expected.bounds.maxBlocks)
    "result blocks are missing or exceed the configured limit"
  .ok (result, profile, anchorSetHash, blocks)

/-- `_validate_success_payload`. -/
def validateSuccessPayload (payload : Fields) : Except Exc Unit := do
  let (result, profile, anchorSetHash, blocks) ← resultHead expected payload
  let (hashes, _) ← (blocks.zipIdx).foldlM (validateBlock expected profile) ([], 0)
  let hash ← canonicalSha256 U collision (anchorSet hashes)
  check (anchorSetHash = hash) "anchor set hash is not canonical"
  validateWarnings U (get result "warnings") blocks.length

/-- The check of a failure code. -/
def failureCode : Json → Except Exc Str
  | .str code => do
    check (∃ c ∈ errorCodes, code = lit c) "parser failure code is unsupported"
    .ok code
  | _ => .error (.valueError "parser failure code is unsupported")

/-- The check that a failure says whether it is retryable. -/
def failureRetryable : Json → Except Exc Bool
  | .bool b => .ok b
  | _ => .error (.valueError "parser failure retryable must be boolean")

/-- `_validate_failure_payload`. -/
def validateFailurePayload (U : Nfc) (payload : Fields) : Except Exc ParsedFailure := do
  requireExactKeys ["schema_version", "ok", "error"] "failure envelope" payload
  let error ← getItem payload "error"
  let error ← requireMapping "error" error
  requireExactKeys ["code", "message", "retryable"] "error" error
  let code ← failureCode (get error "code")
  let message ← requireNormalizedText U "parser failure message" 512 (get error "message")
  check ((10 : CodePoint) ∉ message) "parser failure message must be a single line"
  let retryable ← failureRetryable (get error "retryable")
  .ok ⟨code, retryable⟩

/-- `_validate_phase1_payload`. -/
def validatePhase1Payload (payload : Fields) (request : SandboxRequest U) (policy : Bounds) :
    Except Exc (Option ParsedFailure) := do
  check (EqInt 1 (get payload "schema_version") ∧ (get payload "ok").isBool = true)
    "parser result header is invalid"
  let ok ← getItem payload "ok"
  match ok with
  | .bool false => do
    let failure ← validateFailurePayload U payload
    .ok (some failure)
  | _ => do
    validateSuccessPayload (request.expected policy) payload
    .ok none

end Code

/-! ## What the validator accepts -/

section Accepts

variable {U : Nfc} {expected : Expected U} {profile text : Str} {v : Json}

theorem anchorHead_eq_ok {maximum : ℤ} (htext : ProtocolText U maximum text) {anchor : Fields} {w : Unit} :
    anchorHead expected profile text anchor = .ok w ↔
      AnchorHead expected profile text (lit (anchorKind expected.mediaType).value) anchor := by
  simp only [anchorHead, requireExactKeys, bind_eq_ok, requireSha256_eq_ok, check_eq_ok,
    eqStr_iff, htext.normalized, encode_of_scalar htext.scalar, Except.ok.injEq]
  constructor
  · rintro ⟨-, hkeys, -, hversion, -, hkind, -, hsource, -, hprofile, _, ⟨hfingerprint, -⟩, _, rfl, rfl⟩
    exact ⟨hkeys, hversion, hkind, hsource, hprofile, hfingerprint⟩
  · intro h
    exact ⟨(), h.keys, (), h.schemaVersion, (), h.kindField, (), h.source, (), h.profileField, _,
      ⟨h.fingerprint, isSha256_sha256Hex _⟩, _, rfl, rfl⟩

theorem validateAnchor_eq_ok {maximum : ℤ} (htext : ProtocolText U maximum text) {anchor : Fields}
    {w : Unit} :
    validateAnchor expected profile text anchor = .ok w ↔ IsAnchor expected profile text anchor := by
  simp only [validateAnchor, bind_eq_ok, anchorHead_eq_ok htext, requireMapping_eq_ok,
    Dialect.validateLocator_value]
  constructor
  · rintro ⟨-, hhead, locator, hlocator, hok⟩
    exact ⟨hhead, locator, hlocator, hok⟩
  · rintro ⟨hhead, locator, hlocator, hok⟩
    exact ⟨(), hhead, locator, hlocator, hok⟩

theorem blockHead_eq_ok {total : ℤ} {ordinal : ℕ} {block : Fields} :
    blockHead expected total ordinal v = .ok (block, text) ↔
      v = .object block ∧ BlockHead expected ordinal text block ∧
        total + text.length ≤ expected.bounds.maxTotalChars := by
  simp only [blockHead, bind_eq_ok, requireMapping_eq_ok, requireExactKeys, check_eq_ok,
    requireNormalizedText_eq_ok, Except.ok.injEq, Prod.mk.injEq]
  constructor
  · rintro ⟨_, rfl, -, hkeys, -, hordinal, _, ⟨htext, htextOk⟩, -, hbound, blockType, hblockType, rfl, rfl⟩
    exact ⟨rfl, ⟨hkeys, hordinal, htext, htextOk, blockType, hblockType⟩, hbound⟩
  · rintro ⟨rfl, h, hbound⟩
    obtain ⟨blockType, hblockType⟩ := h.blockType
    exact ⟨block, rfl, (), h.keys, (), h.ordinalField, text, ⟨h.textField, h.textOk⟩, (), hbound, blockType,
      hblockType, rfl, rfl⟩

theorem validateConfidence_eq_ok {w : Unit} : validateConfidence v = .ok w ↔ IsConfidence v := by
  unfold validateConfidence
  split
  · exact iff_of_true rfl (Or.inl rfl)
  · next hnull =>
    rw [bind_eq_ok, IsConfidence, or_iff_right hnull, Option.isSome_iff_exists]
    simp only [requireUnit_eq_ok, and_true]

theorem acceptsBlocks : AcceptsBlocks expected profile (validateBlock expected profile) := by
  intro hashes total v ordinal s
  rw [validateBlock, bind_eq_ok]
  constructor
  · rintro ⟨⟨block, text⟩, hok, h⟩
    obtain ⟨rfl, hhead, hbound⟩ := blockHead_eq_ok.mp hok
    simp only [bind_eq_ok, validateConfidence_eq_ok, requireMapping_eq_ok,
      validateAnchor_eq_ok hhead.textOk, requireSha256_eq_ok, check_eq_ok] at h
    obtain ⟨-, hconfidence, anchor, hfield, -, hanchor, hash, ⟨hanchorHash, -⟩, _, hhash, -, rfl, h⟩ := h
    exact ⟨block, text, hash, rfl, ⟨hhead, hconfidence,
      ⟨anchor, hfield, hanchor, (canonicalSha256_congr U collision "").mp hhash⟩, hanchorHash⟩, hbound,
      (Except.ok.inj h).symm⟩
  · rintro ⟨block, text, hash, rfl, hblock, hbound, rfl⟩
    obtain ⟨anchor, hfield, hanchor, hhash⟩ := hblock.anchorField
    refine ⟨(block, text), blockHead_eq_ok.mpr ⟨rfl, hblock.toBlockHead, hbound⟩, ?_⟩
    simp only [bind_eq_ok, validateConfidence_eq_ok, requireMapping_eq_ok,
      validateAnchor_eq_ok hblock.textOk, requireSha256_eq_ok, check_eq_ok]
    exact ⟨(), hblock.confidence, anchor, hfield, (), hanchor, hash,
      ⟨hblock.anchorHash, isSha256_of_canonicalSha256 hhash⟩, hash,
      (canonicalSha256_congr U "" collision).mp hhash, (), rfl, rfl⟩

theorem acceptsWarnings {count : ℕ} : AcceptsWarnings U count (validateWarning U count) := by
  intro w i
  simp only [validateWarning, bind_eq_ok, requireMapping_eq_ok, requireExactKeys, check_eq_ok,
    requireNormalizedText_eq_ok]
  constructor
  · rintro ⟨warning, hw, -, hkeys, known, hcode, -, rfl, message, hmessage, h⟩
    refine ⟨warning, hw, hkeys, isIn_eq_ok_true.mp hcode, ⟨message, hmessage⟩, ?_⟩
    split at h
    · next hnull => exact Or.inl hnull
    · simp only [bind_eq_ok, requireIndex_eq_ok, check_eq_ok] at h
      obtain ⟨n, ⟨hn, hnonneg⟩, hlt⟩ := h
      exact Or.inr ⟨n, hn, hnonneg, hlt⟩
  · rintro ⟨warning, hw, hkeys, hcode, ⟨message, hmessage⟩, hordinal⟩
    refine ⟨warning, hw, (), hkeys, true, isIn_eq_ok_true.mpr hcode, (), rfl, message, hmessage, ?_⟩
    rcases hordinal with hnull | ⟨n, hn, hnonneg, hlt⟩
    · rw [hnull]
    · rw [hn]
      exact bind_eq_ok.mpr ⟨n, requireIndex_eq_ok.mpr ⟨rfl, hnonneg⟩, check_eq_ok.mpr hlt⟩

theorem resultHead_eq_ok {payload result : Fields} {anchorSetHash : Str} {blocks : List Json} :
    resultHead expected payload = .ok (result, profile, anchorSetHash, blocks) ↔
      ExactKeys ["schema_version", "ok", "result"] payload ∧ get payload "result" = .object result ∧
        ResultHead expected profile blocks result ∧ get result "anchor_set_hash" = .str anchorSetHash := by
  rw [resultHead, requireExactKeys, check_bind_eq_ok]
  refine and_congr_right fun hkeys ↦ ?_
  rw [getItem_of_has (hkeys.2 "result" (by simp)), ok_bind]
  simp only [bind_eq_ok, requireMapping_eq_ok, requireExactKeys, check_eq_ok, eqStr_iff, requireSha256_eq_ok,
    asArray_eq_ok, Except.ok.injEq, Prod.mk.injEq]
  constructor
  · rintro ⟨_, hresult, -, hresultKeys, -, hsource, -, hmedia, _, hitem, parser, hparser, -, hparserKeys, -,
      ⟨hname, hversion⟩, -, hnorm, _, ⟨hprofile, hhash⟩, anchors, ⟨hanchors, hanchorsHash⟩, _, hblocks, -,
      ⟨hne, hbound⟩, rfl, rfl, rfl, rfl⟩
    rw [getItem_of_has (hresultKeys.2 "parser" (by simp)), Except.ok.injEq] at hitem
    subst hitem
    exact ⟨hresult, ⟨hresultKeys, hsource, hmedia, ⟨parser, hparser, hparserKeys, hname, hversion⟩, hnorm,
      hprofile, hhash, ⟨anchors, hanchors, hanchorsHash⟩, hblocks, hne, hbound⟩, hanchors⟩
  · rintro ⟨hresult, h, hanchors⟩
    obtain ⟨parser, hparser, hparserKeys, hname, hversion⟩ := h.parser
    have hanchorsHash : IsSha256 anchorSetHash := by
      obtain ⟨anchors, heq, hhash⟩ := h.anchorSetHash
      cases heq.symm.trans hanchors
      exact hhash
    exact ⟨result, hresult, (), h.keys, (), h.source, (), h.mediaType, _,
      getItem_of_has (h.keys.2 "parser" (by simp)), parser, hparser, (), hparserKeys, (), ⟨hname, hversion⟩,
      (), h.normalization, profile, ⟨h.profileField, h.profileHash⟩, anchorSetHash, ⟨hanchors, hanchorsHash⟩,
      blocks, h.blocksField, (), ⟨h.nonempty, h.bounded⟩, rfl, rfl, rfl, rfl⟩

theorem validateSuccessPayload_eq_ok {payload : Fields} {w : Unit} :
    validateSuccessPayload expected payload = .ok w ↔
      ExactKeys ["schema_version", "ok", "result"] payload ∧
        ∃ result profile blocks rows, get payload "result" = .object result ∧
          IsResult expected profile blocks rows result := by
  rw [validateSuccessPayload, bind_eq_ok]
  constructor
  · rintro ⟨⟨result, profile, anchorSetHash, blocks⟩, hok, h⟩
    obtain ⟨hkeys, hresult, hhead, hset⟩ := resultHead_eq_ok.mp hok
    dsimp only at h
    rw [bind_eq_ok] at h
    obtain ⟨⟨hashes, total⟩, hblocks, h⟩ := h
    obtain ⟨rows, hrows, htotal, hs⟩ := (foldlM_blocks acceptsBlocks).mp hblocks
    rw [List.nil_append, zero_add] at hs
    obtain ⟨rfl, rfl⟩ := Prod.mk.inj hs
    simp only [bind_eq_ok, check_eq_ok, validateWarnings, asArray_eq_ok, forM_warnings acceptsWarnings] at h
    obtain ⟨hash, hhash, -, rfl, warnings, hwarnings, hall⟩ := h
    -- The bound on the characters was checked at the last block.
    have htotal := htotal.resolve_left hhead.nonempty
    rw [zero_add] at htotal
    exact ⟨hkeys, result, profile, blocks, rows, hresult, hhead, hrows, htotal,
      ⟨_, (canonicalSha256_congr U collision "").mp hhash, hset⟩, warnings, hwarnings, hall⟩
  · rintro ⟨hkeys, result, profile, blocks, rows, hresult, h⟩
    obtain ⟨hash, hhash, hset⟩ := h.anchorSet
    obtain ⟨warnings, hwarnings, hall⟩ := h.warnings
    have hblocks : (blocks.zipIdx).foldlM (validateBlock expected profile) ([], 0) = .ok _ :=
      (foldlM_blocks acceptsBlocks).mpr
        ⟨rows, h.areBlocks, Or.inr (by rw [zero_add]; exact h.total), rfl⟩
    refine ⟨(result, profile, hash, blocks),
      resultHead_eq_ok.mpr ⟨hkeys, hresult, h.toResultHead, hset⟩, ?_⟩
    dsimp only
    rw [hblocks, ok_bind]
    simp only [List.nil_append, bind_eq_ok, check_eq_ok, validateWarnings, asArray_eq_ok,
      forM_warnings acceptsWarnings]
    exact ⟨hash, (canonicalSha256_congr U "" collision).mp hhash, (), rfl, warnings, hwarnings, hall⟩

theorem failureCode_eq_ok {code : Str} :
    failureCode v = .ok code ↔ v = .str code ∧ v.OneOf errorCodes := by
  cases v with
  | str s =>
    rw [failureCode, check_bind_eq_ok, Except.ok.injEq, Json.str.injEq, and_comm]
    rfl
  | _ => simp [failureCode]

theorem failureRetryable_eq_ok {b : Bool} : failureRetryable v = .ok b ↔ v = .bool b := by
  cases v <;> simp [failureRetryable]

theorem validateFailurePayload_ok_iff {payload : Fields} :
    (∃ failure, validateFailurePayload U payload = .ok failure) ↔
      ExactKeys ["schema_version", "ok", "error"] payload ∧ ∃ error, get payload "error" = .object error ∧
        ExactKeys ["code", "message", "retryable"] error ∧ (get error "code").OneOf errorCodes ∧
        (∃ message, get error "message" = .str message ∧ ProtocolText U 512 message ∧
          (10 : CodePoint) ∉ message) ∧ ∃ b, get error "retryable" = .bool b := by
  by_cases hkeys : ExactKeys ["schema_version", "ok", "error"] payload
  · have hitem := getItem_of_has (hkeys.2 "error" (by simp))
    simp only [validateFailurePayload, bind_eq_ok, requireExactKeys, check_eq_ok, hitem, Except.ok.injEq,
      requireMapping_eq_ok, failureCode_eq_ok, requireNormalizedText_eq_ok, failureRetryable_eq_ok]
    constructor
    · rintro ⟨_, -, -, _, rfl, error, herror, -, herrorKeys, code, ⟨-, hcode⟩, message, ⟨hmessage, htext⟩, -,
        hline, b, hb, -⟩
      exact ⟨hkeys, error, herror, herrorKeys, hcode, ⟨message, hmessage, htext, hline⟩, b, hb⟩
    · rintro ⟨-, error, herror, herrorKeys, hcode, ⟨message, hmessage, htext, hline⟩, b, hb⟩
      obtain ⟨code, hfield⟩ := exists_str_of_oneOf hcode
      exact ⟨⟨code, b⟩, (), hkeys, _, rfl, error, herror, (), herrorKeys, code, ⟨hfield, hcode⟩, message,
        ⟨hmessage, htext⟩, (), hline, b, hb, rfl⟩
  · refine iff_of_false ?_ fun h ↦ hkeys h.1
    rintro ⟨failure, h⟩
    rw [validateFailurePayload, requireExactKeys, check_bind_eq_ok] at h
    exact hkeys h.1

/-- **What the orchestrator's validator accepts**: the envelopes of the contract. -/
theorem validatePhase1Payload_ok_iff {request : SandboxRequest U} {policy : Bounds} {payload : Fields} :
    (∃ r, validatePhase1Payload payload request policy = .ok r) ↔
      (∃ rows, IsSuccess (request.expected policy) rows payload) ∨ IsFailure U payload := by
  constructor
  · rintro ⟨r, h⟩
    rw [validatePhase1Payload, check_bind_eq_ok] at h
    obtain ⟨⟨hversion, hok⟩, h⟩ := h
    obtain ⟨b, hb⟩ := isBool_iff.mp hok
    rw [getItem_of_has (has_of_get_ne_null (by rw [hb]; exact Json.noConfusion)), ok_bind, hb] at h
    cases b with
    | true =>
      obtain ⟨_, hsuccess, -⟩ := bind_eq_ok.mp h
      obtain ⟨hkeys, result, profile, blocks, rows, hresult, hall⟩ :=
        validateSuccessPayload_eq_ok.mp hsuccess
      exact Or.inl ⟨rows, ⟨hversion, hb⟩, hkeys, result, profile, blocks, hresult, hall⟩
    | false =>
      obtain ⟨failure, hfailure, -⟩ := bind_eq_ok.mp h
      exact Or.inr ⟨⟨hversion, hb⟩, validateFailurePayload_ok_iff.mp ⟨failure, hfailure⟩⟩
  · rintro (⟨rows, ⟨hversion, hb⟩, hkeys, result, profile, blocks, hresult, hall⟩ |
      ⟨⟨hversion, hb⟩, hfailure⟩)
    · refine ⟨none, ?_⟩
      rw [validatePhase1Payload, check_bind_eq_ok, getItem_of_has (hkeys.2 "ok" (by simp)), ok_bind, hb]
      refine ⟨⟨hversion, rfl⟩, bind_eq_ok.mpr ⟨(), ?_, rfl⟩⟩
      exact validateSuccessPayload_eq_ok.mpr ⟨hkeys, result, profile, blocks, rows, hresult, hall⟩
    · obtain ⟨failure, hok⟩ := validateFailurePayload_ok_iff.mpr hfailure
      refine ⟨some failure, ?_⟩
      rw [validatePhase1Payload, check_bind_eq_ok, getItem_of_has (hfailure.1.2 "ok" (by simp)), ok_bind, hb]
      exact ⟨⟨hversion, rfl⟩, bind_eq_ok.mpr ⟨failure, hok, rfl⟩⟩

end Accepts

/-! ## What the validator raises -/

section Raises

variable {U : Nfc} {expected : Expected U} {profile text : Str} {v : Json}

theorem not_raises_anchorHead {anchor : Fields} :
    ¬Raises Exc.Uncaught (anchorHead expected profile text anchor) := by
  refine not_raises_bind not_raises_check fun _ _ ↦ not_raises_bind not_raises_check fun _ _ ↦ ?_
  refine not_raises_bind not_raises_check fun _ _ ↦ not_raises_bind not_raises_check fun _ _ ↦ ?_
  refine not_raises_bind not_raises_check fun _ _ ↦ not_raises_bind not_raises_requireSha256 fun _ _ ↦ ?_
  exact not_raises_bind (not_raises_encode _) fun _ _ ↦ not_raises_check

theorem raises_validateAnchor {maximum : ℤ} (htext : ProtocolText U maximum text) {anchor : Fields} :
    Raises Exc.Uncaught (validateAnchor expected profile text anchor) ↔
      AnchorHead expected profile text (lit (anchorKind expected.mediaType).value) anchor ∧
        ∃ locator, get anchor "locator" = .object locator ∧
          LocatorTrap U (anchorKind expected.mediaType) locator := by
  rw [validateAnchor, raises_bind_of_not not_raises_anchorHead]
  simp only [anchorHead_eq_ok htext, raises_bind_of_not not_raises_requireMapping, requireMapping_eq_ok,
    Dialect.raises_validateLocator_value]
  exact ⟨fun ⟨_, h⟩ ↦ h, fun h ↦ ⟨(), h⟩⟩

theorem not_raises_blockHead {total : ℤ} {ordinal : ℕ} :
    ¬Raises Exc.Uncaught (blockHead expected total ordinal v) := by
  refine not_raises_bind not_raises_requireMapping fun _ _ ↦ ?_
  refine not_raises_bind not_raises_check fun _ _ ↦ not_raises_bind not_raises_check fun _ _ ↦ ?_
  refine not_raises_bind not_raises_requireNormalizedText fun _ _ ↦ ?_
  refine not_raises_bind not_raises_check fun _ _ ↦ ?_
  exact not_raises_bind not_raises_requireNormalizedText fun _ _ ↦ not_raises_ok

theorem raises_validateConfidence : Raises Exc.Uncaught (validateConfidence v) ↔ Overflows v := by
  unfold validateConfidence
  split
  · exact iff_of_false not_raises_ok not_false
  · rw [raises_bind, raises_requireUnit]
    exact or_iff_left fun ⟨_, _, h⟩ ↦ not_raises_ok h

theorem raises_validateBlock {hashes : List Str} {total : ℤ} {ordinal : ℕ} :
    Raises Exc.Uncaught (validateBlock expected profile (hashes, total) (v, ordinal)) ↔
      BlockTrap expected (· = anchorKind expected.mediaType) profile total ordinal v := by
  rw [validateBlock, raises_bind_of_not not_raises_blockHead]
  constructor
  · rintro ⟨⟨block, text⟩, hok, h⟩
    obtain ⟨hv, hhead, hbound⟩ := blockHead_eq_ok.mp hok
    refine ⟨block, text, hv, hhead, hbound, ?_⟩
    dsimp only at h
    rw [raises_bind, raises_validateConfidence] at h
    refine h.imp_right fun ⟨_, hconfidence, h⟩ ↦ ⟨validateConfidence_eq_ok.mp hconfidence, ?_⟩
    rw [raises_bind_of_not not_raises_requireMapping] at h
    obtain ⟨anchor, hanchor, h⟩ := h
    rcases raises_bind.mp h with h | ⟨_, -, h⟩
    · obtain ⟨hanchorHead, locator, hlocator, htrap⟩ := (raises_validateAnchor hhead.textOk).mp h
      exact ⟨anchor, _, locator, rfl, requireMapping_eq_ok.mp hanchor, hanchorHead, hlocator, htrap⟩
    · -- Past its anchor a block only meets `ValueError`s.
      refine absurd h (not_raises_bind not_raises_requireSha256 fun _ _ ↦ ?_)
      refine not_raises_bind (not_raises_canonicalSha256 U _ _) fun _ _ ↦ ?_
      exact not_raises_bind not_raises_check fun _ _ ↦ not_raises_ok
  · rintro ⟨block, text, hv, hhead, hbound, h⟩
    refine ⟨(block, text), blockHead_eq_ok.mpr ⟨hv, hhead, hbound⟩, ?_⟩
    dsimp only
    rw [raises_bind, raises_validateConfidence]
    refine h.imp_right ?_
    rintro ⟨hconfidence, anchor, kind, locator, rfl, hanchor, hanchorHead, hlocator, htrap⟩
    refine ⟨(), validateConfidence_eq_ok.mpr hconfidence, ?_⟩
    rw [requireMapping_eq_ok.mpr hanchor, ok_bind, raises_bind]
    exact Or.inl ((raises_validateAnchor hhead.textOk).mpr ⟨hanchorHead, locator, hlocator, htrap⟩)

theorem raises_validateWarning {count i : ℕ} :
    Raises Exc.Uncaught (validateWarning U count (v, i)) ↔ WarningTrap v := by
  rw [validateWarning, raises_bind_of_not not_raises_requireMapping]
  simp only [requireExactKeys, raises_check_bind]
  refine exists_congr fun warning ↦ and_congr requireMapping_eq_ok (and_congr_right fun hkeys ↦ ?_)
  rw [raises_bind, raises_isIn]
  refine or_iff_left ?_
  rintro ⟨known, -, h⟩
  refine not_raises_bind not_raises_check (fun _ _ ↦ ?_) h
  refine not_raises_bind not_raises_requireNormalizedText fun _ _ ↦ ?_
  split
  · exact not_raises_ok
  · exact not_raises_bind not_raises_requireIndex fun _ _ ↦ not_raises_check

theorem not_raises_resultHead {payload : Fields} : ¬Raises Exc.Uncaught (resultHead expected payload) := by
  rw [resultHead, requireExactKeys, raises_check_bind]
  rintro ⟨hkeys, h⟩
  rw [getItem_of_has (hkeys.2 "result" (by simp)), ok_bind] at h
  refine not_raises_bind not_raises_requireMapping (fun result _ ↦ ?_) h
  rw [requireExactKeys, raises_check_bind]
  rintro ⟨hresult, h⟩
  refine not_raises_bind not_raises_check (fun _ _ ↦ not_raises_bind not_raises_check fun _ _ ↦ ?_) h
  rw [getItem_of_has (hresult.2 "parser" (by simp)), ok_bind]
  refine not_raises_bind not_raises_requireMapping fun _ _ ↦ ?_
  refine not_raises_bind not_raises_check fun _ _ ↦ not_raises_bind not_raises_check fun _ _ ↦ ?_
  refine not_raises_bind not_raises_check fun _ _ ↦ ?_
  refine not_raises_bind not_raises_requireSha256 fun _ _ ↦ ?_
  refine not_raises_bind not_raises_requireSha256 fun _ _ ↦ ?_
  refine not_raises_bind not_raises_asArray fun _ _ ↦ ?_
  exact not_raises_bind not_raises_check fun _ _ ↦ not_raises_ok

theorem raises_validateSuccessPayload {payload : Fields} :
    Raises Exc.Uncaught (validateSuccessPayload expected payload) ↔
      ExactKeys ["schema_version", "ok", "result"] payload ∧ ∃ result, get payload "result" = .object result ∧
        ResultTrap expected (· = anchorKind expected.mediaType) (fun _ ↦ True) result := by
  rw [validateSuccessPayload, raises_bind_of_not not_raises_resultHead]
  have hloop : ∀ profile blocks,
      Raises Exc.Uncaught (List.foldlM (validateBlock expected profile) ([], 0) (List.zipIdx blocks)) ↔ _ :=
    fun profile blocks ↦ raises_blocks acceptsBlocks fun _ _ _ _ ↦ raises_validateBlock
  constructor
  · rintro ⟨⟨result, profile, anchorSetHash, blocks⟩, hok, h⟩
    obtain ⟨hkeys, hresult, hhead, hset⟩ := resultHead_eq_ok.mp hok
    refine ⟨hkeys, result, hresult, profile, blocks, hhead, ?_⟩
    dsimp only at h
    rw [raises_bind, hloop] at h
    refine h.imp_right ?_
    rintro ⟨⟨hashes, total⟩, hblocks, h⟩
    obtain ⟨rows, hrows, htotal, hs⟩ := (foldlM_blocks acceptsBlocks).mp hblocks
    rw [List.nil_append, zero_add] at hs
    obtain ⟨rfl, rfl⟩ := Prod.mk.inj hs
    dsimp only at h
    rw [raises_bind_of_not (not_raises_canonicalSha256 U _ _)] at h
    obtain ⟨hash, hhash, h⟩ := h
    rw [raises_check_bind, validateWarnings, raises_bind_of_not not_raises_asArray] at h
    obtain ⟨rfl, warnings, hwarnings, h⟩ := h
    obtain ⟨pre, w, post, hsplit, hpre, htrap⟩ :=
      (raises_warnings acceptsWarnings fun _ _ ↦ raises_validateWarning).mp h
    have htotal := htotal.resolve_left hhead.nonempty
    rw [zero_add] at htotal
    exact ⟨rows, _, warnings, pre, w, post, hrows, htotal, trivial,
      (canonicalSha256_congr U collision "").mp hhash, hset, asArray_eq_ok.mp hwarnings, hsplit, hpre, htrap⟩
  · rintro ⟨hkeys, result, hresult, profile, blocks, hhead, h⟩
    obtain ⟨anchorSetHash, hset, -⟩ := hhead.anchorSetHash
    refine ⟨(result, profile, anchorSetHash, blocks), resultHead_eq_ok.mpr ⟨hkeys, hresult, hhead, hset⟩, ?_⟩
    dsimp only
    rw [raises_bind, hloop]
    refine h.imp_right ?_
    rintro ⟨rows, hash, warnings, pre, w, post, hrows, htotal, -, hhash, hfield, hwarnings, hsplit, hpre,
      htrap⟩
    refine ⟨_, (foldlM_blocks acceptsBlocks).mpr
      ⟨rows, hrows, Or.inr (by rw [zero_add]; exact htotal), rfl⟩, ?_⟩
    dsimp only
    rw [List.nil_append, (canonicalSha256_congr U "" collision).mp hhash, ok_bind, raises_check_bind,
      validateWarnings, asArray_eq_ok.mpr hwarnings, ok_bind]
    exact ⟨Json.str.inj (hset.symm.trans hfield),
      (raises_warnings acceptsWarnings fun _ _ ↦ raises_validateWarning).mpr
        ⟨pre, w, post, hsplit, hpre, htrap⟩⟩

theorem not_raises_validateFailurePayload {payload : Fields} :
    ¬Raises Exc.Uncaught (validateFailurePayload U payload) := by
  rw [validateFailurePayload, requireExactKeys, raises_check_bind]
  rintro ⟨hkeys, h⟩
  rw [getItem_of_has (hkeys.2 "error" (by simp)), ok_bind] at h
  refine not_raises_bind not_raises_requireMapping (fun _ _ ↦ not_raises_bind not_raises_check fun _ _ ↦ ?_) h
  refine not_raises_bind ?_ fun _ _ ↦ not_raises_bind not_raises_requireNormalizedText fun _ _ ↦ ?_
  · unfold failureCode
    split
    · exact not_raises_bind not_raises_check fun _ _ ↦ not_raises_ok
    · exact raises_error.not.mpr (not_uncaught_valueError _)
  refine not_raises_bind not_raises_check fun _ _ ↦ not_raises_bind ?_ fun _ _ ↦ not_raises_ok
  unfold failureRetryable
  split
  · exact not_raises_ok
  · exact raises_error.not.mpr (not_uncaught_valueError _)

/-- **What the orchestrator's validator raises** beside a `ValueError`: a trap of a success, with a box
under an anchor of the expected kind. -/
theorem raises_validatePhase1Payload {request : SandboxRequest U} {policy : Bounds} {payload : Fields} :
    Raises Exc.Uncaught (validatePhase1Payload payload request policy) ↔
      SuccessTrap (request.expected policy) (· = anchorKind request.expectedMediaType) (fun _ ↦ True)
        payload := by
  rw [validatePhase1Payload, raises_check_bind]
  constructor
  · rintro ⟨⟨hversion, hok⟩, h⟩
    obtain ⟨b, hb⟩ := isBool_iff.mp hok
    rw [getItem_of_has (has_of_get_ne_null (by rw [hb]; exact Json.noConfusion)), ok_bind, hb] at h
    cases b with
    | true =>
      rcases raises_bind.mp h with h | ⟨_, -, h⟩
      · obtain ⟨hkeys, hresult⟩ := raises_validateSuccessPayload.mp h
        exact ⟨⟨hversion, hb⟩, hkeys, hresult⟩
      · exact absurd h not_raises_ok
    | false =>
      exact absurd h (not_raises_bind not_raises_validateFailurePayload fun _ _ ↦ not_raises_ok)
  · rintro ⟨⟨hversion, hb⟩, hkeys, hresult⟩
    refine ⟨⟨hversion, isBool_iff.mpr ⟨_, hb⟩⟩, ?_⟩
    rw [getItem_of_has (hkeys.2 "ok" (by simp)), ok_bind, hb]
    exact raises_bind.mpr (Or.inl (raises_validateSuccessPayload.mpr ⟨hkeys, hresult⟩))

end Raises

end Ipc

end MeetingRag
