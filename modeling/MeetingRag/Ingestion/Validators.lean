import MeetingRag.Ingestion.DocxText
import MeetingRag.Ingestion.Ipc
import MeetingRag.Ingestion.Parsing
import MeetingRag.Library.Utf8

/-!
# The two validators together

The orchestrator and the runner read what an untrusted parser wrote, and each validates it on its own. They
accept the same payloads but for a success with two equal anchors, which only the runner looks at
(`validators_agree_iff`). What either of them raises is a `ValueError`, unless the bytes spell a payload with a
trap (`readers_raise_iff`).
-/

open Outcome Py Json

namespace MeetingRag

variable {U : Nfc}

/-! ## What both accept -/

/-- The rows of a success are those of its blocks. -/
theorem rows_unique {expected : Expected U} {profile profile' : Str} {n : ℕ} {blocks : List Json}
    {rows rows' : List (Str × Str)} (h : AreBlocks expected profile n blocks rows)
    (h' : AreBlocks expected profile' n blocks rows') : rows = rows' := by
  unfold AreBlocks at h h'
  generalize blocks.zipIdx n = numbered at h h'
  induction h generalizing rows' with
  | nil =>
    cases h'
    rfl
  | cons hrow _ ih =>
    cases h' with
    | cons hrow' hrest' =>
      obtain ⟨block, hv, hblock⟩ := hrow
      obtain ⟨block', hv', hblock'⟩ := hrow'
      obtain rfl := Json.object.inj (hv.symm.trans hv')
      have htext := Json.str.inj (hblock.textField.symm.trans hblock'.textField)
      have hhash := Json.str.inj (hblock.anchorHash.symm.trans hblock'.anchorHash)
      rw [ih hrest', Prod.ext htext hhash]

theorem IsSuccess.rows_unique {expected : Expected U} {rows rows' : List (Str × Str)} {payload : Fields}
    (h : IsSuccess expected rows payload) (h' : IsSuccess expected rows' payload) : rows = rows' := by
  obtain ⟨-, -, result, profile, blocks, hresult, hall⟩ := h
  obtain ⟨-, -, result', profile', blocks', hresult', hall'⟩ := h'
  obtain rfl := Json.object.inj (hresult.symm.trans hresult')
  obtain rfl := Json.array.inj (hall.blocksField.symm.trans hall'.blocksField)
  exact MeetingRag.rows_unique hall.areBlocks hall'.areBlocks

/-- An envelope is that of a success or that of a failure. -/
theorem IsSuccess.not_isFailure {expected : Expected U} {rows : List (Str × Str)} {payload : Fields}
    (h : IsSuccess expected rows payload) : ¬IsFailure U payload :=
  fun hfailure ↦ Bool.noConfusion (Json.bool.inj (h.1.2.symm.trans hfailure.1.2))

/-- **The two validators agree on a payload exactly when its anchors are distinct**, if it is a success. -/
theorem validators_agree_iff (request : Ipc.SandboxRequest U) (policy : Bounds)
    (h : Protocol.Approved (request.expected policy)) (payload : Fields) :
    ((∃ r, Ipc.validatePhase1Payload payload request policy = .ok r) ↔
        Protocol.validateParserPayload U (sha256Hex request.inputBytes) request.expectedMediaType policy
          payload = .ok ()) ↔
      ∀ rows, IsSuccess (request.expected policy) rows payload → (rows.map Prod.snd).Nodup := by
  have hprotocol : Protocol.validateParserPayload U (sha256Hex request.inputBytes) request.expectedMediaType
      policy payload = .ok () ↔ (∃ rows, IsSuccess (request.expected policy) rows payload ∧
        (rows.map Prod.snd).Nodup) ∨ IsFailure U payload :=
    (Protocol.validateParserPayload_eq_ok h).trans (and_iff_right (isSha256_sha256Hex _))
  rw [Ipc.validatePhase1Payload_ok_iff, hprotocol]
  constructor
  · intro hagree rows hrows
    rcases hagree.mp (.inl ⟨rows, hrows⟩) with ⟨rows', hrows', hnodup⟩ | hfailure
    · rwa [hrows.rows_unique hrows']
    · exact absurd hfailure hrows.not_isFailure
  · intro hnodup
    exact or_congr_left (exists_congr fun rows ↦ (and_iff_left_of_imp (hnodup rows)).symm)

/-! ### Equal anchors -/

section Repeated

/-- The anchor of the first paragraph of a document, whose text is `x`. -/
def firstAnchor : Docx.DocxParagraphAnchor where
  sourceSha256 := sha256Hex []
  extractionProfileHash := sha256Hex []
  paragraph := 0
  path := none
  textFingerprint := sha256Hex (encodeUtf8 (lit "x"))

/-- A block that is about it. -/
def repeatedBlock (hash : Str) (ordinal : ℤ) : Json :=
  .object (obj [("ordinal", .int ordinal), ("text", .str (lit "x")), ("block_type", .str (lit "docx_paragraph")),
    ("confidence", .null), ("anchor", firstAnchor.toDict), ("anchor_hash", .str hash)])

/-- A result with two such blocks. -/
def repeatedResult (hash setHash : Str) : Fields :=
  obj [("source_sha256", .str (sha256Hex [])), ("media_type", .str (lit MediaType.docx.value)),
    ("parser", .object (obj [("name", .str (lit "stdlib-docx")), ("version", .str (lit "1.0.0"))])),
    ("normalization_profile", .str (lit "nfc-lf-v1")), ("config_profile_hash", .str (sha256Hex [])),
    ("anchor_set_hash", .str setHash), ("blocks", .array [repeatedBlock hash 0, repeatedBlock hash 1]),
    ("warnings", .array [])]

/-- The success with this result. -/
def repeatedPayload (hash setHash : Str) : Fields :=
  obj [("schema_version", .int 1), ("ok", .bool true), ("result", .object (repeatedResult hash setHash))]

/-- The request for a document and the parser that is approved for it. -/
def docxRequest (U : Nfc) : Ipc.SandboxRequest U where
  inputBytes := []
  expectedMediaType := .docx
  expectedParser :=
    { name := lit "stdlib-docx"
      version := lit "1.0.0"
      nameText := protocolText_lit U (by decide) (by decide) (by decide)
      versionText := protocolText_lit U (by decide) (by decide) (by decide) }

theorem approved_docxRequest (policy : Bounds) : Protocol.Approved ((docxRequest U).expected policy) :=
  ⟨("stdlib-docx", "1.0.0"), rfl, rfl, rfl⟩

/-- A failure is taken by both. -/
theorem validators_agree_refusal :
    let refusal := obj [("schema_version", .int 1), ("ok", .bool false), ("error", .object (obj
      [("code", .str (lit "EMPTY_INPUT")), ("message", .str (lit "x")), ("retryable", .bool false)]))]
    (∃ r, Ipc.validatePhase1Payload refusal (docxRequest Nfc.ascii) ⟨2, 1, 2⟩ = .ok r) ↔
      Protocol.validateParserPayload Nfc.ascii (sha256Hex []) .docx ⟨2, 1, 2⟩ refusal = .ok () := by
  intro refusal
  refine (validators_agree_iff (docxRequest Nfc.ascii) ⟨2, 1, 2⟩ (approved_docxRequest _) refusal).mpr
    fun rows hrows ↦ ?_
  have hok : get refusal "ok" = .bool false := by simp [refusal]
  exact Bool.noConfusion (Json.bool.inj (hok.symm.trans hrows.1.2))

theorem isBlock_repeated {hash : Str} (h : canonicalSha256 U "" firstAnchor.toDict = .ok hash) (ordinal : ℕ) :
    ∃ block, repeatedBlock hash ordinal = .object block ∧
      IsBlock ((docxRequest U).expected ⟨2, 1, 2⟩) (sha256Hex []) ordinal (lit "x") hash block := by
  have htext : ∀ (s : String) (maximum : ℤ), lit s ≠ [] → (lit s).length ≤ maximum → Printable (lit s) →
      ProtocolText U maximum (lit s) := fun s maximum hne hbound hprint ↦ protocolText_lit U hne hbound hprint
  have hx : ProtocolText U 1 (lit "x") := htext "x" 1 (by decide) (by decide) (by decide)
  have htype : ProtocolText U 64 (lit "docx_paragraph") :=
    htext "docx_paragraph" 64 (by decide) (by decide) (by decide)
  refine ⟨_, rfl, ⟨⟨exactKeys_obj rfl, by simp [EqInt], by simp, hx, _, by simp, htype⟩, .inl (by simp),
    ⟨_, by simp; rfl, ?_, h⟩, by simp⟩⟩
  refine ⟨⟨exactKeys_obj rfl, by simp [EqInt], by simp; rfl, by simp; rfl, by simp; rfl, by simp; rfl⟩,
    firstAnchor.locator, by simp, ?_⟩
  show DocxLocator (obj [("paragraph", .int 0)])
  exact ⟨by decide, by decide, ⟨0, rfl, le_rfl⟩, fun htable ↦ absurd htable (by decide)⟩

theorem ready_firstAnchor : Ready U firstAnchor.toDict :=
  Docx.ready_toDict (isSha256_sha256Hex _) (isSha256_sha256Hex _) (isSha256_sha256Hex _) (by decide)

/-- The orchestrator takes a success with the same anchor twice, and the runner does not. -/
theorem validators_differ_repeated :
    ¬∀ (request : Ipc.SandboxRequest Nfc.ascii) (policy : Bounds), Protocol.Approved (request.expected policy) →
      ∀ payload : Fields, (∃ r, Ipc.validatePhase1Payload payload request policy = .ok r) ↔
        Protocol.validateParserPayload Nfc.ascii (sha256Hex request.inputBytes) request.expectedMediaType policy
          payload = .ok () := by
  intro hall
  obtain ⟨hash, hhash⟩ := exists_canonicalSha256 "" (@ready_firstAnchor Nfc.ascii)
  have hplain : Ready Nfc.ascii (.str hash) :=
    .leaf trivial (readyLeaf_of_printable (printable_of_isSha256 (isSha256_of_canonicalSha256 hhash)))
  have hready : Ready Nfc.ascii (anchorSet [hash, hash]) := by
    have hitems : ∀ v ∈ [hash, hash].map Json.str, Ready Nfc.ascii v :=
      List.forall_mem_cons.mpr ⟨hplain, List.forall_mem_cons.mpr ⟨hplain, nofun⟩⟩
    have hone : (decimalDigits 1).length ≤ 4300 := by decide
    refine @Docx.ready_obj Nfc.ascii [("schema_version", .int 1),
      ("anchor_hashes", .array ([hash, hash].map .str))] ["schema_version", "anchor_hashes"] rfl (by decide) ?_
    simp only [List.forall_mem_cons]
    exact ⟨.leaf trivial hone, .array hitems, nofun⟩
  obtain ⟨setHash, hset⟩ := exists_canonicalSha256 "" hready
  have hsuccess : IsSuccess ((docxRequest Nfc.ascii).expected ⟨2, 1, 2⟩) [(lit "x", hash), (lit "x", hash)]
      (repeatedPayload hash setHash) := by
    refine ⟨⟨by simp [repeatedPayload, EqInt], by simp [repeatedPayload]⟩, exactKeys_obj rfl,
      repeatedResult hash setHash, sha256Hex [], [repeatedBlock hash 0, repeatedBlock hash 1],
      by simp [repeatedPayload], ?_⟩
    refine ⟨⟨exactKeys_obj rfl, by simp [repeatedResult, docxRequest, Ipc.SandboxRequest.expected],
      by simp [repeatedResult, docxRequest, Ipc.SandboxRequest.expected],
      ⟨obj [("name", .str (lit "stdlib-docx")), ("version", .str (lit "1.0.0"))], by simp [repeatedResult],
        exactKeys_obj rfl, by simp [docxRequest, Ipc.SandboxRequest.expected],
        by simp [docxRequest, Ipc.SandboxRequest.expected]⟩, by simp [repeatedResult], by simp [repeatedResult],
      isSha256_sha256Hex _, ⟨setHash, by simp [repeatedResult], isSha256_of_canonicalSha256 hset⟩,
      by simp [repeatedResult], List.cons_ne_nil _ _, le_of_eq rfl⟩, ?_, le_of_eq rfl,
      ⟨setHash, hset, by simp [repeatedResult]⟩, [], by simp [repeatedResult], List.forall_mem_nil _⟩
    exact .cons (isBlock_repeated hhash 0) (.cons (isBlock_repeated hhash 1) .nil)
  have hagree := hall (docxRequest Nfc.ascii) ⟨2, 1, 2⟩ (approved_docxRequest _) (repeatedPayload hash setHash)
  have hnodup := (validators_agree_iff _ _ (approved_docxRequest _) _).mp hagree _ hsuccess
  simp at hnodup

end Repeated

/-! ## What either raises -/

/-- A media type other than text has a parser that is approved. -/
theorem exists_approved (U : Nfc) (source : Str) (bounds : Bounds) {mediaType : MediaType} (h : mediaType ≠ .text) :
    ∃ parser : ParserIdentity U, Protocol.Approved ⟨source, mediaType, parser, bounds⟩ := by
  have hplain : ∀ s : String, lit s ≠ [] → (lit s).length ≤ 128 → Printable (lit s) →
      ProtocolText U 128 (lit s) :=
    fun s hne hbound hprint ↦ protocolText_lit U hne (by exact_mod_cast hbound) hprint
  have hmake : ∀ name version : String, Protocol.approvedParsers mediaType = some (name, version) →
      (lit name ≠ [] ∧ (lit name).length ≤ 128 ∧ Printable (lit name)) →
      (lit version ≠ [] ∧ (lit version).length ≤ 128 ∧ Printable (lit version)) →
      ∃ parser : ParserIdentity U, Protocol.Approved ⟨source, mediaType, parser, bounds⟩ :=
    fun name version happroved hname hversion ↦
      ⟨⟨lit name, lit version, hplain _ hname.1 hname.2.1 hname.2.2,
        hplain _ hversion.1 hversion.2.1 hversion.2.2⟩, (name, version), happroved, rfl, rfl⟩
  cases mediaType with
  | text => exact absurd rfl h
  | pdf => exact hmake _ _ rfl (by decide) (by decide)
  | png => exact hmake _ _ rfl (by decide) (by decide)
  | jpeg => exact hmake _ _ rfl (by decide) (by decide)
  | hwp => exact hmake _ _ rfl (by decide) (by decide)
  | hwpx => exact hmake _ _ rfl (by decide) (by decide)
  | docx => exact hmake _ _ rfl (by decide) (by decide)
  | pptx => exact hmake _ _ rfl (by decide) (by decide)
  | xlsx => exact hmake _ _ rfl (by decide) (by decide)

/-- `_safe_json_object` reads the objects whose header it knows. -/
theorem safeJsonObject_eq_ok {limit : ℕ} {data : List UInt8} {payload : Fields} :
    Runner.safeJsonObject limit data = .ok payload ↔ Spells limit data payload ∧
      EqInt 1 (get payload "schema_version") ∧ (get payload "ok").isBool = true := by
  rw [Runner.safeJsonObject, bind_eq_ok]
  simp only [readObject_eq_ok, check_bind_eq_ok, Except.ok.injEq]
  constructor
  · rintro ⟨fields, hspells, hversion, hok, rfl⟩
    exact ⟨hspells, hversion, hok⟩
  · rintro ⟨hspells, hversion, hok⟩
    exact ⟨payload, hspells, hversion, hok, rfl⟩

/-- The orchestrator's reading of a result file. -/
def ipcReads (limit : ℕ) (data : List UInt8) (request : Ipc.SandboxRequest U) (policy : Bounds) :
    Except Exc (Option Ipc.ParsedFailure) := do
  let payload ← Ipc.parseJsonObject limit data
  Ipc.validatePhase1Payload payload request policy

/-- The runner's reading of what a parser wrote. -/
def runnerReads (U : Nfc) (limit : ℕ) (data : List UInt8) (source : Str) (mediaType : MediaType)
    (bounds : Bounds) : Except Exc Unit := do
  let payload ← Runner.safeJsonObject limit data
  Protocol.validateParserPayload U source mediaType bounds payload

theorem raises_ipcReads {limit : ℕ} {data : List UInt8} {request : Ipc.SandboxRequest U} {policy : Bounds} :
    Raises Exc.Uncaught (ipcReads limit data request policy) ↔ ∃ payload, Spells limit data payload ∧
      SuccessTrap (request.expected policy) (· = anchorKind request.expectedMediaType) (fun _ ↦ True)
        payload := by
  rw [ipcReads, Ipc.parseJsonObject, raises_bind_of_not (not_raises_readObject _ _ _)]
  simp only [readObject_eq_ok, Ipc.raises_validatePhase1Payload]

theorem raises_runnerReads {limit : ℕ} {data : List UInt8} {source : Str} {mediaType : MediaType}
    {bounds : Bounds} : Raises Exc.Uncaught (runnerReads U limit data source mediaType bounds) ↔
      ∃ payload, Spells limit data payload ∧ IsSha256 source ∧ mediaType ≠ .text ∧
        ∃ parser : ParserIdentity U, Protocol.Approved ⟨source, mediaType, parser, bounds⟩ ∧
          (SuccessTrap ⟨source, mediaType, parser, bounds⟩ (fun _ ↦ True) List.Nodup payload ∨
            ErrorTrap payload) := by
  rw [runnerReads, raises_bind_of_not (not_raises_safeJsonObject _ _)]
  refine exists_congr fun payload ↦ ?_
  rw [safeJsonObject_eq_ok]
  constructor
  · rintro ⟨⟨hspells, -⟩, h⟩
    obtain ⟨hsource, hmedia⟩ : IsSha256 source ∧ mediaType ≠ .text := by
      rw [Protocol.validateParserPayload, raises_check_bind, raises_check_bind] at h
      exact ⟨h.1, h.2.1⟩
    obtain ⟨parser, happroved⟩ := exists_approved U source bounds hmedia
    exact ⟨hspells, hsource, hmedia, parser, happroved,
      (Protocol.raises_validateParserPayload happroved hsource).mp h⟩
  · rintro ⟨hspells, hsource, -, parser, happroved, htrap⟩
    have hheader : EqInt 1 (get payload "schema_version") ∧ (get payload "ok").isBool = true := by
      rcases htrap with ⟨⟨hversion, hok⟩, -⟩ | ⟨⟨hversion, hok⟩, -⟩
      · exact ⟨hversion, isBool_iff.mpr ⟨_, hok⟩⟩
      · exact ⟨hversion, isBool_iff.mpr ⟨_, hok⟩⟩
    exact ⟨⟨hspells, hheader⟩, (Protocol.raises_validateParserPayload happroved hsource).mpr htrap⟩

/-- **Both readers return or raise a `ValueError` exactly when the bytes spell no payload with a trap.** -/
theorem readers_raise_iff (limit : ℕ) (data : List UInt8) (request : Ipc.SandboxRequest U) (policy : Bounds)
    (source : Str) (mediaType : MediaType) (bounds : Bounds) :
    ((∀ e, ipcReads limit data request policy = .error e → e.IsValueError) ∧
        ∀ e, runnerReads U limit data source mediaType bounds = .error e → e.IsValueError) ↔
      ∀ payload, Spells limit data payload →
        ¬SuccessTrap (request.expected policy) (· = anchorKind request.expectedMediaType) (fun _ ↦ True)
            payload ∧
          (IsSha256 source → mediaType ≠ .text → ∀ parser : ParserIdentity U,
            Protocol.Approved ⟨source, mediaType, parser, bounds⟩ →
              ¬SuccessTrap ⟨source, mediaType, parser, bounds⟩ (fun _ ↦ True) List.Nodup payload ∧
                ¬ErrorTrap payload) := by
  have hclean : ∀ {α : Type} (x : Except Exc α), (∀ e, x = .error e → e.IsValueError) ↔
      ¬Raises Exc.Uncaught x := by
    intro α x
    rw [Raises, not_exists]
    exact forall_congr' fun e ↦ by rw [not_and, Exc.Uncaught, not_not]
  rw [hclean, hclean, raises_ipcReads, raises_runnerReads]
  constructor
  · rintro ⟨hipc, hrunner⟩ payload hspells
    refine ⟨fun htrap ↦ hipc ⟨payload, hspells, htrap⟩, fun hsource hmedia parser happroved ↦ ⟨?_, ?_⟩⟩
    · exact fun htrap ↦ hrunner ⟨payload, hspells, hsource, hmedia, parser, happroved, .inl htrap⟩
    · exact fun htrap ↦ hrunner ⟨payload, hspells, hsource, hmedia, parser, happroved, .inr htrap⟩
  · intro hall
    constructor
    · rintro ⟨payload, hspells, htrap⟩
      exact (hall payload hspells).1 htrap
    · rintro ⟨payload, hspells, hsource, hmedia, parser, happroved, htrap⟩
      obtain ⟨hsuccess, herror⟩ := (hall payload hspells).2 hsource hmedia parser happroved
      exact htrap.elim hsuccess herror

/-- A failure whose code is an empty list. -/
def listedCode : Fields :=
  obj [("error", .object (obj [("code", .array []), ("message", .str (lit "x")), ("retryable", .bool false)])),
    ("ok", .bool false), ("schema_version", .int 1)]

def listedCodeText : Str := lit
  "\x7b\"error\":\x7b\"code\":[],\"message\":\"x\",\"retryable\":false\x7d,\"ok\":false,\"schema_version\":1\x7d"

theorem spells_listedCode : Spells 10 (encodeUtf8 listedCodeText) listedCode := by
  refine ⟨listedCodeText, decodeUtf8_encodeUtf8 (scalar_lit _), ?_, ?_⟩
  · rfl
  · exact (@rejectNonScalarUnicode_eq_ok "" _).mp rfl

/-- The code is looked up in a set, which cannot hold a list. -/
theorem readers_raise_listed :
    ¬∀ (limit : ℕ) (data : List UInt8) (request : Ipc.SandboxRequest Nfc.ascii) (policy : Bounds) (source : Str)
      (mediaType : MediaType) (bounds : Bounds),
      (∀ e, ipcReads limit data request policy = .error e → e.IsValueError) ∧
        ∀ e, runnerReads Nfc.ascii limit data source mediaType bounds = .error e → e.IsValueError := by
  intro hall
  have hraises : Raises Exc.Uncaught (runnerReads Nfc.ascii 10 (encodeUtf8 listedCodeText) (sha256Hex []) .docx
      ⟨1, 1, 1⟩) := by
    refine raises_runnerReads.mpr ⟨listedCode, spells_listedCode, isSha256_sha256Hex _, by decide,
      (docxRequest Nfc.ascii).expectedParser, approved_docxRequest _, .inr ?_⟩
    exact ⟨⟨rfl, rfl⟩, by decide, _, rfl, by decide, trivial⟩
  obtain ⟨e, he, huncaught⟩ := hraises
  exact huncaught ((hall 10 _ (docxRequest Nfc.ascii) ⟨1, 1, 1⟩ _ _ _).2 e he)

end MeetingRag
