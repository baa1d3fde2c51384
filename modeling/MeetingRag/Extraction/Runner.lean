import MeetingRag.Activity.Pagination
import MeetingRag.Extraction.Sandbox
import MeetingRag.Library.JsonSafe
import MeetingRag.Queue.Progress

/-!
# The fenced extraction runner

One polling iteration of `FencedExtractionRunner`: a claimed job is executed outside of any transaction,
and what came of it is written in a second one. The source loader and the sandbox are injected, so nothing
is known of them but the types of what they return; each may also raise.

Whatever they do, the iteration ends in a completion that the queue takes
(`requireCompletionArguments_execute`). It is a failure that says no more than a bounded code, or the
summary of a payload (`executeClaimedJob_cases`).
-/

open Outcome Py Json Table

namespace MeetingRag

/-- Which objects `canonical_json_bytes` serializes. -/
instance : JsonDocument Fields where
  encodable v := match dumps (.object v) with
    | .ok text => decide (Scalar text)
    | .error _ => false

namespace ExtractionRunner

/-! ## Error codes -/

/-- `str.isalnum` for a character. -/
structure Alnum where
  isAlnum : Char → Bool
  ascii : ∀ c, c.toNat < 128 → isAlnum c = c.isAlphanum
  space : ∀ c, Text.isSpace c = true → isAlnum c = false

/-- `code.replace("_", "")` -/
def withoutUnderscores (code : String) : List Char := code.toList.filter (· ≠ '_')

/-- What `_require_error_code` lets pass. -/
structure IsErrorCode (A : Alnum) (code : String) : Prop where
  bounded : code.length ≤ 128
  nonempty : withoutUnderscores code ≠ []
  alnum : ∀ c ∈ withoutUnderscores code, A.isAlnum c = true

instance (A : Alnum) : DecidablePred (IsErrorCode A) := fun code ↦
  have : Decidable (∀ c ∈ withoutUnderscores code, A.isAlnum c = true) := List.decidableBAll _ _
  decidable_of_iff (code.length ≤ 128 ∧ withoutUnderscores code ≠ [] ∧
      ∀ c ∈ withoutUnderscores code, A.isAlnum c = true)
    ⟨fun h ↦ ⟨h.1, h.2.1, h.2.2⟩, fun h ↦ ⟨h.bounded, h.nonempty, h.alnum⟩⟩

/-- A code of ASCII letters, digits and underscores. -/
def Plain (code : String) : Prop :=
  code.length ≤ 128 ∧ withoutUnderscores code ≠ [] ∧
    ∀ c ∈ withoutUnderscores code, c.toNat < 128 ∧ c.isAlphanum = true

instance : DecidablePred Plain := fun code ↦
  have : Decidable (∀ c ∈ withoutUnderscores code, c.toNat < 128 ∧ c.isAlphanum = true) :=
    List.decidableBAll _ _
  inferInstanceAs (Decidable (code.length ≤ 128 ∧ withoutUnderscores code ≠ [] ∧
    ∀ c ∈ withoutUnderscores code, c.toNat < 128 ∧ c.isAlphanum = true))

theorem Plain.isErrorCode {A : Alnum} {code : String} (h : Plain code) : IsErrorCode A code where
  bounded := h.1
  nonempty := h.2.1
  alnum c hc := (A.ascii c (h.2.2 c hc).1).trans (h.2.2 c hc).2

theorem IsErrorCode.not_blank {A : Alnum} {code : String} (h : IsErrorCode A code) : ¬Text.Blank code := by
  obtain ⟨c, hc⟩ := List.exists_mem_of_ne_nil _ h.nonempty
  refine Text.not_blank_of_mem (List.mem_filter.mp hc).1 ?_
  by_contra hspace
  exact Bool.noConfusion ((h.alnum c hc).symm.trans (A.space c (Bool.eq_true_of_not_eq_false hspace)))

/-- A code that may be stored. -/
structure ErrorCode (A : Alnum) where
  text : String
  isErrorCode : IsErrorCode A text

/-- What is raised while a claimed job is executed. -/
inductive Failing (A : Alnum)
  /-- `ExtractionSourceError` or `_RunnerFailure`. -/
  | typed (code : ErrorCode A) (retryable : Bool)
  | other

section Code

variable {U : Nfc} {A : Alnum}

/-- A `_RunnerFailure` that is not worth another attempt. -/
def terminal (code : String) (h : Plain code) : Failing A := .typed ⟨code, h.isErrorCode⟩ false

def invalidJobPayload : Failing A := terminal "INVALID_JOB_PAYLOAD" (by decide)

def invalidSandboxOutcome : Failing A := terminal "INVALID_SANDBOX_OUTCOME" (by decide)

/-- `_require_error_code` -/
def requireErrorCode (code : String) : Except (Failing A) (ErrorCode A) :=
  if h : IsErrorCode A code then .ok ⟨code, h⟩ else .error .other

/-! ## Jobs and sources -/

/-- `_ExtractionJobPayload` -/
structure ExtractionJobPayload (U : Nfc) where
  revisionId : UUID
  mediaType : Str
  parser : ParserIdentity U

structure ExtractionSource (U : Nfc) where
  revisionId : UUID
  /-- Nothing, where the loader returned something else than bytes. -/
  inputBytes : Option (List UInt8)
  originalFilename : Str
  mediaType : Str
  parser : ParserIdentity U

/-- `ExtractionSourceLoader.load` -/
abbrev Loader (U : Nfc) (A : Alnum) := UUID → Except (Failing A) (ExtractionSource U)

/-- `SandboxAdapter.execute` -/
abbrev Adapter (U : Nfc) (A : Alnum) := Ipc.SandboxRequest U → Except (Failing A) Ipc.SandboxExecution

/-- `ParserIdentity(name, version)`, unless it raises. -/
def parserIdentity (U : Nfc) (name version : Str) : Option (ParserIdentity U) :=
  match hname : Ipc.requireNormalizedText U "parser name" 128 (.str name),
    hversion : Ipc.requireNormalizedText U "parser version" 128 (.str version) with
  | .ok name, .ok version =>
    some ⟨name, version, (Ipc.requireNormalizedText_eq_ok.mp hname).2,
      (Ipc.requireNormalizedText_eq_ok.mp hversion).2⟩
  | _, _ => none

/-- `_parse_extraction_payload` -/
def parseExtractionPayload (other : OtherSpellings) (payload : Fields) :
    Except (Failing A) (ExtractionJobPayload U) := do
  require (ExactKeys ["revision_id", "media_type", "parser"] payload) invalidJobPayload
  match get payload "revision_id", get payload "media_type", get payload "parser" with
  | .str revision, .str mediaType, .object parser => do
    require (ExactKeys ["name", "version"] parser) invalidJobPayload
    match get parser "name", get parser "version" with
    | .str name, .str version =>
      match parseUuid other revision, parserIdentity U name version with
      | some revisionId, some parser => .ok ⟨revisionId, mediaType, parser⟩
      | _, _ => .error invalidJobPayload
    | _, _ => .error invalidJobPayload
  | _, _, _ => .error invalidJobPayload

/-- `_validate_loaded_source`, with the bytes of the source. -/
def validateLoadedSource (payload : ExtractionJobPayload U) (source : ExtractionSource U) :
    Except (Failing A) (List UInt8) := do
  require (source.revisionId = payload.revisionId) (terminal "SOURCE_REVISION_MISMATCH" (by decide))
  require (source.mediaType = payload.mediaType ∧ source.parser.name = payload.parser.name ∧
      source.parser.version = payload.parser.version)
    (terminal "SOURCE_EXPECTATION_MISMATCH" (by decide))
  match source.inputBytes with
  | some inputBytes => .ok inputBytes
  | none => .error (terminal "SOURCE_BYTES_INVALID" (by decide))

/-- `_ALLOWED_MEDIA_TYPES` -/
def allowedMediaTypes : List MediaType := [.text, .pdf, .png, .jpeg, .hwp, .hwpx, .docx, .pptx, .xlsx]

/-- A name of at most 255 characters without a separator, a line break or a null character. -/
def SafeBasename (filename : Str) : Prop :=
  filename ≠ [] ∧ filename.length ≤ 255 ∧ ∀ c ∈ filename, c ∉ ([47, 92, 0, 13, 10] : List CodePoint)

instance : DecidablePred SafeBasename := fun filename ↦
  inferInstanceAs (Decidable (filename ≠ [] ∧ filename.length ≤ 255 ∧
    ∀ c ∈ filename, c ∉ ([47, 92, 0, 13, 10] : List CodePoint)))

/-- `SandboxRequest(...)`, with the checks of its `__post_init__`. -/
def sandboxRequest (inputBytes : List UInt8) (originalFilename mediaType : Str) (parser : ParserIdentity U) :
    Except (Failing A) (Ipc.SandboxRequest U) := do
  require (SafeBasename originalFilename) .other
  match allowedMediaTypes.find? fun m ↦ lit m.value = mediaType with
  | some mediaType => .ok ⟨inputBytes, mediaType, parser⟩
  | none => .error .other

/-! ## Completions -/

/-- `_Completion` -/
structure Completion where
  targetState : JobState
  result : Fields
  errorCode : Option String

/-- `_failed_completion` -/
def failedCompletion (code : ErrorCode A) (retryable : Bool) : Completion where
  targetState := if retryable then .failedRetryable else .failedTerminal
  result := obj [("outcome", .str (lit "failed"))]
  errorCode := some code.text

/-- The completion of a success. -/
def summary (revisionId : UUID) (sourceSha256 anchorSetHash : Str) (blockCount : ℕ) (durationMs : ℤ) :
    Completion where
  targetState := .succeeded
  result := obj [("revision_id", .str (lit revisionId.str)), ("source_sha256", .str sourceSha256),
    ("anchor_set_hash", .str anchorSetHash), ("block_count", .int blockCount),
    ("duration_ms", .int (max 0 durationMs))]
  errorCode := none

/-- `_RETRYABLE_SANDBOX_FAILURES` -/
def retryableSandboxFailures : List Ipc.SandboxFailureCode := [.sandboxLaunchFailed, .parserTimeout]

/-- `failure.parser_code or failure.code.value` -/
def storedCode (failure : Ipc.SandboxFailure) : String :=
  match failure.parserCode with
  | some code => if code = "" then failure.code.value else code
  | none => failure.code.value

/-- `_completion_from_sandbox` -/
def completionFromSandbox (payload : ExtractionJobPayload U) (inputBytes : List UInt8)
    (execution : Ipc.SandboxExecution) : Except (Failing A) Completion :=
  if execution.ok = false then
    match execution.failure with
    | none => .error invalidSandboxOutcome
    | some failure => do
      let code ← requireErrorCode (storedCode failure)
      .ok (failedCompletion code
        (failure.retryable.getD (decide (failure.code ∈ retryableSandboxFailures))))
  else do
    let expected := sha256Hex inputBytes
    require (execution.sourceSha256 = expected) invalidSandboxOutcome
    match execution.payload with
    | none => .error invalidSandboxOutcome
    | some envelope =>
      match get envelope "result" with
      | .object result =>
        match get result "anchor_set_hash", get result "blocks" with
        | .str anchorSetHash, .array blocks => do
          require (EqStr expected (get result "source_sha256") ∧ IsSha256 anchorSetHash)
            invalidSandboxOutcome
          .ok (summary payload.revisionId expected anchorSetHash blocks.length execution.durationMs)
        | _, _ => .error invalidSandboxOutcome
      | _ => .error invalidSandboxOutcome

/-- The `try` of `_execute_claimed_job`. -/
def attempt (other : OtherSpellings) (load : Loader U A) (execute : Adapter U A) (jobPayload : Fields) :
    Except (Failing A) Completion := do
  let payload ← parseExtractionPayload other jobPayload
  let source ← load payload.revisionId
  let inputBytes ← validateLoadedSource payload source
  let request ← sandboxRequest inputBytes source.originalFilename payload.mediaType payload.parser
  let execution ← execute request
  completionFromSandbox payload inputBytes execution

/-- `_execute_claimed_job` -/
def executeClaimedJob (other : OtherSpellings) (load : Loader U A) (execute : Adapter U A)
    (jobPayload : Fields) : Completion :=
  match attempt other load execute jobPayload with
  | .ok completion => completion
  | .error (.typed code retryable) => failedCompletion code retryable
  | .error .other =>
    failedCompletion (A := A) ⟨"EXTRACTION_RUNNER_FAILURE", Plain.isErrorCode (by decide)⟩ true

end Code

/-! ## What an iteration writes -/

section Completions

variable {U : Nfc} {A : Alnum} {other : OtherSpellings} {load : Loader U A} {execute : Adapter U A}
  {jobPayload : Fields} {completion : Completion}

/-- The success of one execution: the payload of the sandbox is about the bytes that were loaded, and the
completion sums it up. -/
structure Succeeds (execution : Ipc.SandboxExecution) (revisionId : UUID) (inputBytes : List UInt8)
    (completion : Completion) : Prop where
  ok : execution.ok = true
  result : ∃ envelope result anchorSetHash blocks, execution.payload = some envelope ∧
    get envelope "result" = .object result ∧ get result "source_sha256" = .str (sha256Hex inputBytes) ∧
    get result "anchor_set_hash" = .str anchorSetHash ∧ IsSha256 anchorSetHash ∧
    get result "blocks" = .array blocks ∧
    completion = summary revisionId (sha256Hex inputBytes) anchorSetHash blocks.length execution.durationMs

/-- A completion that the sandbox decides is a failure with its code, or a success. -/
theorem completionFromSandbox_eq_ok {payload : ExtractionJobPayload U} {inputBytes : List UInt8}
    {execution : Ipc.SandboxExecution}
    (h : completionFromSandbox (A := A) payload inputBytes execution = .ok completion) :
    (∃ failure code retryable, execution.ok = false ∧ execution.failure = some failure ∧
        code.text = storedCode failure ∧ completion = failedCompletion (A := A) code retryable) ∨
      Succeeds execution payload.revisionId inputBytes completion := by
  unfold completionFromSandbox at h
  split at h
  · next hok =>
    split at h
    · cases h
    next failure hfailure =>
    obtain ⟨code, hcode, h⟩ := bind_eq_ok.mp h
    cases h
    unfold requireErrorCode at hcode
    split at hcode
    · cases hcode
      exact .inl ⟨failure, _, _, hok, hfailure, rfl, rfl⟩
    · cases hcode
  next hok =>
  obtain ⟨-, h⟩ := require_bind_eq_ok.mp h
  split at h
  · cases h
  next envelope henvelope =>
  split at h
  · next result hresult =>
    split at h
    · next anchorSetHash blocks hhash hblocks =>
      obtain ⟨⟨hsource, hsha⟩, h⟩ := require_bind_eq_ok.mp h
      cases h
      exact .inr ⟨Bool.eq_true_of_not_eq_false hok, envelope, result, anchorSetHash, blocks, henvelope, hresult,
        eqStr_iff.mp hsource, hhash, hsha, hblocks, rfl⟩
    · cases h
  · cases h

theorem validateLoadedSource_eq_ok {payload : ExtractionJobPayload U} {source : ExtractionSource U}
    {inputBytes : List UInt8} (h : validateLoadedSource (A := A) payload source = .ok inputBytes) :
    source.revisionId = payload.revisionId ∧ source.inputBytes = some inputBytes := by
  obtain ⟨hrevision, h⟩ := require_bind_eq_ok.mp h
  obtain ⟨-, h⟩ := require_bind_eq_ok.mp h
  split at h
  · next hbytes =>
    cases h
    exact ⟨hrevision, hbytes⟩
  · exact nomatch h

theorem sandboxRequest_eq_ok {inputBytes : List UInt8} {originalFilename mediaType : Str}
    {parser : ParserIdentity U} {request : Ipc.SandboxRequest U}
    (h : sandboxRequest (A := A) inputBytes originalFilename mediaType parser = .ok request) :
    request.inputBytes = inputBytes ∧ lit request.expectedMediaType.value = mediaType ∧
      request.expectedParser = parser := by
  obtain ⟨-, h⟩ := require_bind_eq_ok.mp h
  split at h
  · next hfind =>
    cases h
    have hvalue := List.find?_some hfind
    exact ⟨rfl, of_decide_eq_true hvalue, rfl⟩
  · exact nomatch h

/-- A success of an iteration: which source was loaded, what the sandbox was asked and what it returned. -/
structure Extracted (other : OtherSpellings) (load : Loader U A) (execute : Adapter U A) (jobPayload : Fields)
    (completion : Completion) (payload : ExtractionJobPayload U) (inputBytes : List UInt8)
    (request : Ipc.SandboxRequest U) (execution : Ipc.SandboxExecution) : Prop where
  parsed : parseExtractionPayload (A := A) other jobPayload = .ok payload
  loaded : ∃ source, load payload.revisionId = .ok source ∧ source.revisionId = payload.revisionId ∧
    source.inputBytes = some inputBytes
  asked : request.inputBytes = inputBytes ∧ lit request.expectedMediaType.value = payload.mediaType ∧
    request.expectedParser = payload.parser
  executed : execute request = .ok execution
  succeeds : Succeeds execution payload.revisionId inputBytes completion

/-- **What an iteration may write**: a failure, or the summary of what the sandbox returned for the source
of the job. -/
theorem executeClaimedJob_cases (other : OtherSpellings) (load : Loader U A) (execute : Adapter U A)
    (jobPayload : Fields) : (∃ code retryable, executeClaimedJob other load execute jobPayload =
        failedCompletion (A := A) code retryable) ∨
      ∃ payload inputBytes request execution, Extracted other load execute jobPayload
        (executeClaimedJob other load execute jobPayload) payload inputBytes request execution := by
  unfold executeClaimedJob
  split
  · next completion h =>
    obtain ⟨payload, hparsed, h⟩ := bind_eq_ok.mp h
    obtain ⟨source, hloaded, h⟩ := bind_eq_ok.mp h
    obtain ⟨inputBytes, hvalid, h⟩ := bind_eq_ok.mp h
    obtain ⟨request, hrequest, h⟩ := bind_eq_ok.mp h
    obtain ⟨execution, hexecuted, h⟩ := bind_eq_ok.mp h
    rcases completionFromSandbox_eq_ok h with ⟨_, code, retryable, -, -, -, hfailed⟩ | hsucceeds
    · exact .inl ⟨code, retryable, hfailed⟩
    · have hsource := validateLoadedSource_eq_ok hvalid
      exact .inr ⟨payload, inputBytes, request, execution, hparsed, ⟨source, hloaded, hsource⟩,
        sandboxRequest_eq_ok hrequest, hexecuted, hsucceeds⟩
  · exact .inl ⟨_, _, rfl⟩
  · exact .inl ⟨_, _, rfl⟩

theorem requireCompletionArguments_failed (code : ErrorCode A) (retryable : Bool) :
    requireCompletionArguments (failedCompletion code retryable).targetState
      (failedCompletion code retryable).errorCode = .ok () := by
  refine requireCompletionArguments_eq_ok.mpr (.inr ⟨?_, code.text, rfl, code.isErrorCode.not_blank,
    code.isErrorCode.bounded⟩)
  rcases retryable with - | -
  · exact .inr rfl
  · exact .inl rfl

/-- **The queue takes the arguments of every completion.** -/
theorem requireCompletionArguments_execute :
    requireCompletionArguments (executeClaimedJob other load execute jobPayload).targetState
      (executeClaimedJob other load execute jobPayload).errorCode = .ok () := by
  rcases executeClaimedJob_cases other load execute jobPayload with
    ⟨code, retryable, h⟩ | ⟨payload, inputBytes, request, execution, h⟩
  · rw [h]
    exact requireCompletionArguments_failed code retryable
  · obtain ⟨_, _, _, _, -, -, -, -, -, -, hcompletion⟩ := h.succeeds.result
    rw [hcompletion]
    exact requireCompletionArguments_eq_ok.mpr (.inl ⟨rfl, rfl⟩)

/-- Python writes the numbers of a summary: neither has more than 4300 digits. -/
def Measured (execution : Ipc.SandboxExecution) : Prop :=
  (decimalDigits (max 0 execution.durationMs).natAbs).length ≤ 4300 ∧
    ∀ envelope result blocks, execution.payload = some envelope → get envelope "result" = .object result →
      get result "blocks" = .array blocks → (decimalDigits blocks.length).length ≤ 4300

/-- **A summary is stored**: it holds nothing but an identifier, two hashes and two numbers. -/
theorem encodable_of_succeeds {execution : Ipc.SandboxExecution} {revisionId : UUID} {inputBytes : List UInt8}
    (h : Succeeds execution revisionId inputBytes completion) (hmeasured : Measured execution) :
    JsonDocument.encodable completion.result = true := by
  obtain ⟨envelope, result, anchorSetHash, blocks, hpayload, hresult, -, -, hsha, hblocks, rfl⟩ := h.result
  have hcount := hmeasured.2 envelope result blocks hpayload hresult hblocks
  have heach : Json.Each Writable (fun ks ↦ ∀ k ∈ ks, Scalar k)
      (.object (summary revisionId (sha256Hex inputBytes) anchorSetHash blocks.length
        execution.durationMs).result) := by
    refine Json.each_object.mpr ⟨?_, ?_⟩
    · simp only [summary, keys_obj, List.map_cons, List.map_nil, List.forall_mem_cons]
      exact ⟨scalar_lit _, scalar_lit _, scalar_lit _, scalar_lit _, scalar_lit _, List.forall_mem_nil _⟩
    · simp only [summary, obj, List.map_cons, List.map_nil, List.forall_mem_cons]
      refine ⟨?_, ?_, ?_, ?_, ?_, List.forall_mem_nil _⟩
      · exact (Json.each_of_leaf (v := .str _) trivial).mpr (scalar_lit _)
      · exact (Json.each_of_leaf (v := .str _) trivial).mpr (scalar_of_isSha256 (isSha256_sha256Hex _))
      · exact (Json.each_of_leaf (v := .str _) trivial).mpr (scalar_of_isSha256 hsha)
      · exact (Json.each_of_leaf (v := .int _) trivial).mpr hcount
      · exact (Json.each_of_leaf (v := .int _) trivial).mpr hmeasured.1
  obtain ⟨text, hdumps, hscalar⟩ := exists_dumps heach
  show (match dumps _ with | .ok text => decide (Scalar text) | .error _ => false) = true
  rw [hdumps]
  exact decide_eq_true hscalar

end Completions

end ExtractionRunner

end MeetingRag
