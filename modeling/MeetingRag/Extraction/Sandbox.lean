import MeetingRag.Extraction.Atomic
import MeetingRag.Ingestion.Ipc
import MeetingRag.Ingestion.Parsing

/-!
# One parser process

`execute_sandbox`, which runs an untrusted parser on a private copy of a source and turns whatever the
process did into one bounded outcome. What the process may do is not restricted: it may not start, never
end, write logs, change its input, leave any files behind, and a file may be another each time it is looked
at.

A success needs a quiet process and one result file that the validator accepts
(`executeSandbox_accepts_iff`). Everything else is a failure, which carries nothing that the parser wrote
but a code of the protocol and whether it may be retried (`executeSandbox_bounded`).
-/

open Outcome Py Json

namespace MeetingRag

theorem Media.text_lit (s : String) : Media.text (lit s) = s := by
  have hmap : (lit s).map (fun c ↦ Char.ofNat c.val) = s.toList := by
    rw [lit, List.map_map]
    exact (List.map_congr_left fun c _ ↦ Char.ofNat_toNat c).trans (List.map_id _)
  rw [Media.text, hmap, String.ofList_toList]

namespace Ipc

/-! ## Outcomes -/

inductive SandboxFailureCode
  | inputTooLarge | sandboxLaunchFailed | parserTimeout | parserLogLimit | parserLogOutput | parserCrash
  | parserExitMismatch | parserOutputTooLarge | invalidParserOutput | stagedInputTampered
  | parserReportedFailure
deriving DecidableEq, Repr

def SandboxFailureCode.value : SandboxFailureCode → String
  | .inputTooLarge => "INPUT_TOO_LARGE"
  | .sandboxLaunchFailed => "SANDBOX_LAUNCH_FAILED"
  | .parserTimeout => "PARSER_TIMEOUT"
  | .parserLogLimit => "PARSER_LOG_LIMIT"
  | .parserLogOutput => "PARSER_LOG_OUTPUT"
  | .parserCrash => "PARSER_CRASH"
  | .parserExitMismatch => "PARSER_EXIT_MISMATCH"
  | .parserOutputTooLarge => "PARSER_OUTPUT_TOO_LARGE"
  | .invalidParserOutput => "INVALID_PARSER_OUTPUT"
  | .stagedInputTampered => "STAGED_INPUT_TAMPERED"
  | .parserReportedFailure => "PARSER_REPORTED_FAILURE"

structure SandboxFailure where
  code : SandboxFailureCode
  parserCode : Option String
  retryable : Option Bool
deriving DecidableEq

structure SandboxExecution where
  ok : Bool
  payload : Option Fields
  failure : Option SandboxFailure
  sourceSha256 : Str
  exitCode : Option ℤ
  durationMs : ℤ
  stdoutBytes : ℕ
  stderrBytes : ℕ
  killed : Bool

/-- `SandboxPolicy`, as far as it is about bytes and characters. -/
structure SandboxPolicy where
  maxInputBytes : ℤ
  maxOutputBytes : ℤ
  bounds : Bounds
  input_pos : 0 < maxInputBytes
  output_pos : 0 < maxOutputBytes
  blocks_pos : 0 < bounds.maxBlocks
  blockChars_pos : 0 < bounds.maxBlockChars
  blockChars_le : bounds.maxBlockChars ≤ bounds.maxTotalChars

/-! ## What a process may do -/

/-- `_Capture`, with the two codes that `_bounded_capture` sets. -/
structure Capture where
  stdout : List UInt8
  stderr : List UInt8
  exitCode : Option ℤ
  boundaryFailure : Option SandboxFailureCode
  killed : Bool
  boundary : ∀ code ∈ boundaryFailure, code = .parserLogLimit ∨ code = .parserTimeout

/-- An entry of the output directory. Each look at a file may fail on its own. -/
inductive OutputFile
  /-- `lstat` fails. -/
  | unreadable
  /-- A link, a directory or a device. -/
  | irregular
  | regular (size : Option ℕ) (data : Option (List UInt8))

/-- The staged files once the process is over, where they can be read. -/
structure Staged where
  input : Option (List UInt8)
  output : Option (List (String × OutputFile))

inductive Behaviour
  /-- The input cannot be staged. -/
  | notStaged
  | notLaunched
  /-- The process is still there after it was killed. -/
  | unkillable
  | ran (capture : Capture) (staged : Staged)

/-! ## The harness -/

section Code

variable {U : Nfc} (limit : ℕ) (request : SandboxRequest U) (policy : SandboxPolicy) (durationMs : ℕ)

def failureExecution (code : SandboxFailureCode) : SandboxExecution where
  ok := false
  payload := none
  failure := some ⟨code, none, none⟩
  sourceSha256 := sha256Hex request.inputBytes
  exitCode := none
  durationMs := durationMs
  stdoutBytes := 0
  stderrBytes := 0
  killed := false

def captureFailure (capture : Capture) (code : SandboxFailureCode) : SandboxExecution :=
  { failureExecution request durationMs code with
    exitCode := capture.exitCode
    stdoutBytes := capture.stdout.length
    stderrBytes := capture.stderr.length
    killed := capture.killed }

/-- The `SandboxExecution` of a failure that the parser reports. -/
def reported (capture : Capture) (failure : ParsedFailure) : SandboxExecution :=
  { captureFailure request durationMs capture .parserReportedFailure with
    failure := some ⟨.parserReportedFailure, some (Media.text failure.code), some failure.retryable⟩
    killed := false }

/-- The `SandboxExecution` of a success. -/
def accepted (capture : Capture) (payload : Fields) : SandboxExecution :=
  { captureFailure request durationMs capture .parserReportedFailure with
    ok := true
    payload := some payload
    failure := none
    killed := false }

inductive OutputError
  | tooLarge
  | valueError (message : String)
  | osError

/-- The part of `_read_single_output` about the one entry. The file is looked at three times. -/
def readFile (maxOutputBytes : ℤ) : OutputFile → Except OutputError (List UInt8)
  | .unreadable => .error (.valueError "parser result file cannot be inspected")
  | .irregular => .error (.valueError "parser result must be a regular file")
  | .regular none _ => .error .osError
  | .regular (some size) data => do
    require (¬maxOutputBytes < size) .tooLarge
    match data with
    | none => .error (.valueError "parser result cannot be read")
    | some data => do
      let value := data.take (maxOutputBytes + 1).toNat
      require (¬maxOutputBytes < value.length) .tooLarge
      require (value ≠ []) (.valueError "parser result is empty")
      .ok value

/-- `_read_single_output` -/
def readSingleOutput (staged : Staged) (maxOutputBytes : ℤ) : Except OutputError (List UInt8) :=
  match staged.output with
  | none => .error (.valueError "parser output directory cannot be inspected")
  | some [(name, file)] =>
    if name = "result.json" then readFile maxOutputBytes file
    else .error (.valueError "parser must write exactly one result.json file")
  | some _ => .error (.valueError "parser must write exactly one result.json file")

/-- What is wrong with the process itself, in the order of the checks. -/
def processFailure (capture : Capture) (staged : Staged) : Option SandboxFailureCode :=
  match capture.boundaryFailure with
  | some code => some code
  | none =>
    if ¬(capture.exitCode = some 0 ∨ capture.exitCode = some 2) then some .parserCrash
    else if capture.stdout ≠ [] ∨ capture.stderr ≠ [] then some .parserLogOutput
    else if staged.input ≠ some request.inputBytes then some .stagedInputTampered
    else none

/-- The payload of a result file and the failure it reports, if it does. -/
def readPayload (raw : List UInt8) : Except Exc (Fields × Option ParsedFailure) := do
  let payload ← parseJsonObject limit raw
  let failure ← validatePhase1Payload payload request policy.bounds
  .ok (payload, failure)

/-- What `execute_sandbox` lets through. -/
inductive SandboxError
  | exc (e : Exc)
  | timeoutExpired
  | osError

/-- `_run_staged_parser` once the process is over. -/
def runStagedParser (capture : Capture) (staged : Staged) : Except SandboxError SandboxExecution :=
  match processFailure request capture staged with
  | some code => .ok (captureFailure request durationMs capture code)
  | none =>
    match readSingleOutput staged policy.maxOutputBytes with
    | .error .tooLarge => .ok (captureFailure request durationMs capture .parserOutputTooLarge)
    | .error (.valueError _) => .ok (captureFailure request durationMs capture .invalidParserOutput)
    -- The second look at the file is outside the `try` of the reader.
    | .error .osError => .error .osError
    | .ok raw =>
      match readPayload limit request policy raw with
      | .error e =>
        if e.IsValueError then .ok (captureFailure request durationMs capture .invalidParserOutput)
        else .error (.exc e)
      | .ok (payload, failure) =>
        if capture.exitCode ≠ some (if failure.isSome then 2 else 0) then
          .ok (captureFailure request durationMs capture .parserExitMismatch)
        else
          match failure with
          | some failure => .ok (reported request durationMs capture failure)
          | none => .ok (accepted request durationMs capture payload)

/-- `execute_sandbox` -/
def executeSandbox (behaviour : Behaviour) : Except SandboxError SandboxExecution :=
  if policy.maxInputBytes < request.inputBytes.length then
    .ok (failureExecution request durationMs .inputTooLarge)
  else
    match behaviour with
    | .notStaged | .notLaunched => .ok (failureExecution request durationMs .sandboxLaunchFailed)
    | .unkillable => .error .timeoutExpired
    | .ran capture staged =>
      match runStagedParser limit request policy durationMs capture staged with
      | .error .osError => .ok (failureExecution request durationMs .sandboxLaunchFailed)
      | outcome => outcome

end Code

/-! ## What is read -/

section Reading

variable {U : Nfc} {limit : ℕ} {request : SandboxRequest U} {policy : SandboxPolicy} {durationMs : ℕ}
  {capture : Capture} {staged : Staged} {raw : List UInt8}

/-- The output directory holds one regular file, of the right name and size. -/
def Holds (maxOutputBytes : ℤ) (raw : List UInt8) (staged : Staged) : Prop :=
  ∃ size : ℕ, staged.output = some [("result.json", .regular (some size) (some raw))] ∧
    size ≤ maxOutputBytes ∧ raw.length ≤ maxOutputBytes ∧ raw ≠ []

theorem readFile_eq_ok {maxOutputBytes : ℤ} (hmax : 0 < maxOutputBytes) {file : OutputFile} :
    readFile maxOutputBytes file = .ok raw ↔ ∃ size : ℕ, file = .regular (some size) (some raw) ∧
      size ≤ maxOutputBytes ∧ raw.length ≤ maxOutputBytes ∧ raw ≠ [] := by
  -- One byte more than the bound is read, so a text within the bound was read whole.
  have hwhole : ∀ data : List UInt8, (data.take (maxOutputBytes + 1).toNat).length ≤ maxOutputBytes ↔
      data.length ≤ maxOutputBytes := by
    intro data
    rw [List.length_take]
    omega
  rcases file with - | - | ⟨size, data⟩
  · simp [readFile]
  · simp [readFile]
  rcases size with - | size
  · simp [readFile]
  rcases data with - | data
  · simp [readFile, require_bind_eq_ok]
  simp only [readFile, require_bind_eq_ok, not_lt, hwhole, Except.ok.injEq, OutputFile.regular.injEq,
    Option.some.injEq]
  constructor
  · rintro ⟨hsize, hlength, hne, rfl⟩
    have htake : data.take (maxOutputBytes + 1).toNat = data := List.take_of_length_le (by omega)
    rw [htake] at hne ⊢
    exact ⟨size, ⟨rfl, rfl⟩, hsize, hlength, hne⟩
  · rintro ⟨_, ⟨rfl, rfl⟩, hsize, hlength, hne⟩
    have htake : data.take (maxOutputBytes + 1).toNat = data := List.take_of_length_le (by omega)
    exact ⟨hsize, hlength, by rwa [htake], htake⟩

theorem readSingleOutput_eq_ok {maxOutputBytes : ℤ} (hmax : 0 < maxOutputBytes) :
    readSingleOutput staged maxOutputBytes = .ok raw ↔ Holds maxOutputBytes raw staged := by
  unfold readSingleOutput Holds
  split
  · next hnone => simp [hnone]
  · next name file hsome =>
    split
    · next hname =>
      rw [readFile_eq_ok hmax, hsome, hname]
      simp
    · next hname => simp [hsome, hname]
  · next hsome => simp_all

/-- The process kept to its boundary and ended with one of the two exit codes. -/
structure Quiet (request : SandboxRequest U) (capture : Capture) (staged : Staged) : Prop where
  bounded : capture.boundaryFailure = none
  exit : capture.exitCode = some 0 ∨ capture.exitCode = some 2
  stdout : capture.stdout = []
  stderr : capture.stderr = []
  input : staged.input = some request.inputBytes

theorem processFailure_eq_none :
    processFailure request capture staged = none ↔ Quiet request capture staged := by
  unfold processFailure
  constructor
  · intro h
    split at h
    · exact nomatch h
    next hbounded =>
    split at h
    · exact nomatch h
    next hexit =>
    split at h
    · exact nomatch h
    next hlogs =>
    split at h
    · exact nomatch h
    next hinput =>
    rw [not_or, not_not, not_not] at hlogs
    exact ⟨hbounded, not_not.mp hexit, hlogs.1, hlogs.2, not_not.mp hinput⟩
  · rintro ⟨hbounded, hexit, hstdout, hstderr, hinput⟩
    simp [hbounded, hexit, hstdout, hstderr, hinput]

theorem processFailure_ne_reported {code : SandboxFailureCode}
    (h : processFailure request capture staged = some code) : code ≠ .parserReportedFailure := by
  unfold processFailure at h
  split at h
  · next code' hcode =>
    cases h
    rcases capture.boundary _ hcode with rfl | rfl <;> decide
  · split at h
    · cases h
      decide
    split at h
    · cases h
      decide
    split at h
    · cases h
      decide
    · exact nomatch h

/-- A validated envelope says whether it is that of a failure. -/
theorem ok_of_validatePhase1Payload {payload : Fields} {bounds : Bounds} {failure : Option ParsedFailure}
    (h : validatePhase1Payload payload request bounds = .ok failure) :
    get payload "ok" = .bool failure.isNone := by
  rw [validatePhase1Payload, check_bind_eq_ok] at h
  obtain ⟨⟨-, hok⟩, h⟩ := h
  obtain ⟨b, hb⟩ := isBool_iff.mp hok
  rw [getItem_of_has (has_of_get_ne_null (by rw [hb]; exact Json.noConfusion)), ok_bind, hb] at h
  rcases b with - | -
  · obtain ⟨failure', -, h⟩ := bind_eq_ok.mp h
    cases h
    exact hb
  · obtain ⟨-, -, h⟩ := bind_eq_ok.mp h
    cases h
    exact hb

theorem validatePhase1Payload_eq_none {payload : Fields} {bounds : Bounds} :
    validatePhase1Payload payload request bounds = .ok none ↔
      ∃ rows, IsSuccess (request.expected bounds) rows payload := by
  constructor
  · intro h
    rcases validatePhase1Payload_ok_iff.mp ⟨_, h⟩ with hsuccess | hfailure
    · exact hsuccess
    · exact Bool.noConfusion (Json.bool.inj ((ok_of_validatePhase1Payload h).symm.trans hfailure.1.2))
  · rintro ⟨rows, hrows⟩
    obtain ⟨failure, h⟩ := validatePhase1Payload_ok_iff.mpr (.inl ⟨rows, hrows⟩)
    have hnone := Json.bool.inj ((ok_of_validatePhase1Payload h).symm.trans hrows.1.2)
    rwa [Option.isNone_iff_eq_none.mp hnone] at h

/-- The code of a failure is one of the protocol's, and it is the one that the parser wrote. -/
structure SaysFailure (payload : Fields) (code : String) (retryable : Bool) : Prop where
  isFailure : IsFailure U payload
  approved : code ∈ errorCodes
  fields : ∃ error, get payload "error" = .object error ∧ get error "code" = .str (lit code) ∧
    get error "retryable" = .bool retryable

theorem validatePhase1Payload_eq_some {payload : Fields} {bounds : Bounds} {failure : ParsedFailure}
    (h : validatePhase1Payload payload request bounds = .ok (some failure)) :
    ∃ code, failure.code = lit code ∧ SaysFailure (U := U) payload code failure.retryable := by
  have hok : get payload "ok" = .bool false := ok_of_validatePhase1Payload h
  have hfailure : IsFailure U payload := by
    refine (validatePhase1Payload_ok_iff.mp ⟨_, h⟩).resolve_left ?_
    rintro ⟨rows, hrows⟩
    exact Bool.noConfusion (Json.bool.inj (hok.symm.trans hrows.1.2))
  rw [validatePhase1Payload, check_bind_eq_ok] at h
  have hitem := getItem_of_has (has_of_get_ne_null (by rw [hok]; exact Json.noConfusion))
  rw [hitem, ok_bind, hok] at h
  obtain ⟨failure', hvalid, h⟩ := bind_eq_ok.mp h.2
  cases h
  have herror := getItem_of_has (hfailure.2.1.2 "error" (by simp))
  simp only [validateFailurePayload, bind_eq_ok, requireExactKeys, check_eq_ok, herror, Except.ok.injEq,
    requireMapping_eq_ok, failureCode_eq_ok, failureRetryable_eq_ok] at hvalid
  obtain ⟨_, -, _, rfl, error, hobject, _, -, code, ⟨hcode, happroved⟩, _, -, _, -, b, hb, rfl⟩ := hvalid
  rw [hcode] at happroved
  obtain ⟨code', hmem, rfl⟩ := happroved
  exact ⟨code', rfl, hfailure, hmem, error, hobject, hcode, hb⟩

theorem readPayload_eq_ok {payload : Fields} {failure : Option ParsedFailure} :
    readPayload limit request policy raw = .ok (payload, failure) ↔ Spells limit raw payload ∧
      validatePhase1Payload payload request policy.bounds = .ok failure := by
  rw [readPayload, parseJsonObject, bind_eq_ok]
  simp only [readObject_eq_ok, bind_eq_ok, Except.ok.injEq, Prod.mk.injEq]
  constructor
  · rintro ⟨_, hspells, _, hvalid, rfl, rfl⟩
    exact ⟨hspells, hvalid⟩
  · rintro ⟨hspells, hvalid⟩
    exact ⟨payload, hspells, failure, hvalid, rfl, rfl⟩

/-- The result file spells a success with a trap. -/
def Traps (limit : ℕ) (request : SandboxRequest U) (policy : SandboxPolicy) (raw : List UInt8) : Prop :=
  ∃ payload, Spells limit raw payload ∧
    SuccessTrap (request.expected policy.bounds) (· = anchorKind request.expectedMediaType) (fun _ ↦ True)
      payload

theorem raises_readPayload :
    Raises Exc.Uncaught (readPayload limit request policy raw) ↔ Traps limit request policy raw := by
  rw [readPayload, parseJsonObject, raises_bind_of_not (not_raises_readObject _ _ _)]
  simp only [readObject_eq_ok]
  refine exists_congr fun payload ↦ and_congr_right fun _ ↦ ?_
  rw [← raises_validatePhase1Payload]
  constructor
  · intro h
    rcases raises_bind.mp h with h | ⟨_, -, h⟩
    · exact h
    · exact absurd h not_raises_ok
  · exact fun h ↦ raises_bind.mpr (.inl h)

/-! ## What is returned -/

/-- The outcome of a validated result file. -/
def answer (request : SandboxRequest U) (durationMs : ℕ) (capture : Capture) (payload : Fields) :
    Option ParsedFailure → SandboxExecution
  | some failure => reported request durationMs capture failure
  | none => accepted request durationMs capture payload

/-- The process was quiet, its result file is valid, and its exit code agrees with it. -/
structure Answers (limit : ℕ) (request : SandboxRequest U) (policy : SandboxPolicy) (capture : Capture)
    (staged : Staged) (payload : Fields) (failure : Option ParsedFailure) : Prop where
  quiet : Quiet request capture staged
  file : ∃ raw, Holds policy.maxOutputBytes raw staged ∧ Spells limit raw payload
  valid : validatePhase1Payload payload request policy.bounds = .ok failure
  exit : capture.exitCode = some (if failure.isSome then 2 else 0)

/-- **What a process that ran can lead to**: the outcome of its result file, or a failure that the harness
found. -/
theorem runStagedParser_eq_ok {execution : SandboxExecution}
    (h : runStagedParser limit request policy durationMs capture staged = .ok execution) :
    (∃ code, code ≠ .parserReportedFailure ∧ execution = captureFailure request durationMs capture code) ∨
      ∃ payload failure, Answers limit request policy capture staged payload failure ∧
        execution = answer request durationMs capture payload failure := by
  unfold runStagedParser at h
  split at h
  · next code hcode =>
    cases h
    exact .inl ⟨code, processFailure_ne_reported hcode, rfl⟩
  next hquiet =>
  split at h
  · cases h
    exact .inl ⟨_, by decide, rfl⟩
  · cases h
    exact .inl ⟨_, by decide, rfl⟩
  · exact nomatch h
  next raw hraw =>
  split at h
  · split at h
    · cases h
      exact .inl ⟨_, by decide, rfl⟩
    · exact nomatch h
  next payload failure hread =>
  obtain ⟨hspells, hvalid⟩ := readPayload_eq_ok.mp hread
  by_cases hexit : capture.exitCode = some (if failure.isSome then 2 else 0)
  · rw [if_neg (not_not.mpr hexit)] at h
    have hanswers : Answers limit request policy capture staged payload failure :=
      ⟨processFailure_eq_none.mp hquiet, ⟨raw, (readSingleOutput_eq_ok policy.output_pos).mp hraw, hspells⟩,
        hvalid, hexit⟩
    refine .inr ⟨payload, failure, hanswers, ?_⟩
    rcases failure with - | failure
    · exact (Except.ok.inj h).symm
    · exact (Except.ok.inj h).symm
  · rw [if_pos hexit] at h
    cases h
    exact .inl ⟨_, by decide, rfl⟩

theorem runStagedParser_of_answers {payload : Fields} {failure : Option ParsedFailure}
    (h : Answers limit request policy capture staged payload failure) :
    runStagedParser limit request policy durationMs capture staged =
      .ok (answer request durationMs capture payload failure) := by
  obtain ⟨raw, hholds, hspells⟩ := h.file
  rw [runStagedParser, processFailure_eq_none.mpr h.quiet]
  simp only [(readSingleOutput_eq_ok policy.output_pos).mpr hholds, readPayload_eq_ok.mpr ⟨hspells, h.valid⟩,
    h.exit, ne_eq, not_true_eq_false, if_false]
  rcases failure with - | failure
  · rfl
  · rfl

/-- What gets out of a process that ran: an exception at a trap, or that the file is gone between two
looks. -/
theorem runStagedParser_eq_error {e : SandboxError}
    (h : runStagedParser limit request policy durationMs capture staged = .error e) : e = .osError ∨
      Quiet request capture staged ∧
        ∃ raw, Holds policy.maxOutputBytes raw staged ∧ Traps limit request policy raw := by
  unfold runStagedParser at h
  split at h
  · exact nomatch h
  next hquiet =>
  split at h
  · exact nomatch h
  · exact nomatch h
  · exact .inl (Except.error.inj h).symm
  next raw hraw =>
  split at h
  · next e' hread =>
    split at h
    · exact nomatch h
    next huncaught =>
    exact .inr ⟨processFailure_eq_none.mp hquiet, raw, (readSingleOutput_eq_ok policy.output_pos).mp hraw,
      raises_readPayload.mp ⟨e', hread, huncaught⟩⟩
  next payload failure hread =>
  by_cases hexit : capture.exitCode = some (if failure.isSome then 2 else 0)
  · rw [if_neg (not_not.mpr hexit)] at h
    rcases failure with - | failure
    · exact nomatch h
    · exact nomatch h
  · rw [if_pos hexit] at h
    exact nomatch h

theorem runStagedParser_of_traps (durationMs : ℕ) (hquiet : Quiet request capture staged)
    (hholds : Holds policy.maxOutputBytes raw staged) (htraps : Traps limit request policy raw) :
    ∃ e, runStagedParser limit request policy durationMs capture staged = .error (.exc e) := by
  obtain ⟨e, hread, huncaught⟩ := raises_readPayload.mpr htraps
  refine ⟨e, ?_⟩
  rw [runStagedParser, processFailure_eq_none.mpr hquiet]
  simp only [(readSingleOutput_eq_ok policy.output_pos).mpr hholds, hread]
  exact if_neg huncaught

end Reading

/-! ## Every behaviour of a parser -/

section Behaviour

variable {U : Nfc} {limit : ℕ} {request : SandboxRequest U} {policy : SandboxPolicy} {durationMs : ℕ}
  {behaviour : Behaviour} {execution : SandboxExecution}

/-- What an input within the bound leads to, by what the process does. -/
theorem executeSandbox_eq_ok
    (h : executeSandbox limit request policy durationMs behaviour = .ok execution) :
    (∃ code, code ≠ .parserReportedFailure ∧
        (execution = failureExecution request durationMs code ∨
          ∃ capture, execution = captureFailure request durationMs capture code)) ∨
      request.inputBytes.length ≤ policy.maxInputBytes ∧ ∃ capture staged payload failure,
        behaviour = .ran capture staged ∧ Answers limit request policy capture staged payload failure ∧
          execution = answer request durationMs capture payload failure := by
  unfold executeSandbox at h
  split at h
  · cases h
    exact .inl ⟨_, by decide, .inl rfl⟩
  next hbound =>
  split at h
  · cases h
    exact .inl ⟨_, by decide, .inl rfl⟩
  · cases h
    exact .inl ⟨_, by decide, .inl rfl⟩
  · exact nomatch h
  next capture staged =>
  split at h
  · cases h
    exact .inl ⟨_, by decide, .inl rfl⟩
  · rcases runStagedParser_eq_ok h with ⟨code, hcode, hexecution⟩ | ⟨payload, failure, hanswers, hexecution⟩
    · exact .inl ⟨code, hcode, .inr ⟨capture, hexecution⟩⟩
    · exact .inr ⟨not_lt.mp hbound, capture, staged, payload, failure, rfl, hanswers, hexecution⟩

theorem executeSandbox_ran (hbound : request.inputBytes.length ≤ policy.maxInputBytes) {capture : Capture}
    {staged : Staged} {outcome : Except SandboxError SandboxExecution}
    (h : runStagedParser limit request policy durationMs capture staged = outcome)
    (hcaught : outcome ≠ .error .osError) :
    executeSandbox limit request policy durationMs (.ran capture staged) = outcome := by
  rw [executeSandbox, if_neg (not_lt.mpr hbound), h]
  split
  · exact absurd rfl hcaught
  · rfl

/-- **When the harness reports a success.** The source is within the bound; the process ended with exit code
0, wrote no logs and left its input alone; and the one file that it left, a regular file within the bound,
spells a success of the protocol for this source, media type and parser. That payload is what is reported. -/
theorem executeSandbox_accepts_iff :
    executeSandbox limit request policy durationMs behaviour = .ok execution ∧ execution.ok = true ↔
      request.inputBytes.length ≤ policy.maxInputBytes ∧ ∃ capture staged raw payload rows,
        behaviour = .ran capture staged ∧ Quiet request capture staged ∧ capture.exitCode = some 0 ∧
          Holds policy.maxOutputBytes raw staged ∧ Spells limit raw payload ∧
          IsSuccess (request.expected policy.bounds) rows payload ∧
          execution = accepted request durationMs capture payload := by
  constructor
  · rintro ⟨h, hok⟩
    rcases executeSandbox_eq_ok h with ⟨code, -, rfl | ⟨capture, rfl⟩⟩ |
      ⟨hbound, capture, staged, payload, failure, rfl, hanswers, rfl⟩
    · exact Bool.noConfusion hok
    · exact Bool.noConfusion hok
    rcases failure with - | failure
    · obtain ⟨raw, hholds, hspells⟩ := hanswers.file
      obtain ⟨rows, hrows⟩ := validatePhase1Payload_eq_none.mp hanswers.valid
      exact ⟨hbound, capture, staged, raw, payload, rows, rfl, hanswers.quiet, hanswers.exit, hholds, hspells,
        hrows, rfl⟩
    · exact Bool.noConfusion hok
  · rintro ⟨hbound, capture, staged, raw, payload, rows, rfl, hquiet, hexit, hholds, hspells, hrows, rfl⟩
    have hanswers : Answers limit request policy capture staged payload none :=
      ⟨hquiet, ⟨raw, hholds, hspells⟩, validatePhase1Payload_eq_none.mpr ⟨rows, hrows⟩, hexit⟩
    exact ⟨executeSandbox_ran hbound (runStagedParser_of_answers hanswers) (by simp), rfl⟩

/-- The parser itself reported the failure: it ended with exit code 2, and the file that it left spells a
failure with this code, which is one of the protocol's. -/
def ReportedBy (limit : ℕ) (request : SandboxRequest U) (policy : SandboxPolicy) (behaviour : Behaviour)
    (code : String) (retryable : Bool) : Prop :=
  ∃ capture staged raw payload, behaviour = .ran capture staged ∧ Quiet request capture staged ∧
    capture.exitCode = some 2 ∧ Holds policy.maxOutputBytes raw staged ∧ Spells limit raw payload ∧
    SaysFailure (U := U) payload code retryable

/-- The outcome holds no payload: the harness found the failure, or the parser reported it. -/
def BoundedFailure (limit : ℕ) (request : SandboxRequest U) (policy : SandboxPolicy) (behaviour : Behaviour)
    (execution : SandboxExecution) : Prop :=
  execution.payload = none ∧ ((∃ code, code ≠ .parserReportedFailure ∧
      execution.failure = some ⟨code, none, none⟩) ∨
    ∃ code retryable, execution.failure = some ⟨.parserReportedFailure, some code, some retryable⟩ ∧
      ReportedBy limit request policy behaviour code retryable)

theorem boundedFailure_of_not_ok
    (h : executeSandbox limit request policy durationMs behaviour = .ok execution)
    (hok : execution.ok = false) : BoundedFailure limit request policy behaviour execution := by
  rcases executeSandbox_eq_ok h with ⟨code, hcode, rfl | ⟨capture, rfl⟩⟩ |
    ⟨-, capture, staged, payload, failure, rfl, hanswers, rfl⟩
  · exact ⟨rfl, .inl ⟨code, hcode, rfl⟩⟩
  · exact ⟨rfl, .inl ⟨code, hcode, rfl⟩⟩
  rcases failure with - | failure
  · exact Bool.noConfusion hok
  · obtain ⟨raw, hholds, hspells⟩ := hanswers.file
    obtain ⟨code, hcode, hsays⟩ := validatePhase1Payload_eq_some hanswers.valid
    refine ⟨rfl, .inr ⟨code, failure.retryable, ?_, capture, staged, raw, payload, rfl, hanswers.quiet,
      hanswers.exit, hholds, hspells, hsays⟩⟩
    show some (⟨_, some (Media.text failure.code), some failure.retryable⟩ : SandboxFailure) = _
    rw [hcode, Media.text_lit]

theorem executeSandbox_raises_iff :
    (∃ e, executeSandbox limit request policy durationMs behaviour = .error e) ↔
      request.inputBytes.length ≤ policy.maxInputBytes ∧ (behaviour = .unkillable ∨
        ∃ capture staged raw, behaviour = .ran capture staged ∧ Quiet request capture staged ∧
          Holds policy.maxOutputBytes raw staged ∧ Traps limit request policy raw) := by
  constructor
  · rintro ⟨e, h⟩
    unfold executeSandbox at h
    split at h
    · exact nomatch h
    next hbound =>
    refine ⟨not_lt.mp hbound, ?_⟩
    split at h
    · exact nomatch h
    · exact nomatch h
    · exact .inl rfl
    next capture staged =>
    split at h
    · exact nomatch h
    next hcaught =>
    rcases runStagedParser_eq_error h with rfl | ⟨hquiet, raw, hholds, htraps⟩
    · exact absurd h hcaught
    · exact .inr ⟨capture, staged, raw, rfl, hquiet, hholds, htraps⟩
  · rintro ⟨hbound, rfl | ⟨capture, staged, raw, rfl, hquiet, hholds, htraps⟩⟩
    · exact ⟨.timeoutExpired, if_neg (not_lt.mpr hbound)⟩
    · obtain ⟨e, h⟩ := runStagedParser_of_traps durationMs hquiet hholds htraps
      exact ⟨.exc e, executeSandbox_ran hbound h (by simp)⟩

end Behaviour

end Ipc

end MeetingRag
