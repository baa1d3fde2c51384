import MeetingRag.Extraction.Leases
import MeetingRag.Library.Sha256

/-!
# Stored sources

A worker reads the bytes of a revision from a directory of blobs, which anything may have happened
to since the upload. The store resolves the path of a blob, looks at what is there, opens it and
compares size and hash. What it raises itself is a `FileSubmissionError`, which fails the job and its
revision for good. What the file system raises passes through, and the job stays with a lease that
runs out.

`Recognised` says what has to be wrong with a source for the first to happen.
-/

open Outcome Table Text Py

namespace MeetingRag

/-! ## The directory -/

/-- A regular file of the store. -/
structure StoredFile where
  inode : ℕ
  bytes : List UInt8
  /-- The process may open and read it. -/
  readable : Bool

inductive BlobEntry
  | file (file : StoredFile)
  | link
  /-- A directory, a device, a pipe or a socket. -/
  | special

/-- Where the links of a path lead. -/
inductive Resolved
  | child (name : String)
  | outside
  | loop
deriving DecidableEq

/-- The directory of the blobs as one worker finds it. -/
structure BlobDirectory where
  entry : String → Option BlobEntry
  resolve : String → Resolved
  plain : ∀ name, entry name ≠ some .link → resolve name = .child name
  followed : ∀ name target, resolve name = .child target → entry target ≠ some .link

/-- A key that is the name of a child. -/
def ValidKey (key : String) : Prop :=
  key ∉ ["", ".", ".."] ∧ ∀ c ∈ key.toList, c ∉ ['/', Char.ofNat 92, Char.ofNat 0]

instance : DecidablePred ValidKey := fun key ↦
  have : Decidable (∀ c ∈ key.toList, c ∉ ['/', Char.ofNat 92, Char.ofNat 0]) :=
    List.decidableBAll _ _
  inferInstanceAs (Decidable
    (key ∉ ["", ".", ".."] ∧ ∀ c ∈ key.toList, c ∉ ['/', Char.ofNat 92, Char.ofNat 0]))

namespace BlobDirectory

/-- `LocalBlobStore.path_for`. -/
def pathFor (dir : BlobDirectory) (key : String) : Except Error String := do
  require (ValidKey key) (.fileSubmission "invalid blob key")
  match dir.resolve key with
  | .child name => .ok name
  | .outside => .error (.fileSubmission "invalid blob key")
  | .loop => .error (.runtimeError "Symlink loop")

/-- `path.lstat()`. -/
def lstat (dir : BlobDirectory) (name : String) : Except Error BlobEntry :=
  match dir.entry name with
  | some entry => .ok entry
  | none => .error .osError

/-- `path.open("rb")`. -/
def openFile (dir : BlobDirectory) (name : String) : Except Error StoredFile :=
  match dir.entry name with
  | some (.file file) => if file.readable = true then .ok file else .error .osError
  | _ => .error .osError

/-- `LocalBlobStore.open_regular`. -/
def read (dir : BlobDirectory) (key : String) (expectedSize : ℕ) (expectedSha256 : String) :
    Except Error (List UInt8) := do
  let path ← dir.pathFor key
  let metadata ← dir.lstat path
  match metadata with
  | .link | .special => .error (.fileSubmission "stored source is not a regular file")
  | .file metadata => do
    let opened ← dir.openFile path
    require (¬(opened.bytes.length ≠ expectedSize ∨ opened.inode ≠ metadata.inode))
      (.fileSubmission "stored source integrity check failed")
    require (sha256Hex opened.bytes = lit expectedSha256)
      (.fileSubmission "stored source integrity check failed")
    .ok opened.bytes

end BlobDirectory

/-- `FileSubmissionError` and its subclasses. -/
def Error.IsFileSubmission : Error → Prop
  | .fileSubmission _ | .fileSubmissionState _ | .fileSubmissionLimit _ => True
  | _ => False

instance : DecidablePred Error.IsFileSubmission := fun e ↦ by
  unfold Error.IsFileSubmission
  split <;> infer_instance

/-- Decoding a text, or the sandbox. -/
abbrev Parser := LoadedRevision → List UInt8 → Except Error SandboxExecution

/-- The attempt at a loaded revision: its source is read and parsed. -/
def sourceAttempt (dir : BlobDirectory) (execute : Parser) (l : LoadedRevision) : Attempt :=
  match (do let data ← dir.read l.storageKey l.byteSize l.sha256; execute l data) with
  | .ok execution => .executed execution
  | .error e => if e.IsFileSubmission then .unavailable else .raised e

/-! ## What is recognised -/

/-- The revision is what its job expects. -/
def AsExpected (claimed : ClaimedJob ExtractionDocument) (l : LoadedRevision) : Prop :=
  ∀ revisionId mediaType parser, claimed.payload = .job revisionId mediaType parser →
    l.mimeType = mediaType ∧ l.parser = parser

/-- The file has the size and the hash of the upload. -/
def StoredFile.Matches (file : StoredFile) (l : LoadedRevision) : Prop :=
  file.bytes.length = l.byteSize ∧ sha256Hex file.bytes = lit l.sha256

/-- The source of a revision is not what was stored, in a way that the store looks for. -/
def Recognised (dir : BlobDirectory) (l : LoadedRevision) : Prop :=
  ¬ValidKey l.storageKey ∨ dir.resolve l.storageKey = .outside ∨
    ∃ name, dir.resolve l.storageKey = .child name ∧ (dir.entry name = some .special ∨
      ∃ file, dir.entry name = some (.file file) ∧ file.readable = true ∧ ¬file.Matches l)

section Read

variable {dir : BlobDirectory} {l : LoadedRevision}

/-- Reading a source raises the store's own error exactly for what is recognised. -/
theorem BlobDirectory.read_isFileSubmission_iff :
    (∃ e, dir.read l.storageKey l.byteSize l.sha256 = .error e ∧ e.IsFileSubmission) ↔
      Recognised dir l := by
  rw [BlobDirectory.read, BlobDirectory.pathFor, Recognised]
  by_cases hkey : ValidKey l.storageKey
  · rw [require_of hkey, ok_bind]
    cases hresolve : dir.resolve l.storageKey with
    | outside => simp [hkey, Error.IsFileSubmission]
    | loop => simp [hkey, Error.IsFileSubmission]
    | child name =>
      rw [ok_bind, BlobDirectory.lstat]
      cases hentry : dir.entry name with
      | none => simp [hkey, hentry, Error.IsFileSubmission]
      | some entry =>
        rw [ok_bind]
        cases entry with
        | link => exact absurd hentry (dir.followed _ _ hresolve)
        | special => simp [hkey, hentry, Error.IsFileSubmission]
        | file file =>
          dsimp only
          rw [BlobDirectory.openFile, hentry]
          dsimp only
          by_cases hreadable : file.readable = true
          · rw [if_pos hreadable, ok_bind]
            by_cases hsize : file.bytes.length = l.byteSize
            · rw [require_of (by simpa using hsize), ok_bind]
              by_cases hhash : sha256Hex file.bytes = lit l.sha256
              · rw [require_of hhash, ok_bind]
                simp [hkey, hentry, hreadable, StoredFile.Matches, hsize, hhash]
              · rw [require_of_not hhash, error_bind]
                simp [hkey, hentry, hreadable, StoredFile.Matches, hhash, Error.IsFileSubmission]
            · rw [require_of_not (by simpa using hsize), error_bind]
              simp [hkey, hentry, hreadable, StoredFile.Matches, hsize, Error.IsFileSubmission]
          · simp [hkey, hentry, hreadable, Error.IsFileSubmission]
  · rw [require_of_not hkey, error_bind]
    simp [hkey, Error.IsFileSubmission]

end Read

/-! ## What is committed -/

/-- The code of a source that cannot be read. -/
def sourceCode : String := "SOURCE_BLOB_UNAVAILABLE"

/-- The job of a claim and its revision have failed for good, because of the source, and the worker
has returned. -/
def FailedForSource (claimed : ClaimedJob ExtractionDocument) (reply : Except Error ExtractionReply)
    (db : FileDatabase) : Prop :=
  reply = .ok (.completed claimed .failedTerminal) ∧ ∃ r j, IsFile db r j ∧ j.id = claimed.id ∧
    j.state = .failedTerminal ∧ j.errorCode = some sourceCode ∧ r.processingState = .failed

/-- What a parser never does: it does not raise the store's error and does not report its code. -/
structure Parser.Distinct (execute : Parser) : Prop where
  raises : ∀ l data e, execute l data = .error e → ¬e.IsFileSubmission
  reports : ∀ l data execution failure, execute l data = .ok execution →
    execution.failure = some failure → failure.parserCode ≠ some sourceCode

section Decision

variable {dir : BlobDirectory} {execute : Parser} {l : LoadedRevision}
  {claimed : ClaimedJob ExtractionDocument}

/-- The error code of a failed execution is the parser's or the sandbox's. -/
theorem failedDecision_errorCode {failure : Option SandboxFailure}
    (h : ∀ f, failure = some f → f.parserCode ≠ some sourceCode) :
    (failedDecision failure).errorCode ≠ some sourceCode := by
  have hvalue : ∀ code : SandboxFailureCode, code.value ≠ sourceCode := by
    intro code
    cases code <;> decide
  cases failure with
  | none => decide
  | some failure =>
    have hparser := h failure rfl
    intro heq
    have heq : failure.errorCode = sourceCode := Option.some.inj heq
    rw [SandboxFailure.errorCode] at heq
    split at heq
    · next code hcode =>
      split at heq
      · exact hvalue _ heq
      · exact hparser (hcode.trans (congrArg some heq))
    · exact hvalue _ heq

/-- **The decision on a source** is a failure because of it exactly if that is recognised. -/
theorem decideAttempt_sourceAttempt (hexecute : execute.Distinct)
    {identity : UUID × MediaType × FileParser} (hidentity : parseIdentity claimed = .ok identity) :
    (Recognised dir l ∨ ¬AsExpected claimed l →
      decideAttempt claimed (some l) (sourceAttempt dir execute l) = .ok sourceUnavailable) ∧
    (¬(Recognised dir l ∨ ¬AsExpected claimed l) → ∀ decision,
      decideAttempt claimed (some l) (sourceAttempt dir execute l) = .ok decision →
      decision.errorCode ≠ some sourceCode) := by
  have hexpected : AsExpected claimed l ↔ l.mimeType = identity.2.1 ∧ l.parser = identity.2.2 := by
    rw [parseIdentity] at hidentity
    split at hidentity
    · next hpayload =>
      cases hidentity
      constructor
      · exact fun h ↦ h _ _ _ hpayload
      · intro h revisionId mediaType parser heq
        cases hpayload.symm.trans heq
        exact h
    · cases hidentity
  rw [decideAttempt, hidentity, ok_bind]
  dsimp only
  by_cases hmatches : l.mimeType = identity.2.1 ∧ l.parser = identity.2.2
  · have hwanted : AsExpected claimed l := hexpected.mpr hmatches
    rw [if_neg (by simpa [not_or] using hmatches), not_not.mpr hwanted |> eq_false, or_false,
      ← BlobDirectory.read_isFileSubmission_iff, sourceAttempt]
    cases hread : dir.read l.storageKey l.byteSize l.sha256 with
    | error e =>
      rw [error_bind]
      dsimp only
      by_cases hown : e.IsFileSubmission
      · rw [if_pos hown]
        exact ⟨fun _ ↦ rfl, fun hnot ↦ absurd ⟨e, rfl, hown⟩ hnot⟩
      · rw [if_neg hown]
        constructor
        · rintro ⟨e', heq, hown'⟩
          cases heq
          exact absurd hown' hown
        · rintro _ decision ⟨⟩
    | ok data =>
      rw [ok_bind]
      refine ⟨by rintro ⟨_, ⟨⟩, _⟩, fun _ decision h ↦ ?_⟩
      cases hexecution : execute l data with
      | error e =>
        rw [hexecution] at h
        dsimp only at h
        rw [if_neg (hexecute.raises l data e hexecution)] at h
        cases h
      | ok execution =>
        rw [hexecution] at h
        dsimp only [attemptDecision] at h
        rw [executedDecision] at h
        split at h
        · obtain ⟨result, -, h⟩ := bind_eq_ok.mp h
          cases h
          rintro ⟨⟩
        · cases h
          exact failedDecision_errorCode fun f hf ↦ hexecute.reports l data execution f hexecution hf
  · have hunwanted : ¬AsExpected claimed l := fun h ↦ hmatches (hexpected.mp h)
    rw [if_pos (not_and_or.mp hmatches)]
    exact ⟨fun _ ↦ rfl, fun hnot ↦ absurd (Or.inr hunwanted) hnot⟩

theorem capAttempts_errorCode (decision : ExtractionDecision) :
    (capAttempts claimed decision).errorCode = decision.errorCode := by
  rw [capAttempts]
  split <;> rfl

end Decision

section Completion

variable {s : ExtractionState} {claimed : ClaimedJob ExtractionDocument} {l : LoadedRevision}
  {j : Job ExtractionDocument} {clock : StatementClock} {attempt : Attempt} {runId resultId : UUID}

/-- The job of a completed claim carries the code that was decided. -/
theorem completeExtraction_errorCode {db db' : FileDatabase} (hf : Filed db)
    {revision : Option LoadedRevision} {u : Unit}
    (h : completeExtraction claimed revision attempt runId resultId clock db = .ok (u, db')) :
    ∃ decision, decideAttempt claimed revision attempt = .ok decision ∧
      ∀ j ∈ db'.jobs, j.id = claimed.id → j.errorCode = decision.errorCode := by
  obtain ⟨decision, hdecision, h⟩ := bind_eq_ok.mp h
  obtain ⟨row, -, hfenced, s₂, heffect, -, hcompleted⟩ := completeWithEffects_eq_ok hf.ids h
  obtain ⟨other, -, hs₂⟩ := bind_eq_ok.mp heffect
  cases hs₂
  refine ⟨decision, hdecision, fun j hj hid ↦ ?_⟩
  rw [(hcompleted [] (Inserted.refl _ other)).jobs, List.append_nil] at hj
  rcases mem_updateWhere.mp hj with ⟨x, -, -, rfl⟩ | ⟨-, hne⟩
  · exact capAttempts_errorCode decision
  · exact absurd (hid.trans hfenced.1.symm) hne

/-- An attempt that is decided to be an unavailable source commits that, under a live lease. -/
theorem ExtractionState.Leased.completes_unavailable (hs : s.Leased) (resultId : UUID)
    (hloaded : (claimed, some l) ∈ s.loaded) (hj : j ∈ s.db.jobs)
    (hfenced : Fenced claimed clock.seen j)
    (hfresh : ∀ run ∈ s.db.other.extractionRuns, run.id ≠ runId)
    (hdecision : decideAttempt claimed (some l) attempt = .ok sourceUnavailable) :
    ∃ db', (ExtractionCall.complete claimed (some l) attempt runId resultId).body clock s.db
      = .ok (.completed claimed .failedTerminal, db') := by
  obtain ⟨_, r, heq, hfile, hid, hqueued, hcurrent, hnew⟩ := hs.current hloaded hj hfenced
  cases heq
  have hclash : ∀ run ∈ s.db.other.extractionRuns,
      ¬fileRunsClash run (failureRun claimed l sourceCode runId) := by
    rintro run hrun (heq | ⟨-, heq⟩ | ⟨hsource, -, -, hnumber⟩)
    · exact hfresh run hrun heq
    · exact (hnew run hrun).1 heq
    · exact (hnew run hrun).2 ⟨hsource, hnumber⟩
  obtain ⟨t, ht, -, -⟩ := persistExtractionFailure_of_fresh
    (show (JobState.failedTerminal = .failedTerminal) from rfl) hclash hqueued
  have hfence : rowcount (Fenced claimed clock.seen) s.db.jobs = 1 :=
    (rowcount_eq_one hs.sound.filed.ids fun _ _ hp ↦ hp.1).mpr ⟨j, hj, hfenced⟩
  have hcapped : capAttempts claimed sourceUnavailable = sourceUnavailable :=
    if_neg fun h ↦ nomatch h.1
  have harguments : requireCompletionArguments .failedTerminal (some sourceCode) = .ok () := by
    decide
  rw [ExtractionCall.body, hdecision, ok_bind, completeExtraction, hdecision, ok_bind, hcapped]
  have heffect : extractionEffect claimed (some l) sourceUnavailable runId s.db.other = .ok t := ht
  obtain ⟨db', hdb'⟩ : ∃ db', completeWithEffects claimed .failedTerminal .failed (some sourceCode)
      (some (Effect.onOther (extractionEffect claimed (some l) sourceUnavailable runId)).run)
      resultId clock s.db = .ok ((), db') := by
    rw [completeWithEffects, harguments, ok_bind, require_of hfence, ok_bind, runEffect,
      Effect.onOther]
    dsimp only
    rw [heffect, ok_bind, ok_bind, storeResult, if_neg (by decide), ok_bind, require_of hcurrent,
      ok_bind]
    exact ⟨_, rfl⟩
  exact ⟨db', bind_eq_ok.mpr ⟨((), db'), hdb', rfl⟩⟩

/-- **One completion**: under a live lease it fails the job and its revision because of the source
exactly if what is wrong is recognised. -/
theorem ExtractionState.Leased.failedForSource_iff (hs : s.Leased) {dir : BlobDirectory}
    {execute : Parser} (hexecute : execute.Distinct) (hloaded : (claimed, some l) ∈ s.loaded)
    (hj : j ∈ s.db.jobs) (hfenced : Fenced claimed clock.seen j)
    (hfresh : ∀ run ∈ s.db.other.extractionRuns, run.id ≠ runId) :
    let r := extractionMachine.step s
      ⟨clock, .complete claimed (some l) (sourceAttempt dir execute l) runId resultId⟩
    FailedForSource claimed r.1 r.2.db ↔ Recognised dir l ∨ ¬AsExpected claimed l := by
  intro r
  have hbody : r.1 = (transaction s.db ((ExtractionCall.complete claimed (some l)
      (sourceAttempt dir execute l) runId resultId).body clock s.db)).1 := rfl
  have hdb : r.2.db = (transaction s.db ((ExtractionCall.complete claimed (some l)
      (sourceAttempt dir execute l) runId resultId).body clock s.db)).2 :=
    ExtractionState.record_db _ _
  obtain ⟨identity, hidentity⟩ : ∃ identity, parseIdentity claimed = .ok identity := by
    obtain ⟨r₀, j₀, hfile, -, hpayload, -⟩ := hs.sound.issued _ (hs.loaded _ hloaded)
    have hnamed := hfile.payload
    obtain ⟨revisionId, mediaType, parser, hjob⟩ : ∃ a b c, claimed.payload = .job a b c := by
      rw [hpayload] at hnamed
      cases hdocument : claimed.payload with
      | job a b c => exact ⟨a, b, c, rfl⟩
      | result | failed | other =>
        rw [hdocument] at hnamed
        exact nomatch hnamed
    exact ⟨_, by rw [parseIdentity, hjob]⟩
  obtain ⟨hrecognised, hnot⟩ := @decideAttempt_sourceAttempt dir _ l _ hexecute _ hidentity
  -- the code of the job is the one decided on
  have hcodes : ∀ reply, r.1 = .ok reply → ∃ decision,
      decideAttempt claimed (some l) (sourceAttempt dir execute l) = .ok decision ∧
        ∀ j ∈ r.2.db.jobs, j.id = claimed.id → j.errorCode = decision.errorCode := by
    intro reply hreply
    rw [hbody] at hreply
    rw [hdb]
    obtain ⟨_, -, h⟩ := bind_eq_ok.mp (transaction_fst_eq_ok.mp hreply)
    obtain ⟨⟨_, db'⟩, hcomplete, hresult⟩ := bind_eq_ok.mp h
    have hsame := (Prod.mk.inj (Except.ok.inj hresult)).2
    have hcompleted := completeExtraction_errorCode hs.sound.filed hcomplete
    rw [hsame] at hcompleted
    exact hcompleted
  constructor
  · rintro ⟨hreply, r₁, j₁, hfile, hid, -, hcode, -⟩
    obtain ⟨decision, hdecision, hsame⟩ := hcodes _ hreply
    by_contra hunrecognised
    exact hnot hunrecognised decision hdecision ((hsame j₁ hfile.job hid).symm.trans hcode)
  · intro hrec
    obtain ⟨db', hok⟩ := hs.completes_unavailable resultId hloaded hj hfenced hfresh
      (hrecognised hrec)
    have hreply : r.1 = .ok (.completed claimed .failedTerminal) := by
      rw [hbody, hok, transaction_ok]
    have htold : (ExtractionCall.complete claimed (some l) (sourceAttempt dir execute l) runId
        resultId).Told s := hloaded
    have hsound : r.2.Leased := hs.step htold
    have htrue : ReplyHolds s.db r.2.db r.1 := (extractionMachine_step hs.sound htold).2.2
    rw [hreply] at htrue
    obtain ⟨r₁, j₁, hfile, hid, hstate, -⟩ := htrue
    obtain ⟨decision, hdecision, hsame⟩ := hcodes _ hreply
    cases hdecision.symm.trans (hrecognised hrec)
    exact ⟨hreply, r₁, j₁, hfile, hid, hstate, hsame j₁ hfile.job hid,
      (hsound.sound.filed.states hfile).2.2.mpr hstate⟩

end Completion

/-- **A source that is recognised as unavailable fails its job.** In every reachable state, a worker
whose lease is live has loaded its revision, and its attempt on the stored blob ends the job and the
revision for good exactly if the path leaves the store, or what it leads to is there but not a
regular file, or is a regular file that can be opened and has the wrong size or hash. -/
theorem unavailable_source_iff {now : Timestamp} {is : List ExtractionInput}
    (h : extractionMachine.Legal (emptyExtraction now) is) (dir : BlobDirectory) {execute : Parser}
    (hexecute : execute.Distinct) {claimed : ClaimedJob ExtractionDocument}
    {revision : Option LoadedRevision}
    (hloaded : (claimed, revision) ∈ (extractionMachine.exec (emptyExtraction now) is).loaded)
    {clock : StatementClock}
    (hlive : ∃ j ∈ (extractionMachine.exec (emptyExtraction now) is).db.jobs,
      Fenced claimed clock.seen j) {runId : UUID}
    (hfresh : ∀ run ∈ (extractionMachine.exec (emptyExtraction now) is).db.other.extractionRuns,
      run.id ≠ runId) (resultId : UUID) :
    ∃ l, revision = some l ∧
      let r := extractionMachine.step (extractionMachine.exec (emptyExtraction now) is)
        ⟨clock, .complete claimed (some l) (sourceAttempt dir execute l) runId resultId⟩
      (FailedForSource claimed r.1 r.2.db ↔ Recognised dir l ∨ ¬AsExpected claimed l) := by
  obtain ⟨j, hj, hfenced⟩ := hlive
  have hs := extraction_leased h
  obtain ⟨l, -, rfl, -⟩ := hs.current hloaded hj hfenced
  exact ⟨l, rfl, hs.failedForSource_iff hexecute hloaded hj hfenced hfresh⟩

/-! ## Examples -/

/-- A directory without links. -/
def plainDirectory (entry : String → Option BlobEntry) (h : ∀ name, entry name ≠ some .link) :
    BlobDirectory where
  entry := entry
  resolve name := .child name
  plain _ _ := rfl
  followed _ target _ := h target

/-- Every blob is there, and empty. -/
def truncated : BlobDirectory :=
  plainDirectory (fun _ ↦ some (.file ⟨1, [], true⟩)) fun _ heq ↦ nomatch heq

/-- Every blob is gone. -/
def missing : BlobDirectory := plainDirectory (fun _ ↦ none) fun _ heq ↦ nomatch heq

/-- A parser that finds no text. -/
def findsNothing : Parser := fun _ _ ↦
  .ok ⟨false, none, some ⟨.parserReportedFailure, some "EMPTY_TEXT", some false⟩⟩

theorem findsNothing_distinct : findsNothing.Distinct where
  raises _ _ _ h := nomatch h
  reports := by
    intro l data execution failure h hfailure
    cases h
    cases hfailure
    decide

/-- The first attempt at the uploaded text, on the directory. -/
def firstAttempt (dir : BlobDirectory) : Except Error ExtractionReply × ExtractionState :=
  extractionMachine.step (extractionMachine.exec (emptyExtraction 0) (lostRequeue.take 4))
    (extractionAt 4 (.complete (textLease 1 51) (some loadedText)
      (sourceAttempt dir findsNothing loadedText) 61 62))

theorem unavailable_source_iff_truncated :
    FailedForSource (textLease 1 51) (firstAttempt truncated).1 (firstAttempt truncated).2.db := by
  obtain ⟨l, hl, hiff⟩ := @unavailable_source_iff 0 (lostRequeue.take 4) (by decide +kernel) truncated
    _ findsNothing_distinct (textLease 1 51) (some loadedText) (by decide +kernel) ⟨4, 4, le_rfl⟩
    (by decide +kernel) 61 (by decide +kernel) 62
  cases hl
  refine hiff.mpr (Or.inl (Or.inr (Or.inr ⟨_, rfl, Or.inr ⟨_, rfl, rfl, ?_⟩⟩)))
  exact fun h ↦ absurd h.1 (by decide)

/-- **A blob that is gone** lets the exception of the file system escape. The job stays with its
lease, and is claimed again once that has run out. -/
theorem missing_source_is_reclaimed :
    (firstAttempt missing).1 = .error .osError ∧
    ¬FailedForSource (textLease 1 51) (firstAttempt missing).1 (firstAttempt missing).2.db ∧
    (extractionMachine.step (firstAttempt missing).2
        (extractionAt 60000002 (.claim "worker" 53 54 []))).1
      = .ok (.claimed (some (textLease 2 53))) := by
  have hraised : (firstAttempt missing).1 = .error .osError := by decide +kernel
  refine ⟨hraised, fun h ↦ ?_, by decide +kernel⟩
  rw [hraised] at h
  exact nomatch h.1

end MeetingRag
