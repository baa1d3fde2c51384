import MeetingRag.Extraction.BlobStore
import MeetingRag.Extraction.MediaTypes
import MeetingRag.Extraction.Submission
import MeetingRag.Library.Procedure

/-!
# Submitting a file, step by step

`submit` changes two stores that share no transaction. It writes a staging file, renames it to the key of
its revision in the middle of a database transaction, and takes back by hand what it did to the directory
when anything raises: it deletes the key, or the staging file while it knows of no key.

Every step can fail. Between the rename and the return of the key lie the steps that make the rename
durable, and while they run the file has the name that the caller does not know yet.

## Main results

* `stageFile_ensures`, `commitBlob_ensures`, `storeRows_ensures`: the parts of a submission.
* `submit_ensures`: what is left behind, whichever step fails.
* `atomic_iff`: a submission is atomic unless a step after the rename fails.
-/

open Outcome Py Table Procedure

namespace MeetingRag

namespace Media

/-! ## The steps -/

/-- The steps of `submit` that can fail for reasons of their own. -/
inductive SubmitStep
  | openStaging | read (chunk : ℕ) | hash (chunk : ℕ) | write (chunk : ℕ) | syncStaging
  | begin | session | count | rename
  | openBlob | syncBlob | closeBlob | openRoot | syncRoot | closeRoot
  | insertSubmission | insertRevision | enqueue | record | commit
deriving DecidableEq

/-- The steps of `_fsync_file_and_parent`. -/
def syncSteps : List SubmitStep :=
  [.openBlob, .syncBlob, .closeBlob, .openRoot, .syncRoot, .closeRoot]

/-- What `submit` raises. -/
inductive SubmitError
  | upload (e : UploadError)
  | service (e : Error)
  | failed (step : SubmitStep)
  | fileExists
  | fileNotFound

/-- The two stores, and the local variable `committed_key`. -/
structure SubmitState where
  db : FileDatabase
  files : AList fun _ : String ↦ List UInt8
  committedKey : Option String

/-- The arguments of `submit`, with a title that has been checked, and the identifiers that are drawn. -/
structure SubmitRequest where
  sessionId : UUID
  actorId : UUID
  filename : Str
  declaredMimeType : Str
  title : String
  chunks : List (List UInt8)
  contentLength : Option ℤ
  staging : UUID
  submissionId : UUID
  revisionId : UUID
  jobId : UUID

def SubmitRequest.temporary (request : SubmitRequest) : String := stagingName request.staging

def SubmitRequest.key (request : SubmitRequest) : String := blobName request.revisionId

abbrev Submitting := Procedure SubmitState SubmitError

section Submission

variable (U : Nfc) (k : Url.Casing) (request : SubmitRequest) (failing : Option SubmitStep)
  (clock : StatementClock)

/-- A step that does nothing to the stores, unless it is the one that fails. -/
def attempt (step : SubmitStep) : Submitting Unit :=
  ofExcept (require (failing ≠ some step) (.failed step))

def uploadCheck {α : Type} (x : Except UploadError α) : Submitting α :=
  ofExcept (x.mapError .upload)

/-! ### Staging -/

def writeStaging (bytes : List UInt8) : Submitting Unit :=
  operation fun s ↦ .ok { s with files := s.files.insert request.temporary bytes }

/-- The loop over the chunks of the stream. -/
def stageChunks (staged : Staged) (i : ℕ) : List (List UInt8) → Submitting Staged
  | [] => do
    attempt failing (.read i)
    pure staged
  | chunk :: rest => do
    attempt failing (.read i)
    if chunk = [] then pure staged
    else do
      uploadCheck (require (¬staged.size + chunk.length > maxFileBytes)
        (.limit "file exceeds the upload limit"))
      attempt failing (.hash i)
      attempt failing (.write i)
      writeStaging request (staged.written ++ chunk)
      stageChunks ⟨staged.size + chunk.length, extendHead staged.head chunk,
        staged.written ++ chunk⟩ (i + 1) rest

/-- `path.open("xb")`. -/
def createStaging : Submitting Unit :=
  operation fun s ↦
    if s.files.lookup request.temporary = none then
      .ok { s with files := s.files.insert request.temporary [] }
    else .error .fileExists

/-- `_stream_to_file`. -/
def stageFile : Submitting Staged := do
  uploadCheck (require (∀ n ∈ request.contentLength, n ≤ maxFileBytes)
    (.limit "file exceeds the upload limit"))
  uploadCheck (require (∀ n ∈ request.contentLength, 1 ≤ n) (.validation "file size is invalid"))
  attempt failing .openStaging
  createStaging request
  let staged ← stageChunks request failing ⟨0, [], []⟩ 0 request.chunks
  attempt failing .syncStaging
  uploadCheck (require (staged.size ≠ 0 ∧ ∀ n ∈ request.contentLength, (staged.size : ℤ) = n)
    (.validation "file size does not match the upload"))
  pure staged

/-! ### The blob -/

/-- `os.replace(temporary, destination)`. -/
def replaceFile : Submitting Unit :=
  operation fun s ↦
    match s.files.lookup request.temporary with
    | none => .error .fileNotFound
    | some bytes =>
      .ok { s with files := (s.files.erase request.temporary).insert request.key bytes }

/-- `_fsync_file_and_parent`. -/
def syncFileAndParent : Submitting Unit := do
  attempt failing .openBlob
  attempt failing .syncBlob
  attempt failing .closeBlob
  attempt failing .openRoot
  attempt failing .syncRoot
  attempt failing .closeRoot

/-- `LocalBlobStore.commit`. A key that is made of a UUID is a safe one. -/
def commitBlob : Submitting String := do
  attempt failing .rename
  replaceFile request
  syncFileAndParent failing
  pure request.key

/-! ### The rows -/

def submissionRow (roomId : UUID) : FileSubmission :=
  ⟨request.submissionId, request.sessionId, roomId, request.actorId, request.title, false⟩

/-- A text without surrogates as the database holds it. -/
def text (s : Str) : String := String.ofList (s.map fun c ↦ Char.ofNat c.val)

def revisionRow (filename : Str) (fileType : FileType) (staged : Staged) (key : String) :
    FileRevision where
  id := request.revisionId
  submissionId := request.submissionId
  filename := text filename
  mimeType := fileType.mediaType
  byteSize := staged.size
  sha256 := text (sha256Hex staged.written)
  storageKey := some key
  processingState := .queued
  approvedExtractionRunId := none
  isCurrent := true

def updateDb (f : FileDatabase → Except Error FileDatabase) : Submitting Unit :=
  operation fun s ↦ ((f s.db).mapError .service).map fun db ↦ { s with db := db }

def insertSubmission (roomId : UUID) (db : FileDatabase) : Except Error FileDatabase := do
  let submissions ← insertUnique fileSubmissionsClash (fun _ ↦ .database "submissions_pkey")
    (submissionRow request roomId) db.other.submissions
  .ok { db with other := { db.other with submissions := submissions } }

def insertRevision (revision : FileRevision) (db : FileDatabase) : Except Error FileDatabase := do
  let revisions ← insertUnique fileRevisionsClash (fun _ ↦ .database "source_revisions_key")
    revision db.other.revisions
  .ok { db with other := { db.other with revisions := revisions } }

def enqueueExtraction (fileType : FileType) (db : FileDatabase) : Except Error FileDatabase := do
  let (_, db) ← enqueue request.jobId (extractionKey request.revisionId) JobKind.extraction.value
    (.job request.revisionId fileType.mediaType fileType.parser) none clock db
  .ok db

def recordCreated (roomId : UUID) (db : FileDatabase) : Except Error FileDatabase :=
  .ok { db with other := { db.other with
    auditEvents := appendEvent ⟨.submission ⟨.created, EventIdentity.submissionCreated_mem⟩
      request.submissionId 1, some request.actorId, some roomId, some request.sessionId⟩ db.other.auditEvents } }

/-- The writes of the transaction, once the blob has its key. -/
def insertRows (filename : Str) (fileType : FileType) (staged : Staged) (roomId : UUID)
    (key : String) : Submitting Unit := do
  attempt failing .insertSubmission
  updateDb (insertSubmission request roomId)
  attempt failing .insertRevision
  updateDb (insertRevision (revisionRow request filename fileType staged key))
  attempt failing .enqueue
  updateDb (enqueueExtraction request clock fileType)
  attempt failing .record
  updateDb (recordCreated request roomId)
  attempt failing .commit

/-- The transaction of `submit`. An exception takes the rows back, and so does a failed commit. -/
def storeRows (filename : Str) (fileType : FileType) (staged : Staged) : Submitting Unit :=
  onError (do
    attempt failing .begin
    attempt failing .session
    let roomId ← gets fun s ↦
      (requireOpenMemberSession s.db.other request.sessionId request.actorId).mapError .service
    attempt failing .count
    gets fun s ↦ require (¬currentRevisionCount s.db.other request.sessionId ≥ 20)
      (.service (.fileSubmissionLimit "current revision limit reached"))
    let key ← commitBlob request failing
    operation fun s ↦ .ok { s with committedKey := some key }
    insertRows request failing clock filename fileType staged roomId key)
    fun before after ↦ { after with db := before.db }

/-- `self._blob_store.delete(committed_key or temporary)`. -/
def cleanUp (s : SubmitState) : SubmitState :=
  { s with files := s.files.erase (s.committedKey.getD request.temporary) }

/-- `FileSubmissionService.submit`. -/
def submit : Submitting Unit := do
  let safeName ← uploadCheck (safeFilename U request.filename)
  let fileType ← uploadCheck (declaredFileType k safeName request.declaredMimeType)
  onError (do
    let staged ← stageFile request failing
    let fileType ← uploadCheck (effectiveFileType fileType staged.head)
    storeRows request failing clock safeName fileType staged) fun _ ↦ cleanUp request

end Submission

/-! ## The parts -/

/-- The step that fails makes the rename durable. -/
def Syncing (failing : Option SubmitStep) : Prop := ∃ step ∈ syncSteps, failing = some step

theorem not_syncing {failing : Option SubmitStep} {step : SubmitStep} (h : failing = some step)
    (hstep : step ∉ syncSteps) : ¬Syncing failing := by
  rintro ⟨other, hother, heq⟩
  obtain rfl := Option.some.inj (h.symm.trans heq)
  exact hstep hother

section Parts

variable {request : SubmitRequest} {failing : Option SubmitStep} {clock : StatementClock}
  {s : SubmitState}

/-- A step that may fail, and what comes after it. -/
theorem afterAttempt {α : Type} {step : SubmitStep} {next : Unit → Submitting α}
    {Q : α → SubmitState → Prop} {E : SubmitError → SubmitState → Prop}
    (hfails : failing = some step → ∀ e, E e s) (hnext : failing ≠ some step →
      Ensures (next ()) s Q E) : Ensures (attempt failing step >>= next) s Q E := by
  rw [ensures_bind, attempt, ensures_ofExcept]
  refine ⟨fun _ hok ↦ hnext (require_eq_ok.mp hok), fun e herr ↦ hfails ?_ e⟩
  by_contra hno
  rw [require, if_pos hno] at herr
  cases herr

/-- A check of the upload, and what comes after it. -/
theorem afterCheck {α β : Type} {x : Except UploadError β} {next : β → Submitting α}
    {Q : α → SubmitState → Prop} {E : SubmitError → SubmitState → Prop}
    (hraises : ∀ e, x = .error e → E (.upload e) s)
    (hnext : ∀ b, x = .ok b → Ensures (next b) s Q E) :
    Ensures (uploadCheck x >>= next) s Q E := by
  rw [ensures_bind, uploadCheck, ensures_ofExcept]
  cases x with
  | ok b => exact ⟨fun b' hb ↦ Except.ok.inj hb ▸ hnext b rfl, nofun⟩
  | error e => exact ⟨nofun, fun e' he ↦ Except.error.inj he ▸ hraises e rfl⟩

/-- **Staging a stream** writes what a stream reads, and stops where it does. -/
theorem stageChunks_ensures {staged : Staged} {i : ℕ} {chunks : List (List UInt8)}
    {files : AList fun _ : String ↦ List UInt8}
    (hfiles : s.files = files.insert request.temporary staged.written) :
    Ensures (stageChunks request failing staged i chunks) s
      (fun result s' ↦ readChunks staged chunks = .ok result ∧
        s' = { s with files := files.insert request.temporary result.written })
      (fun _ s' ↦ (∃ bytes, s' = { s with files := files.insert request.temporary bytes }) ∧
        (Syncing failing → ∀ result, readChunks staged chunks ≠ .ok result)) := by
  induction chunks generalizing staged i s with
  | nil =>
    have hself : s = { s with files := files.insert request.temporary staged.written } := by
      rw [← hfiles]
    refine afterAttempt (fun hfails _ ↦ ⟨⟨_, hself⟩, fun hsync ↦ ?_⟩) fun _ ↦ ⟨rfl, hself⟩
    exact absurd hsync (not_syncing hfails (by simp [syncSteps]))
  | cons chunk rest ih =>
    have hself : s = { s with files := files.insert request.temporary staged.written } := by
      rw [← hfiles]
    -- A step that fails leaves the file as it is.
    have hstop : ∀ step, step ∉ syncSteps → failing = some step →
        (∃ bytes, s = { s with files := files.insert request.temporary bytes }) ∧
          (Syncing failing → ∀ result, readChunks staged (chunk :: rest) ≠ .ok result) :=
      fun step hstep hfails ↦ ⟨⟨_, hself⟩, fun hsync ↦ absurd hsync (not_syncing hfails hstep)⟩
    rw [stageChunks]
    refine afterAttempt (fun hfails _ ↦ hstop _ (by simp [syncSteps]) hfails) fun _ ↦ ?_
    by_cases hempty : chunk = []
    · rw [if_pos hempty, ensures_pure, readChunks, if_pos hempty]
      exact ⟨rfl, hself⟩
    rw [if_neg hempty]
    refine afterCheck (fun e herr ↦ ⟨⟨_, hself⟩, fun _ ↦ ?_⟩) fun _ hok ↦ ?_
    · have hlarge : staged.size + chunk.length > maxFileBytes := by
        by_contra hno
        rw [require, if_pos hno] at herr
        cases herr
      rw [readChunks, if_neg hempty, if_pos hlarge]
      rintro _ ⟨⟩
    have hread : readChunks staged (chunk :: rest) =
        readChunks ⟨staged.size + chunk.length, extendHead staged.head chunk,
          staged.written ++ chunk⟩ rest := by
      rw [readChunks, if_neg hempty, if_neg (require_eq_ok.mp hok)]
    refine afterAttempt (fun hfails _ ↦ hstop _ (by simp [syncSteps]) hfails) fun _ ↦ ?_
    refine afterAttempt (fun hfails _ ↦ hstop _ (by simp [syncSteps]) hfails) fun _ ↦ ?_
    rw [ensures_bind, writeStaging, ensures_operation]
    refine ⟨fun s' hs' ↦ ?_, by rintro _ ⟨⟩⟩
    -- The rest of the stream goes on from the longer file.
    obtain rfl := Except.ok.inj hs'
    have hlonger : s.files.insert request.temporary (staged.written ++ chunk) =
        files.insert request.temporary (staged.written ++ chunk) := by
      rw [hfiles, AList.insert_insert]
    rw [hread]
    exact ih hlonger

theorem streamToFile_eq_ok {chunks : List (List UInt8)} {contentLength : Option ℤ}
    {staged : Staged} : streamToFile chunks contentLength = .ok staged ↔
      (∀ n ∈ contentLength, n ≤ maxFileBytes) ∧ (∀ n ∈ contentLength, 1 ≤ n) ∧
        readChunks ⟨0, [], []⟩ chunks = .ok staged ∧
          staged.size ≠ 0 ∧ ∀ n ∈ contentLength, (staged.size : ℤ) = n := by
  simp only [streamToFile, bind_eq_ok, require_eq_ok, exists_const, Except.ok.injEq]
  constructor
  · rintro ⟨hlimit, hpositive, result, hread, hsize, rfl⟩
    exact ⟨hlimit, hpositive, hread, hsize⟩
  · rintro ⟨hlimit, hpositive, hread, hsize⟩
    exact ⟨hlimit, hpositive, staged, hread, hsize, rfl⟩

/-- **Staging an upload** accepts what `streamToFile` accepts, and leaves one file at most. -/
theorem stageFile_ensures :
    Ensures (stageFile request failing) s
      (fun staged s' ↦ streamToFile request.chunks request.contentLength = .ok staged ∧
        s.files.lookup request.temporary = none ∧
        s' = { s with files := s.files.insert request.temporary staged.written })
      (fun _ s' ↦ (s' = s ∨ ∃ bytes, s' = { s with files := s.files.insert request.temporary bytes }) ∧
        (Syncing failing → s.files.lookup request.temporary = none →
          ∀ staged, streamToFile request.chunks request.contentLength ≠ .ok staged)) := by
  simp only [ne_eq, streamToFile_eq_ok]
  rw [stageFile]
  refine afterCheck (fun e herr ↦ ⟨.inl rfl, fun _ _ _ h ↦ ?_⟩) fun _ hlimit ↦ ?_
  · rw [require_of h.1] at herr
    exact nomatch herr
  rw [require_eq_ok] at hlimit
  refine afterCheck (fun e herr ↦ ⟨.inl rfl, fun _ _ _ h ↦ ?_⟩) fun _ hpositive ↦ ?_
  · rw [require_of h.2.1] at herr
    exact nomatch herr
  rw [require_eq_ok] at hpositive
  refine afterAttempt (fun hfails _ ↦ ⟨.inl rfl, fun hsync ↦
    absurd hsync (not_syncing hfails (by simp [syncSteps]))⟩) fun _ ↦ ?_
  rw [ensures_bind, createStaging, ensures_operation]
  by_cases hfree : s.files.lookup request.temporary = none
  · rw [if_pos hfree]
    refine ⟨fun s' hs' ↦ ?_, nofun⟩
    obtain rfl := Except.ok.inj hs'
    rw [ensures_bind]
    refine (@stageChunks_ensures request failing _ _ _ _ s.files rfl).mono ?_ ?_
    · rintro staged _ ⟨hread, rfl⟩
      refine afterAttempt (fun hfails _ ↦ ⟨.inr ⟨_, rfl⟩, fun hsync ↦
        absurd hsync (not_syncing hfails (by simp [syncSteps]))⟩) fun _ ↦ ?_
      refine afterCheck (fun e herr ↦ ⟨.inr ⟨_, rfl⟩, fun _ _ other h ↦ ?_⟩) fun _ hsize ↦ ?_
      · obtain rfl := Except.ok.inj (hread.symm.trans h.2.2.1)
        rw [require_of h.2.2.2] at herr
        exact nomatch herr
      · exact ⟨⟨hlimit, hpositive, hread, require_eq_ok.mp hsize⟩, hfree, rfl⟩
    · rintro _ _ ⟨⟨bytes, rfl⟩, hstop⟩
      exact ⟨.inr ⟨bytes, rfl⟩, fun hsync _ staged h ↦ hstop hsync staged h.2.2.1⟩
  · rw [if_neg hfree]
    exact ⟨nofun, fun _ _ ↦ ⟨.inl rfl, fun _ hfree' ↦ absurd hfree' hfree⟩⟩

/-- The directory once the staging file has its key. -/
def moved (request : SubmitRequest) (files : AList fun _ : String ↦ List UInt8)
    (bytes : List UInt8) : AList fun _ : String ↦ List UInt8 :=
  (files.erase request.temporary).insert request.key bytes

theorem syncFileAndParent_ensures : Ensures (syncFileAndParent failing) s
    (fun _ s' ↦ s' = s ∧ ¬Syncing failing) (fun _ s' ↦ s' = s ∧ Syncing failing) := by
  have hfails : ∀ step ∈ syncSteps, failing = some step → ∀ e : SubmitError,
      s = s ∧ Syncing failing := fun step hstep h _ ↦ ⟨rfl, step, hstep, h⟩
  rw [syncFileAndParent]
  refine afterAttempt (hfails _ (by decide)) fun h1 ↦ ?_
  refine afterAttempt (hfails _ (by decide)) fun h2 ↦ ?_
  refine afterAttempt (hfails _ (by decide)) fun h3 ↦ ?_
  refine afterAttempt (hfails _ (by decide)) fun h4 ↦ ?_
  refine afterAttempt (hfails _ (by decide)) fun h5 ↦ ?_
  refine (ensures_ofExcept).mpr ⟨fun _ h6 ↦ ⟨rfl, ?_⟩, fun e herr ↦ ?_⟩
  · rintro ⟨step, hstep, rfl⟩
    rw [require_eq_ok] at h6
    simp [syncSteps] at hstep
    grind
  · by_cases h6 : failing = some .closeRoot
    · exact hfails _ (by decide) h6 e
    · rw [require_of h6] at herr
      exact nomatch herr

/-- **Committing the blob** renames the file, and then either returns its key or raises without it. -/
theorem commitBlob_ensures {bytes : List UInt8}
    (hstaged : s.files.lookup request.temporary = some bytes) :
    Ensures (commitBlob request failing) s
      (fun key s' ↦ key = request.key ∧ ¬Syncing failing ∧
        s' = { s with files := moved request s.files bytes })
      (fun _ s' ↦ (¬Syncing failing ∧ s' = s) ∨
        (Syncing failing ∧ s' = { s with files := moved request s.files bytes })) := by
  rw [commitBlob]
  refine afterAttempt (fun hfails _ ↦ .inl ⟨not_syncing hfails (by decide), rfl⟩) fun _ ↦ ?_
  rw [ensures_bind, replaceFile, ensures_operation, hstaged]
  refine ⟨fun s' hs' ↦ ?_, nofun⟩
  obtain rfl := Except.ok.inj hs'
  rw [ensures_bind]
  refine syncFileAndParent_ensures.mono ?_ ?_
  · rintro _ _ ⟨rfl, hsync⟩
    exact ⟨rfl, hsync, rfl⟩
  · rintro _ _ ⟨rfl, hsync⟩
    exact .inr ⟨hsync, rfl⟩

/-- A procedure that leaves the directory and the key as they are. -/
def LeavesFiles {α : Type} (p : Submitting α) : Prop :=
  ∀ s, Ensures p s (fun _ s' ↦ s'.files = s.files ∧ s'.committedKey = s.committedKey)
    (fun _ s' ↦ s'.files = s.files ∧ s'.committedKey = s.committedKey)

theorem LeavesFiles.bind {α β : Type} {p : Submitting α} {f : α → Submitting β}
    (hp : LeavesFiles p) (hf : ∀ a, LeavesFiles (f a)) : LeavesFiles (p >>= f) := by
  intro s
  rw [ensures_bind]
  refine (hp s).mono (fun a s' h ↦ (hf a s').mono ?_ ?_) fun _ _ h ↦ h
  · rintro b s'' ⟨hfiles, hkey⟩
    exact ⟨hfiles.trans h.1, hkey.trans h.2⟩
  · rintro e s'' ⟨hfiles, hkey⟩
    exact ⟨hfiles.trans h.1, hkey.trans h.2⟩

theorem leavesFiles_attempt (step : SubmitStep) : LeavesFiles (attempt failing step) :=
  fun _ ↦ ensures_ofExcept.mpr ⟨fun _ _ ↦ ⟨rfl, rfl⟩, fun _ _ ↦ ⟨rfl, rfl⟩⟩

theorem leavesFiles_updateDb (f : FileDatabase → Except Error FileDatabase) :
    LeavesFiles (updateDb f) := by
  intro s
  rw [updateDb, ensures_operation]
  refine ⟨fun s' hs' ↦ ?_, fun _ _ ↦ ⟨rfl, rfl⟩⟩
  cases hf : f s.db with
  | ok db =>
    rw [hf] at hs'
    obtain rfl := Except.ok.inj hs'
    exact ⟨rfl, rfl⟩
  | error e =>
    rw [hf] at hs'
    exact nomatch hs'

theorem leavesFiles_insertRows (filename : Str) (fileType : FileType) (staged : Staged)
    (roomId : UUID) (key : String) :
    LeavesFiles (insertRows request failing clock filename fileType staged roomId key) := by
  have hpair : ∀ (step : SubmitStep) (f : FileDatabase → Except Error FileDatabase)
      {rest : Unit → Submitting Unit}, LeavesFiles (rest ()) →
        LeavesFiles (attempt failing step >>= fun _ ↦ updateDb f >>= rest) :=
    fun step f rest hrest ↦ (leavesFiles_attempt step).bind fun _ ↦
      (leavesFiles_updateDb f).bind fun _ ↦ hrest
  rw [insertRows]
  exact hpair _ _ (hpair _ _ (hpair _ _ (hpair _ _ (leavesFiles_attempt .commit))))

/-- The session lets a member submit one more file. -/
def Open (request : SubmitRequest) (s : SubmitState) : Prop :=
  (∃ roomId, requireOpenMemberSession s.db.other request.sessionId request.actorId = .ok roomId) ∧
    ¬currentRevisionCount s.db.other request.sessionId ≥ 20

/-- **Storing the rows.** A transaction that raises leaves the rows; the file is where it was, or it has
a key, which is known unless the rename was not made durable. -/
theorem storeRows_ensures {filename : Str} {fileType : FileType} {staged : Staged}
    (hstaged : s.files.lookup request.temporary = some staged.written) :
    Ensures (storeRows request failing clock filename fileType staged) s
      (fun _ _ ↦ ¬Syncing failing)
      (fun _ s' ↦ s'.db = s.db ∧
        ((s'.files = s.files ∧ s'.committedKey = s.committedKey ∧
            ¬(Syncing failing ∧ Open request s)) ∨
          (s'.files = moved request s.files staged.written ∧
            s'.committedKey = some request.key ∧ ¬Syncing failing) ∨
          (s'.files = moved request s.files staged.written ∧
            s'.committedKey = s.committedKey ∧ Syncing failing ∧ Open request s))) := by
  have hstop : ∀ step, step ∉ syncSteps → failing = some step → ¬(Syncing failing ∧ Open request s) :=
    fun step hstep hfails h ↦ not_syncing hfails hstep h.1
  rw [storeRows, ensures_onError]
  refine afterAttempt (fun hfails _ ↦ ⟨rfl, .inl ⟨rfl, rfl, hstop _ (by decide) hfails⟩⟩) fun _ ↦ ?_
  refine afterAttempt (fun hfails _ ↦ ⟨rfl, .inl ⟨rfl, rfl, hstop _ (by decide) hfails⟩⟩) fun _ ↦ ?_
  rw [ensures_bind, ensures_gets]
  refine ⟨fun roomId hroom ↦ ?_, fun e herr ↦ ⟨rfl, .inl ⟨rfl, rfl, fun h ↦ ?_⟩⟩⟩
  swap
  · obtain ⟨-, ⟨roomId, hroom⟩, -⟩ := h
    rw [hroom] at herr
    exact nomatch herr
  refine afterAttempt (fun hfails _ ↦ ⟨rfl, .inl ⟨rfl, rfl, hstop _ (by decide) hfails⟩⟩) fun _ ↦ ?_
  rw [ensures_bind, ensures_gets]
  refine ⟨fun _ hcount ↦ ?_, fun e herr ↦ ⟨rfl, .inl ⟨rfl, rfl, fun h ↦ ?_⟩⟩⟩
  swap
  · rw [require_of h.2.2] at herr
    exact nomatch herr
  have hopen : Open request s := by
    refine ⟨⟨roomId, ?_⟩, require_eq_ok.mp hcount⟩
    cases hrequire : requireOpenMemberSession s.db.other request.sessionId request.actorId with
    | ok room =>
      rw [hrequire] at hroom
      exact congrArg Except.ok (Except.ok.inj hroom)
    | error e =>
      rw [hrequire] at hroom
      exact nomatch hroom
  rw [ensures_bind]
  refine (commitBlob_ensures hstaged).mono ?_ ?_
  · rintro _ _ ⟨rfl, hsync, rfl⟩
    rw [ensures_bind, ensures_operation]
    refine ⟨fun s' hs' ↦ ?_, nofun⟩
    obtain rfl := Except.ok.inj hs'
    refine (leavesFiles_insertRows filename fileType staged roomId request.key _).mono
      (fun _ _ _ ↦ hsync) ?_
    rintro e s' ⟨hfiles, hkey⟩
    exact ⟨rfl, .inr (.inl ⟨hfiles, hkey, hsync⟩)⟩
  · rintro e _ (⟨hsync, rfl⟩ | ⟨hsync, rfl⟩)
    · exact ⟨rfl, .inl ⟨rfl, rfl, fun h ↦ hsync h.1⟩⟩
    · exact ⟨rfl, .inr (.inr ⟨rfl, rfl, hsync, hopen⟩)⟩

end Parts

/-! ## Atomicity -/

/-- What a submission that raises may leave behind: the rows as they were, and no new file. -/
structure Atomic (before after : SubmitState) : Prop where
  db : after.db = before.db
  files : ∀ name bytes, after.files.lookup name = some bytes → before.files.lookup name = some bytes

/-- The names of staging files and of blobs are apart. -/
theorem temporary_ne_key (request : SubmitRequest) : request.temporary ≠ request.key := by
  intro h
  have hlast : ∀ a b : String, (a ++ b).toList.getLast? = (b.toList.getLast?).or a.toList.getLast? :=
    fun a b ↦ by rw [String.toList_append, List.getLast?_append]
  have hends := congrArg (fun name : String ↦ name.toList.getLast?) h
  simp only [SubmitRequest.temporary, SubmitRequest.key, stagingName, blobName, hlast] at hends
  have htemporary : ".tmp".toList.getLast? = some 'p' := by decide
  have hblob : ".blob".toList.getLast? = some 'b' := by decide
  rw [htemporary, hblob, Option.some_or, Option.some_or] at hends
  exact absurd hends (by decide)

section Whole

variable (U : Nfc) (k : Url.Casing) (request : SubmitRequest) (failing : Option SubmitStep)
  (clock : StatementClock) (s : SubmitState)

/-- The checks before the rename let the upload pass: those on the upload itself, the staging name is
free, and the session takes one more file. -/
structure Admitted (accepted : Accepted) : Prop where
  accepted : acceptUpload U k request.filename request.declaredMimeType request.chunks
    request.contentLength = .ok accepted
  free : s.files.lookup request.temporary = none
  isOpen : Open request s

/-- Deleting the one file that may be new leaves no new file. -/
theorem lookup_cleanUp {files files' : AList fun _ : String ↦ List UInt8} {name : String}
    (hold : ∀ other bytes, other ≠ name → files'.lookup other = some bytes →
      files.lookup other = some bytes) :
    ∀ other bytes, (files'.erase name).lookup other = some bytes →
      files.lookup other = some bytes := by
  intro other bytes h
  obtain ⟨hne, h⟩ := lookup_erase_eq_some.mp h
  exact hold other bytes hne h

/-- **What a submission leaves behind**: nothing new if it raises, unless a step fails that makes the
rename durable; then the blob stays. -/
theorem submit_ensures (hkey : s.committedKey = none) :
    Ensures (submit U k request failing clock) s
      (fun _ _ ↦ ∀ accepted, ¬(Syncing failing ∧ Admitted U k request s accepted))
      (fun _ s' ↦
        (Atomic s s' ∧ ∀ accepted, ¬(Syncing failing ∧ Admitted U k request s accepted)) ∨
          ∃ accepted, Syncing failing ∧ Admitted U k request s accepted ∧ s'.db = s.db ∧
            s'.files.lookup request.key = some accepted.data ∧
            ∀ name bytes, name ≠ request.key → s'.files.lookup name = some bytes →
              s.files.lookup name = some bytes) := by
  -- What an admitted upload has passed.
  have hadmitted : ∀ {accepted}, Admitted U k request s accepted → ∃ declared staged,
      safeFilename U request.filename = .ok accepted.filename ∧
      declaredFileType k accepted.filename request.declaredMimeType = .ok declared ∧
      streamToFile request.chunks request.contentLength = .ok staged ∧
      effectiveFileType declared staged.head = .ok accepted.fileType := by
    intro accepted h
    have hpassed := h.accepted
    simp only [acceptUpload, bind_eq_ok, Except.ok.injEq] at hpassed
    obtain ⟨name, hsafe, declared, hdeclared, staged, hstaged, effective, heffective, rfl⟩ := hpassed
    exact ⟨declared, staged, hsafe, hdeclared, hstaged, heffective⟩
  rw [submit]
  refine afterCheck (fun e herr ↦ .inl ⟨⟨rfl, fun _ _ h ↦ h⟩, fun accepted h ↦ ?_⟩)
    fun name hsafe ↦ ?_
  · obtain ⟨_, _, hsafe, -⟩ := hadmitted h.2
    rw [hsafe] at herr
    exact nomatch herr
  refine afterCheck (fun e herr ↦ .inl ⟨⟨rfl, fun _ _ h ↦ h⟩, fun accepted h ↦ ?_⟩)
    fun declared hdeclared ↦ ?_
  · obtain ⟨_, _, hsafe', hdeclared, -⟩ := hadmitted h.2
    rw [← Except.ok.inj (hsafe.symm.trans hsafe'), herr] at hdeclared
    exact nomatch hdeclared
  rw [ensures_onError, ensures_bind]
  refine stageFile_ensures.mono ?_ ?_
  swap
  · -- Staging raises: the cleanup deletes the staging file.
    rintro e s' ⟨hleft, hstop⟩
    refine .inl ⟨?_, fun accepted h ↦ ?_⟩
    · obtain rfl | ⟨bytes, rfl⟩ := hleft
      · refine ⟨rfl, lookup_cleanUp fun other bytes _ h ↦ h⟩
      · refine ⟨rfl, lookup_cleanUp fun other bytes hne h ↦ ?_⟩
        rw [hkey, Option.getD_none] at hne
        rwa [AList.lookup_insert_ne hne] at h
    · obtain ⟨_, staged, -, -, hstaged, -⟩ := hadmitted h.2
      exact hstop h.1 h.2.free staged hstaged
  rintro staged _ ⟨hstaged, hfree, rfl⟩
  -- The directory with the staging file removed again is no larger than it was.
  have hwithout : ∀ {name bytes}, name ≠ request.temporary →
      (s.files.insert request.temporary staged.written).lookup name = some bytes →
        s.files.lookup name = some bytes := by
    intro name bytes hne h
    rwa [AList.lookup_insert_ne hne] at h
  refine afterCheck (fun e herr ↦ .inl ⟨⟨rfl, lookup_cleanUp fun other bytes hne h ↦ ?_⟩,
    fun accepted h ↦ ?_⟩) fun effective heffective ↦ ?_
  · rw [hkey, Option.getD_none] at hne
    exact hwithout hne h
  · obtain ⟨_, _, hsafe', hdeclared', hstaged', heffective⟩ := hadmitted h.2
    obtain rfl := Except.ok.inj (hsafe.symm.trans hsafe')
    obtain rfl := Except.ok.inj (hdeclared.symm.trans hdeclared')
    obtain rfl := Except.ok.inj (hstaged.symm.trans hstaged')
    rw [heffective] at herr
    exact nomatch herr
  have hfinal : acceptUpload U k request.filename request.declaredMimeType request.chunks
      request.contentLength = .ok ⟨name, staged.written, effective⟩ := by
    rw [acceptUpload, hsafe, ok_bind, hdeclared, ok_bind, hstaged, ok_bind, heffective, ok_bind]
  refine (storeRows_ensures (AList.lookup_insert _)).mono (fun _ _ hsync _ h ↦ hsync h.1) ?_
  rintro e s' ⟨hdb, ⟨hfiles, hcommitted, hnot⟩ | ⟨hfiles, hcommitted, hsync⟩ |
    ⟨hfiles, hcommitted, hsync, hopen⟩⟩
  · -- Before the rename the staging file is deleted.
    refine .inl ⟨⟨hdb, lookup_cleanUp fun other bytes hne h ↦ ?_⟩, fun accepted h ↦
      hnot ⟨h.1, h.2.isOpen⟩⟩
    rw [hcommitted, hkey, Option.getD_none] at hne
    rw [hfiles] at h
    exact hwithout hne h
  · -- Once the key is known the blob is deleted.
    refine .inl ⟨⟨hdb, lookup_cleanUp fun other bytes hne h ↦ ?_⟩, fun _ h ↦ hsync h.1⟩
    rw [hcommitted, Option.getD_some] at hne
    rw [hfiles, moved, AList.lookup_insert_ne hne] at h
    obtain ⟨hne', h⟩ := lookup_erase_eq_some.mp h
    exact hwithout hne' h
  · -- In between the staging file is deleted, which is there no more.
    refine .inr ⟨⟨name, staged.written, effective⟩, hsync, ⟨hfinal, hfree, hopen⟩, hdb, ?_, ?_⟩
    · rw [cleanUp, hcommitted, hkey, Option.getD_none,
        AList.lookup_erase_ne (temporary_ne_key request).symm, hfiles, moved, AList.lookup_insert]
    · intro other bytes hne h
      rw [cleanUp, hfiles] at h
      obtain ⟨-, h⟩ := lookup_erase_eq_some.mp h
      rw [moved, AList.lookup_insert_ne hne] at h
      obtain ⟨hne', h⟩ := lookup_erase_eq_some.mp h
      exact hwithout hne' h

/-- **A submission is atomic** unless the step that fails makes the rename durable and the checks before
the rename let the upload pass. (If the very blob had been there before, nothing is left behind.) -/
theorem atomic_iff (hkey : s.committedKey = none) :
    (∀ e s', submit U k request failing clock s = (.error e, s') → Atomic s s') ↔
      ¬∃ accepted, Syncing failing ∧ Admitted U k request s accepted ∧
        s.files.lookup request.key ≠ some accepted.data := by
  have hensures := submit_ensures U k request failing clock s hkey
  constructor
  · rintro hatomic ⟨accepted, hsync, hadmitted, hnew⟩
    match hrun : submit U k request failing clock s with
    | (.ok _, s') =>
      rw [Ensures, hrun] at hensures
      exact hensures accepted ⟨hsync, hadmitted⟩
    | (.error e, s') =>
      obtain ⟨-, hno⟩ | ⟨other, -, hadmitted', -, hblob, -⟩ := hensures.of_error hrun
      · exact hno accepted ⟨hsync, hadmitted⟩
      · obtain rfl := Except.ok.inj (hadmitted.accepted.symm.trans hadmitted'.accepted)
        exact hnew ((hatomic e s' hrun).files _ _ hblob)
  · intro hno e s' hrun
    obtain ⟨hatomic, -⟩ | ⟨accepted, hsync, hadmitted, hdb, hblob, hrest⟩ := hensures.of_error hrun
    · exact hatomic
    · have hthere : s.files.lookup request.key = some accepted.data := by
        by_contra hnew
        exact hno ⟨accepted, hsync, hadmitted, hnew⟩
      refine ⟨hdb, fun name bytes h ↦ ?_⟩
      by_cases hname : name = request.key
      · subst hname
        rw [hthere, ← hblob, h]
      · exact hrest name bytes hname h

end Whole

/-! ## A directory that is not synced -/

/-- An open session with one member, and an empty directory. -/
def openSession : SubmitState where
  db := ⟨[], [], [], { emptyFileTables with
    talkSessions := [⟨3, 2, 1, "topic", .open, 0, 0, 0⟩]
    roomMemberships := [⟨2, 1, true, false⟩] }⟩
  files := ∅
  committedKey := none

def stoppedClock : StatementClock := ⟨0, 0, epoch_le⟩

/-- The upload of a picture. -/
def pictureRequest : SubmitRequest where
  sessionId := 3
  actorId := 1
  filename := lit "photo.JPG"
  declaredMimeType := lit "image/jpeg"
  title := "photo"
  chunks := labelledPng
  contentLength := some 20
  staging := 10
  submissionId := 11
  revisionId := 12
  jobId := 13

/-- If the directory cannot be synced, the picture stays in it. -/
theorem blob_left_behind :
    ¬∀ (U : Nfc) (k : Url.Casing) (request : SubmitRequest) (failing : Option SubmitStep)
      (clock : StatementClock) (s : SubmitState), s.committedKey = none →
        ∀ e s', submit U k request failing clock s = (.error e, s') → Atomic s s' := by
  intro h
  have hblob : ((submit Nfc.ascii Url.Casing.onlyAscii pictureRequest (some .syncRoot) stoppedClock
      openSession).2.files.lookup pictureRequest.key) = some labelledPng.flatten := by
    decide +kernel
  match hrun : submit Nfc.ascii Url.Casing.onlyAscii pictureRequest (some .syncRoot) stoppedClock
      openSession with
  | (.ok _, s') =>
    have hok : (submit Nfc.ascii Url.Casing.onlyAscii pictureRequest (some .syncRoot) stoppedClock
      openSession).1.isOk = false := by decide +kernel
    rw [hrun] at hok
    exact nomatch hok
  | (.error e, s') =>
    rw [hrun] at hblob
    exact nomatch (h _ _ _ _ _ _ rfl e s' hrun).files _ _ hblob

/-- Without a failing step the picture is stored, and an upload that is refused leaves nothing. -/
theorem atomic_pictureRequest :
    openSession.committedKey = none ∧
    ((∀ e s', submit Nfc.ascii Url.Casing.onlyAscii pictureRequest none stoppedClock openSession =
        (.error e, s') → Atomic openSession s') ↔
      ¬∃ accepted, Syncing none ∧
        Admitted Nfc.ascii Url.Casing.onlyAscii pictureRequest openSession accepted ∧
        openSession.files.lookup pictureRequest.key ≠ some accepted.data) :=
  ⟨rfl, atomic_iff Nfc.ascii Url.Casing.onlyAscii pictureRequest none stoppedClock openSession rfl⟩

end Media

end MeetingRag
