import MeetingRag.Extraction.Operations
import MeetingRag.Library.Machine

/-!
# Runs of file extraction

The uploads, the retries and any number of extraction workers as a machine over one database. A poll
of a worker is a number of transactions, between which others may commit: it reconciles, claims,
loads the revision of its claim, completes the claim, and puts a retryable failure back. A worker
that dies stops at any of these points, which a run does by leaving its next transaction out.

The state remembers what workers and members have been told: the leases granted, the revisions
loaded for them, the failures that are to be put back and the retries that were let in. A transaction
presents what its author was told, however late.
-/

open Outcome Table Text

namespace MeetingRag

/-! ## The rest of the application -/

/-- A job that is not about a file. -/
def OtherJob (j : Job ExtractionDocument) : Prop :=
  j.kind ≠ .extraction ∧ ¬"extraction:".toList <+: j.logicalKey.toList

instance : DecidablePred OtherJob := fun j ↦
  inferInstanceAs (Decidable (j.kind ≠ .extraction ∧ ¬"extraction:".toList <+: j.logicalKey.toList))

/-- What the rest of the application leaves behind: memberships, sessions, text revisions, deleted
submissions, jobs of other kinds, and events. -/
structure BesideFiles where
  roomMemberships : List RoomMembership
  talkSessions : List TalkSession
  textRevisions : List UUID
  deleted : List UUID
  jobs : List (Job ExtractionDocument)
  auditEvents : List AuditEvent
  others : ∀ j ∈ jobs, OtherJob j

def deletedSubmission (x : FileSubmission) : FileSubmission := { x with deleted := true }

def BesideFiles.apply (w : BesideFiles) (db : FileDatabase) : FileDatabase :=
  { db with
    jobs := db.jobs.filter (·.kind = .extraction) ++ w.jobs
    other := { db.other with
      roomMemberships := w.roomMemberships
      talkSessions := w.talkSessions
      textRevisions := w.textRevisions
      submissions := updateWhere (·.id ∈ w.deleted) deletedSubmission db.other.submissions
      auditEvents := w.auditEvents.foldl (fun t e ↦ appendEvent e t) db.other.auditEvents } }

/-- The jobs keep their unique constraints. -/
def BesideFiles.Admissible (w : BesideFiles) (db : FileDatabase) : Prop :=
  ((w.apply db).jobs.map (·.id)).Nodup ∧ ((w.apply db).jobs.map (·.logicalKey)).Nodup

instance (w : BesideFiles) (db : FileDatabase) : Decidable (w.Admissible db) :=
  inferInstanceAs (Decidable
    (((w.apply db).jobs.map (·.id)).Nodup ∧ ((w.apply db).jobs.map (·.logicalKey)).Nodup))

/-! ## Calls -/

/-- A transaction on the files. -/
inductive ExtractionCall
  | submit (upload : FileUpload)
  | reconcile (unseen : List UUID)
  | claim (owner : String) (leaseToken attemptId : UUID) (locked : List UUID)
  | load (claimed : ClaimedJob ExtractionDocument)
  | complete (claimed : ClaimedJob ExtractionDocument) (revision : Option LoadedRevision)
      (attempt : Attempt) (runId resultId : UUID)
  | requeue (claimed : ClaimedJob ExtractionDocument)
  | beginRetry (revisionId actorId : UUID)
  | commitRetry (pending : PendingRetry) (retryNonce : UUID)
  | elsewhere (writes : BesideFiles)

/-- What a transaction returns. -/
inductive ExtractionReply
  | claimed (claimed : Option (ClaimedJob ExtractionDocument))
  | loaded (claimed : ClaimedJob ExtractionDocument) (revision : Option LoadedRevision)
  | completed (claimed : ClaimedJob ExtractionDocument) (target : JobState)
  | pending (pending : PendingRetry)
  | done
deriving DecidableEq

/-- A call together with the database instants it happens at. -/
structure ExtractionInput where
  clock : StatementClock
  call : ExtractionCall

/-- The database, the latest instant of its clock, and what workers and members were told. -/
structure ExtractionState where
  db : FileDatabase
  now : Timestamp
  issued : List (ClaimedJob ExtractionDocument)
  loaded : List (ClaimedJob ExtractionDocument × Option LoadedRevision)
  putOff : List (ClaimedJob ExtractionDocument)
  retries : List PendingRetry

namespace ExtractionCall

/-- A member's retry of a failed extraction. -/
def Retries : ExtractionCall → Prop
  | commitRetry .. => True
  | _ => False

instance : DecidablePred Retries := fun call ↦ by
  unfold Retries
  split <;> infer_instance

/-- The transaction body of a call. -/
def body (clock : StatementClock) (db : FileDatabase) :
    ExtractionCall → Except Error (ExtractionReply × FileDatabase)
  | submit upload => do
    let ((), db) ← submitFile upload clock db
    .ok (.done, db)
  | reconcile unseen => do
    let db ← reconcileRetryableExtractions unseen db
    .ok (.done, db)
  | claim owner leaseToken attemptId locked => do
    let (claimed, db) ← claimExtraction owner leaseToken attemptId locked clock db
    .ok (.claimed claimed, db)
  | load claimed => do
    let identity ← parseIdentity claimed
    .ok (.loaded claimed (loadRevision db identity.1), db)
  | complete claimed revision attempt runId resultId => do
    let decision ← decideAttempt claimed revision attempt
    let ((), db) ← completeExtraction claimed revision attempt runId resultId clock db
    .ok (.completed claimed (capAttempts claimed decision).target, db)
  | requeue claimed => do
    let ((), db) ← requeueRetryable claimed.id claimed.leaseGeneration db
    .ok (.done, db)
  | beginRetry revisionId actorId => do
    let pending ← MeetingRag.beginRetry revisionId actorId db
    .ok (.pending pending, db)
  | commitRetry pending retryNonce => do
    let ((), db) ← MeetingRag.commitRetry pending retryNonce db
    .ok (.done, db)
  | elsewhere writes => .ok (.done, writes.apply db)

/-- What the author of a call has to have been told. -/
def Told (s : ExtractionState) : ExtractionCall → Prop
  | load claimed => claimed ∈ s.issued
  | complete claimed revision .. => (claimed, revision) ∈ s.loaded
  | requeue claimed => claimed ∈ s.putOff
  | commitRetry pending _ => pending ∈ s.retries
  | elsewhere writes => writes.Admissible s.db
  | _ => True

instance (s : ExtractionState) : DecidablePred (Told s) := fun call ↦ by
  unfold Told
  split <;> infer_instance

end ExtractionCall

/-- What is remembered of a reply. -/
def ExtractionState.record (s : ExtractionState) (reply : Except Error ExtractionReply) :
    ExtractionState :=
  match reply with
  | .ok (.claimed (some claimed)) => { s with issued := s.issued ++ [claimed] }
  | .ok (.loaded claimed revision) => { s with loaded := s.loaded ++ [(claimed, revision)] }
  | .ok (.completed claimed .failedRetryable) => { s with putOff := s.putOff ++ [claimed] }
  | .ok (.pending pending) => { s with retries := s.retries ++ [pending] }
  | _ => s

/-- What is remembered of the claims that were granted. -/
def recordedClaims (reply : Except Error ExtractionReply)
    (issued : List (ClaimedJob ExtractionDocument)) : List (ClaimedJob ExtractionDocument) :=
  match reply with
  | .ok (.claimed (some claimed)) => issued ++ [claimed]
  | _ => issued

/-- File extraction under its callers. -/
def extractionMachine : Machine ExtractionState ExtractionInput (Except Error ExtractionReply) where
  enabled s i := s.now ≤ i.clock.seen ∧ i.call.Told s
  step s i :=
    let r := transaction s.db (i.call.body i.clock s.db)
    (r.1, { s with db := r.2, now := i.clock.written }.record r.1)

instance (s : ExtractionState) (i : ExtractionInput) : Decidable (extractionMachine.enabled s i) :=
  inferInstanceAs (Decidable (s.now ≤ i.clock.seen ∧ i.call.Told s))

/-- File extraction before its first call. -/
def emptyExtraction (now : Timestamp) : ExtractionState :=
  ⟨emptyStore emptyFileTables, now, [], [], [], []⟩

/-- A lease has run out while its job was running. -/
def SomeLeaseExpired {J ρ : Type} (now : Timestamp) (s : Store J ρ) : Prop :=
  ∃ j ∈ s.jobs, j.state = .running ∧ ∃ leaseUntil ∈ j.leaseUntil, leaseUntil ≤ now

instance {J ρ : Type} (now : Timestamp) (s : Store J ρ) : Decidable (SomeLeaseExpired now s) :=
  inferInstanceAs (Decidable
    (∃ j ∈ s.jobs, j.state = .running ∧ ∃ leaseUntil ∈ j.leaseUntil, leaseUntil ≤ now))

@[simp] theorem ExtractionState.record_db (s : ExtractionState)
    (reply : Except Error ExtractionReply) : (s.record reply).db = s.db := by
  unfold record
  split <;> rfl

theorem ExtractionState.record_issued (s : ExtractionState) (reply : Except Error ExtractionReply) :
    (s.record reply).issued = recordedClaims reply s.issued := by
  cases reply with
  | error e => rfl
  | ok reply =>
    cases reply with
    | claimed claimed => cases claimed <;> rfl
    | completed claimed target => cases target <;> rfl
    | loaded claimed revision => rfl
    | pending pending => rfl
    | done => rfl

/-! ## Moves of a step -/

/-- Every file is kept and moved, and a file is an old one or a new one. -/
structure FilesMove (reclaims retries : Prop) (db db' : FileDatabase) : Prop where
  kept : ∀ r j, IsFile db r j → ∃ r' j', IsFile db' r' j' ∧ r'.id = r.id ∧
    j'.identity = j.identity ∧ FileMoves reclaims retries
      (fileCell db.other.extractionRuns r j) (fileCell db'.other.extractionRuns r' j')
  origin : ∀ r' j', IsFile db' r' j' →
    (∃ r j, IsFile db r j ∧ r'.id = r.id ∧ j'.identity = j.identity ∧ FileMoves reclaims retries
      (fileCell db.other.extractionRuns r j) (fileCell db'.other.extractionRuns r' j')) ∨
    (fileCell db'.other.extractionRuns r' j' = newCell ∧ ∀ j ∈ db.jobs, j.id ≠ j'.id)

variable {reclaims retries : Prop} {db db' : FileDatabase}

theorem FilesMove.of_reworked {F : Job ExtractionDocument → Job ExtractionDocument}
    {G : FileRevision → FileRevision} (h : Reworked reclaims retries F G db db') :
    FilesMove reclaims retries db db' where
  kept r j hfile := ⟨G r, F j, h.isFile hfile, h.revisionId r, h.identity j, h.moves r j hfile⟩
  origin r' j' hfile := by
    obtain ⟨r, j, hold, rfl, rfl⟩ := h.origin hfile
    exact Or.inl ⟨r, j, hold, h.revisionId r, h.identity j, h.moves r j hold⟩

theorem FilesMove.of_submitted (hf : Filed db) {x : FileSubmission} {r : FileRevision}
    {j : Job ExtractionDocument} (h : Submitted x r j db db') :
    FilesMove reclaims retries db db' where
  kept r₀ j₀ hfile := ⟨r₀, j₀, h.kept hfile, rfl, rfl, h.runs ▸ .refl⟩
  origin r' j' hfile := by
    rcases h.origin hf hfile with ⟨rfl, rfl⟩ | hold
    · exact Or.inr ⟨h.cell hf, fun a ha hid ↦ h.newJob a ha (Or.inl hid)⟩
    · exact Or.inl ⟨r', j', hold, rfl, rfl, h.runs ▸ .refl⟩

/-! ## The rest of the application, again -/

theorem BesideFiles.isFile_iff (w : BesideFiles) {r : FileRevision} {j : Job ExtractionDocument} :
    IsFile (w.apply db) r j ↔ IsFile db r j := by
  have hjobs : j ∈ (w.apply db).jobs ∧ j.kind = .extraction ↔ j ∈ db.jobs ∧ j.kind = .extraction := by
    refine and_congr_left fun hkind ↦ ?_
    rw [BesideFiles.apply, List.mem_append, List.mem_filter, decide_eq_true_eq]
    exact ⟨fun h ↦ h.elim And.left fun hother ↦ absurd hkind (w.others j hother).1,
      fun h ↦ Or.inl ⟨h, hkind⟩⟩
  constructor
  · intro h
    have hjob := hjobs.mp ⟨h.job, h.kind⟩
    exact ⟨h.revision, hjob.1, h.kind, h.key, h.payload⟩
  · intro h
    have hjob := hjobs.mpr ⟨h.job, h.kind⟩
    exact ⟨h.revision, hjob.1, h.kind, h.key, h.payload⟩

theorem BesideFiles.move (w : BesideFiles) : FilesMove reclaims retries db (w.apply db) where
  kept r j hfile := ⟨r, j, w.isFile_iff.mpr hfile, rfl, rfl, .refl⟩
  origin r j hfile := Or.inl ⟨r, j, w.isFile_iff.mp hfile, rfl, rfl, .refl⟩

theorem BesideFiles.filed (w : BesideFiles) (hf : Filed db) (hw : w.Admissible db) :
    Filed (w.apply db) where
  ids := hw.1
  keys := hw.2
  revisionIds := hf.revisionIds
  files r hr := by
    obtain ⟨j, hfile⟩ := hf.files r hr
    exact ⟨j, w.isFile_iff.mpr hfile⟩
  jobs j hj hkind := by
    rcases List.mem_append.mp hj with hj | hj
    · obtain ⟨hunheld, r, hfile⟩ := hf.jobs j (List.mem_filter.mp hj).1 hkind
      exact ⟨hunheld, r, w.isFile_iff.mpr hfile⟩
    · exact absurd hkind (w.others j hj).1
  named j hj revisionId hkey := by
    rcases List.mem_append.mp hj with hj | hj
    · exact hf.named j (List.mem_filter.mp hj).1 revisionId hkey
    · refine absurd ?_ (w.others j hj).2
      rw [hkey, extractionKey, String.toList_append]
      exact List.prefix_append _ _
  uploaded r hr := by
    obtain ⟨hcurrent, hstored, x, hx, hid⟩ := hf.uploaded r hr
    obtain ⟨y, hy, hyid⟩ : ∃ y ∈ (w.apply db).other.submissions, y.id = x.id :=
      exists_mem_updateWhere hx fun _ ↦ rfl
    exact ⟨hcurrent, hstored, y, hy, hyid.trans hid⟩
  runs := hf.runs
  anchored := hf.anchored
  sound r j hfile := hf.sound r j (w.isFile_iff.mp hfile)

end MeetingRag
