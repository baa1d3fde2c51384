import MeetingRag.Extraction.Runs

/-!
# Revisions and their jobs

The state of a revision and the state of its extraction job are in different tables, and five
transactions move them. `ExtractionState.Sound` says that every file stays sound over any run, and
that what workers were told still fits: a lease was granted on the job it names, and a worker that
found no revision to extract has lost its lease.
-/

open Outcome Table Text

namespace MeetingRag

variable {db db' : FileDatabase} {claimed : ClaimedJob ExtractionDocument}

/-! ## What workers were told -/

/-- The lease was granted on the job of a file. -/
def ClaimHolds (claimed : ClaimedJob ExtractionDocument) (db : FileDatabase) : Prop :=
  ∃ r j, IsFile db r j ∧ j.id = claimed.id ∧ j.payload = claimed.payload ∧
    claimed.leaseGeneration ≤ j.leaseGeneration

/-- The lease was granted on the job of a file, and is over. -/
def ClaimOver (claimed : ClaimedJob ExtractionDocument) (db : FileDatabase) : Prop :=
  ∃ r j, IsFile db r j ∧ j.id = claimed.id ∧
    (fileCell db.other.extractionRuns r j).Over claimed.leaseGeneration

section Moves

variable {reclaims retries : Prop} {c c' : FileCell}

theorem FileMoves.generation_le (h : FileMoves reclaims retries c c') :
    c.generation ≤ c'.generation :=
  h.preserve (P := fun a ↦ c.generation ≤ a.generation)
    (fun _ _ hmove hle ↦ hle.trans hmove.generation_le) le_rfl

theorem FileMoves.over (h : FileMoves reclaims retries c c') {g : ℕ} (hover : c.Over g) :
    c'.Over g :=
  h.preserve (fun _ _ hmove ↦ hmove.over) hover

theorem ClaimHolds.moved (h : ClaimHolds claimed db) (hmove : FilesMove reclaims retries db db') :
    ClaimHolds claimed db' := by
  obtain ⟨r, j, hfile, hid, hpayload, hle⟩ := h
  obtain ⟨r', j', hfile', -, hidentity, hmoves⟩ := hmove.kept r j hfile
  exact ⟨r', j', hfile', (Job.id_of_identity hidentity).trans hid,
    (Job.payload_of_identity hidentity).trans hpayload, hle.trans hmoves.generation_le⟩

theorem ClaimOver.moved (h : ClaimOver claimed db) (hmove : FilesMove reclaims retries db db') :
    ClaimOver claimed db' := by
  obtain ⟨r, j, hfile, hid, hover⟩ := h
  obtain ⟨r', j', hfile', -, hidentity, hmoves⟩ := hmove.kept r j hfile
  exact ⟨r', j', hfile', (Job.id_of_identity hidentity).trans hid, hmoves.over hover⟩

theorem LoadHolds.moved {revision : Option LoadedRevision} (h : LoadHolds claimed revision db)
    (hmove : FilesMove reclaims retries db db') : LoadHolds claimed revision db' := by
  obtain ⟨r, j, hfile, hid, hfits⟩ := h
  obtain ⟨r', j', hfile', hrevision, hidentity, hmoves⟩ := hmove.kept r j hfile
  refine ⟨r', j', hfile', (Job.id_of_identity hidentity).trans hid, ?_⟩
  cases revision with
  | none => exact hmoves.over hfits
  | some l => exact hfits.trans hrevision.symm

end Moves

/-- A job whose revision is not there to extract is not being worked on. -/
theorem ClaimHolds.load (hf : Filed db) (h : ClaimHolds claimed db)
    {identity : UUID × MediaType × FileParser} (hidentity : parseIdentity claimed = .ok identity) :
    LoadHolds claimed (loadRevision db identity.1) db := by
  obtain ⟨r, j, hfile, hid, hpayload, hle⟩ := h
  have hrevision : identity.1 = r.id := by
    have hnamed := hfile.payload
    rw [hpayload] at hnamed
    rw [parseIdentity] at hidentity
    split at hidentity
    · next revisionId mediaType parser heq =>
      cases hidentity
      rw [heq] at hnamed
      exact Option.some.inj hnamed
    · exact nomatch hidentity
  refine ⟨r, j, hfile, hid, ?_⟩
  split
  · next hnone =>
    rcases hle.lt_or_eq with hlt | heq
    · exact Or.inl hlt
    · -- a job at work has a queued revision, which the load would have found
      refine Or.inr ⟨heq, fun hrunning ↦ ?_⟩
      have hqueued : r.processingState = .queued :=
        ((hf.sound r j hfile).of_working (show j.state ∈ _ by
          rw [show j.state = .running from hrunning]; decide)).1
      obtain ⟨x, hx⟩ := hf.queuedRevision_of_queued hfile.revision hqueued
      obtain ⟨key, hkey⟩ := Option.isSome_iff_exists.mp (hf.uploaded r hfile.revision).stored
      rw [loadRevision, hrevision, hx] at hnone
      simp [hkey] at hnone
  · next l hsome =>
    rw [loadRevision, hrevision] at hsome
    simp only [Option.bind_eq_bind, Option.bind_eq_some_iff] at hsome
    obtain ⟨⟨r', x⟩, hfound, key, -, hl⟩ := hsome
    simp only [queuedRevision, Option.bind_eq_bind, Option.bind_eq_some_iff] at hfound
    obtain ⟨r'', hr'', y, -, hpair⟩ := hfound
    cases hpair
    cases hl
    have hqueued : QueuedCurrent r.id r' := by simpa using List.find?_some hr''
    exact hqueued.1

/-! ## Runs -/

/-- What a reply says of the database it left. -/
def ReplyHolds (db db' : FileDatabase) : Except Error ExtractionReply → Prop
  | .ok (.claimed (some claimed)) => ∃ r j r' j', IsFile db r j ∧ j.id = claimed.id ∧
      claimed.leaseGeneration = j.leaseGeneration + 1 ∧ IsFile db' r' j' ∧ j'.id = claimed.id ∧
      j'.payload = claimed.payload ∧ j'.leaseGeneration = claimed.leaseGeneration
  | .ok (.loaded claimed revision) => LoadHolds claimed revision db'
  | .ok (.completed claimed target) => ∃ r j, IsFile db' r j ∧ j.id = claimed.id ∧
      j.state = target ∧ j.leaseGeneration = claimed.leaseGeneration ∧
      (target = .failedRetryable → claimed.leaseGeneration < maxExtractionAttempts) ∧
      target ∈ completionStates
  | _ => True

/-- What holds in every state of a run. -/
structure ExtractionState.Sound (s : ExtractionState) : Prop where
  filed : Filed s.db
  issued : ∀ c ∈ s.issued, ClaimHolds c s.db
  loaded : ∀ p ∈ s.loaded, LoadHolds p.1 p.2 s.db
  putOff : ∀ c ∈ s.putOff, ClaimOver c s.db

theorem filed_empty : Filed (emptyStore emptyFileTables) where
  ids := List.nodup_nil
  keys := List.nodup_nil
  revisionIds := List.nodup_nil
  files := List.forall_mem_nil _
  jobs := List.forall_mem_nil _
  named := List.forall_mem_nil _
  uploaded := List.forall_mem_nil _
  runs := List.forall_mem_nil _
  anchored := List.forall_mem_nil _
  sound := fun _ _ hfile ↦ absurd hfile.job List.not_mem_nil

theorem sound_emptyExtraction (now : Timestamp) : (emptyExtraction now).Sound where
  filed := filed_empty
  issued := List.forall_mem_nil _
  loaded := List.forall_mem_nil _
  putOff := List.forall_mem_nil _

/-- **What one transaction does**: it keeps the files sound, moves each of them, and tells the truth.
-/
theorem extractionMachine_step {s : ExtractionState} (hs : s.Sound) {i : ExtractionInput}
    (htold : i.call.Told s) :
    Filed (extractionMachine.step s i).2.db ∧
      FilesMove (SomeLeaseExpired i.clock.seen s.db) i.call.Retries s.db
        (extractionMachine.step s i).2.db ∧
      ReplyHolds s.db (extractionMachine.step s i).2.db (extractionMachine.step s i).1 := by
  have hf := hs.filed
  obtain ⟨clock, call⟩ := i
  have hdb : (extractionMachine.step s ⟨clock, call⟩).2.db =
      (transaction s.db (call.body clock s.db)).2 := ExtractionState.record_db _ _
  have hreply : (extractionMachine.step s ⟨clock, call⟩).1 =
      (transaction s.db (call.body clock s.db)).1 := rfl
  rw [hdb, hreply]
  cases hbody : call.body clock s.db with
  | error e => exact ⟨hf, .of_reworked (.refl s.db), trivial⟩
  | ok result =>
    obtain ⟨reply, db'⟩ := result
    rw [transaction_ok]
    dsimp only at htold ⊢
    cases call with
    | submit upload =>
      obtain ⟨⟨_, db₁⟩, hsubmit, hresult⟩ := bind_eq_ok.mp hbody
      cases hresult
      obtain ⟨x, r, j, hsubmitted⟩ := submitFile_step hf hsubmit
      exact ⟨hf.submitted hsubmitted, .of_submitted hf hsubmitted, trivial⟩
    | reconcile unseen =>
      obtain ⟨db₁, hreconcile, hresult⟩ := bind_eq_ok.mp hbody
      cases hresult
      obtain ⟨F, G, hreworked, -⟩ := reconcile_reworked hf hreconcile
      exact ⟨hf.reworked hreworked, .of_reworked hreworked, trivial⟩
    | claim owner leaseToken attemptId locked =>
      obtain ⟨⟨claimed, db₁⟩, hclaim, hresult⟩ := bind_eq_ok.mp hbody
      cases hresult
      rcases claimExtraction_step hclaim with ⟨rfl, rfl⟩ | ⟨row, c, rfl, hkind, hgranted⟩
      · exact ⟨hf, .of_reworked (.refl _), trivial⟩
      · -- a claim of a running job takes an expired lease over
        have hexpired : row.state = .running → SomeLeaseExpired clock.seen s.db := by
          intro hrunning
          rcases hgranted.available with hpending | ⟨-, huntil⟩
          · exact nomatch hpending.symm.trans hrunning
          · exact ⟨row, hgranted.mem, hrunning, huntil⟩
        have hreworked : Reworked _ False _ _ s.db db' := hgranted.reworked hf hkind hexpired
        obtain ⟨r, hfile⟩ := hgranted.file hf hkind
        have hclaim := hgranted.claim
        have hid : c.id = row.id := by rw [hclaim]
        have hpayload : c.payload = row.payload := by rw [hclaim]
        have hgeneration : c.leaseGeneration = row.leaseGeneration + 1 := by rw [hclaim]
        refine ⟨hf.reworked hreworked, .of_reworked hreworked, r, row, _, _, hfile, hid.symm,
          hgeneration, hreworked.isFile hfile, ?_, ?_, ?_⟩
        · exact (Job.id_of_identity (hreworked.identity row)).trans hid.symm
        · exact (Job.payload_of_identity (hreworked.identity row)).trans hpayload.symm
        · rw [if_pos rfl]
          rfl
    | load claimed =>
      obtain ⟨identity, hidentity, hresult⟩ := bind_eq_ok.mp hbody
      cases hresult
      exact ⟨hf, .of_reworked (.refl _), (hs.issued claimed htold).load hf hidentity⟩
    | complete claimed revision attempt runId resultId =>
      obtain ⟨decision, hdecision, hbody⟩ := bind_eq_ok.mp hbody
      obtain ⟨⟨_, db₁⟩, hcomplete, hresult⟩ := bind_eq_ok.mp hbody
      cases hresult
      obtain ⟨decision', hdecision', htarget, hearly, F, G, r, j, hreworked, hfile, hid, hstate,
        hgeneration⟩ := completeExtraction_done hf (hs.loaded _ htold) hcomplete
          (SomeLeaseExpired clock.seen s.db) False
      cases hdecision.symm.trans hdecision'
      refine ⟨hf.reworked hreworked, .of_reworked hreworked, G r, F j, hreworked.isFile hfile, ?_,
        hstate, hgeneration, hearly, htarget⟩
      exact (Job.id_of_identity (hreworked.identity j)).trans hid
    | requeue claimed =>
      obtain ⟨⟨_, db₁⟩, hrequeue, hresult⟩ := bind_eq_ok.mp hbody
      cases hresult
      obtain ⟨r, j, hfile, hid, -⟩ := hs.putOff claimed htold
      rw [← hid] at hrequeue
      have hreworked : Reworked (SomeLeaseExpired clock.seen s.db) False _ _ s.db db' :=
        requeue_reworked hf hfile hrequeue
      exact ⟨hf.reworked hreworked, .of_reworked hreworked, trivial⟩
    | beginRetry revisionId actorId =>
      obtain ⟨pending, -, hresult⟩ := bind_eq_ok.mp hbody
      cases hresult
      exact ⟨hf, .of_reworked (.refl _), trivial⟩
    | commitRetry pending retryNonce =>
      obtain ⟨⟨_, db₁⟩, hretry, hresult⟩ := bind_eq_ok.mp hbody
      cases hresult
      obtain ⟨F, G, hreworked⟩ := commitRetry_reworked hf trivial hretry
      exact ⟨hf.reworked hreworked, .of_reworked hreworked, trivial⟩
    | elsewhere writes =>
      cases hbody
      exact ⟨writes.filed hf htold, writes.move, trivial⟩

/-- What was told stays true, and the reply of a step is true as well. -/
theorem ExtractionState.Sound.step {s : ExtractionState} (hs : s.Sound) {i : ExtractionInput}
    (htold : i.call.Told s) : (extractionMachine.step s i).2.Sound := by
  obtain ⟨hfiled, hmove, hreply⟩ := extractionMachine_step hs htold
  have hkept : Sound { s with
      db := (extractionMachine.step s i).2.db
      now := i.clock.written } :=
    ⟨hfiled, fun c hc ↦ (hs.issued c hc).moved hmove, fun p hp ↦ (hs.loaded p hp).moved hmove,
      fun c hc ↦ (hs.putOff c hc).moved hmove⟩
  have hdb : (extractionMachine.step s i).2.db =
      (transaction s.db (i.call.body i.clock s.db)).2 := ExtractionState.record_db _ _
  rw [hdb] at hkept hreply
  change (ExtractionState.record _ (transaction s.db (i.call.body i.clock s.db)).1).Sound
  change ReplyHolds _ _ (transaction s.db (i.call.body i.clock s.db)).1 at hreply
  generalize (transaction s.db (i.call.body i.clock s.db)).1 = reply at hreply ⊢
  unfold record
  split
  · next c =>
    obtain ⟨-, -, r, j, -, -, -, hfile, hid, hpayload, hgeneration⟩ := hreply
    refine ⟨hkept.filed, ?_, hkept.loaded, hkept.putOff⟩
    exact List.forall_mem_append.mpr ⟨hkept.issued, List.forall_mem_singleton.mpr
      ⟨r, j, hfile, hid, hpayload, hgeneration.ge⟩⟩
  · refine ⟨hkept.filed, hkept.issued, ?_, hkept.putOff⟩
    exact List.forall_mem_append.mpr ⟨hkept.loaded, List.forall_mem_singleton.mpr hreply⟩
  · obtain ⟨r, j, hfile, hid, hstate, hgeneration, -⟩ := hreply
    refine ⟨hkept.filed, hkept.issued, hkept.loaded, ?_⟩
    refine List.forall_mem_append.mpr ⟨hkept.putOff, List.forall_mem_singleton.mpr ?_⟩
    exact ⟨r, j, hfile, hid, Or.inr ⟨hgeneration.symm, fun heq ↦ nomatch heq.symm.trans hstate⟩⟩
  · exact ⟨hkept.filed, hkept.issued, hkept.loaded, hkept.putOff⟩
  · exact hkept

theorem extraction_sound {now : Timestamp} {is : List ExtractionInput}
    (h : extractionMachine.Legal (emptyExtraction now) is) :
    (extractionMachine.exec (emptyExtraction now) is).Sound :=
  h.invariant (sound_emptyExtraction now) fun _ _ hs henabled ↦ hs.step henabled.2

/-! ## The correspondence -/

/-- The anchors of a run. -/
def anchorsOf (db : FileDatabase) (runId : UUID) : List FileAnchor :=
  db.other.anchors.filter (·.extractionRunId = runId)

/-- A run that has succeeded, that its revision approves and that has anchors. -/
def ApprovedRun (db : FileDatabase) (r : FileRevision) (run : FileExtractionRun) : Prop :=
  run ∈ db.other.extractionRuns ∧ run.sourceRevisionId = r.id ∧ run.status = .succeeded ∧
    r.approvedExtractionRunId = some run.id ∧
    ∃ a ∈ anchorsOf db run.id, a.sourceRevisionId = r.id

/-- The revision of a job that has succeeded approves its one successful run. -/
theorem Filed.approvedRun (hf : Filed db) {r : FileRevision} {runId : UUID} (happroved : r.approvedExtractionRunId = some runId)
    (hone : succeededRuns db.other.extractionRuns r.id = [runId]) :
    ∃! run, ApprovedRun db r run := by
  obtain ⟨run, hruns, hid⟩ := List.map_eq_singleton_iff.mp hone
  have hmem : ∀ x, x ∈ db.other.extractionRuns ∧ x.sourceRevisionId = r.id ∧
      x.status = .succeeded ↔ x = run := by
    intro x
    rw [← List.mem_singleton (a := x) (b := run), ← hruns, List.mem_filter, decide_eq_true_eq]
  obtain ⟨hrun, hsource, hstatus⟩ := (hmem run).mpr rfl
  refine ⟨run, ⟨hrun, hsource, hstatus, hid ▸ happroved, ?_⟩, ?_⟩
  · obtain ⟨a, ha, harun, hasource⟩ := hf.anchored run hrun hstatus
    exact ⟨a, List.mem_filter.mpr ⟨ha, decide_eq_true harun⟩, hasource.trans hsource⟩
  · rintro x ⟨hx, hxsource, hxstatus, -⟩
    exact (hmem x).mp ⟨hx, hxsource, hxstatus⟩

/-- What a sound file says of its two states. -/
theorem Filed.states (hf : Filed db) {r : FileRevision} {j : Job ExtractionDocument}
    (hfile : IsFile db r j) :
    (r.processingState = .queued ↔ j.state ∈ [JobState.pending, .running, .failedRetryable]) ∧
      (r.processingState = .ready ↔ j.state = .succeeded ∧ ∃! run, ApprovedRun db r run) ∧
      (r.processingState = .failed ↔ j.state = .failedTerminal) := by
  cases hf.sound r j hfile with
  | queued job revision none =>
    change j.state ∈ _ at job
    change r.processingState = _ at revision
    have hnot : j.state ≠ .succeeded ∧ j.state ≠ .failedTerminal := by
      constructor <;> intro heq <;> rw [heq] at job <;> exact absurd job (by decide)
    rw [revision]
    exact ⟨iff_of_true rfl job, iff_of_false (fun h ↦ nomatch h) fun h ↦ hnot.1 h.1,
      iff_of_false (fun h ↦ nomatch h) hnot.2⟩
  | ready runId job revision approved one =>
    change j.state = _ at job
    change r.processingState = _ at revision
    rw [revision, job]
    exact ⟨iff_of_false (fun h ↦ nomatch h) (by decide),
      iff_of_true rfl ⟨rfl, hf.approvedRun approved one⟩,
      iff_of_false (fun h ↦ nomatch h) fun h ↦ nomatch h⟩
  | failed job revision none =>
    change j.state = _ at job
    change r.processingState = _ at revision
    rw [revision, job]
    exact ⟨iff_of_false (fun h ↦ nomatch h) (by decide),
      iff_of_false (fun h ↦ nomatch h) fun h ↦ (nomatch h.1), iff_of_true rfl rfl⟩

/-- **Revisions and jobs correspond.** In every state of every run, a revision has one extraction
job, is queued while the job is pending, running or to be put back, is ready when the job has
succeeded, and then approves exactly one successful run, which has anchors, and has failed when the
job has failed for good. -/
theorem revisions_correspond_to_jobs {now : Timestamp} {is : List ExtractionInput}
    (h : extractionMachine.Legal (emptyExtraction now) is) :
    let db := (extractionMachine.exec (emptyExtraction now) is).db
    ∀ r ∈ db.other.revisions,
      ∃ j ∈ db.jobs, (j.kind = .extraction ∧ j.logicalKey = extractionKey r.id ∧
          jobRevision j.payload = some r.id) ∧
        (∀ j' ∈ db.jobs, j'.logicalKey = extractionKey r.id → j' = j) ∧
        (r.processingState = .queued ↔ j.state ∈ [JobState.pending, .running, .failedRetryable]) ∧
        (r.processingState = .ready ↔ j.state = .succeeded ∧ ∃! run, ApprovedRun db r run) ∧
        (r.processingState = .failed ↔ j.state = .failedTerminal) := by
  intro db r hr
  have hf : Filed db := (extraction_sound h).filed
  obtain ⟨j, hfile⟩ := hf.files r hr
  refine ⟨j, hfile.job, ⟨hfile.kind, hfile.key, hfile.payload⟩, fun j' hj' hkey ↦ ?_, hf.states hfile⟩
  exact eq_of_key_eq hf.keys hj' hfile.job (hkey.trans hfile.key.symm)

/-! ## An example -/

def extractionAt (n : ℕ) (call : ExtractionCall) : ExtractionInput := ⟨⟨n, n, le_rfl⟩, call⟩

/-- One member and an open session. -/
def oneOpenSession : BesideFiles where
  roomMemberships := [⟨2, 1, true, false⟩]
  talkSessions := [⟨3, 2, 1, "topic", .open, 0, 1, 0⟩]
  textRevisions := []
  deleted := []
  jobs := []
  auditEvents := []
  others := List.forall_mem_nil _

/-- The member uploads a text. -/
def textUpload : FileUpload where
  sessionId := 3
  actorId := 1
  filename := "notes.txt"
  title := "notes"
  fileType := ⟨⟨".txt", .text, ⟨"builtin-utf8-text", "1.0.0"⟩⟩, by decide⟩
  byteSize := 5
  sha256 := ""
  submissionId := 4
  revisionId := 6
  jobId := 8

/-- A lease of its job. -/
def textLease (leaseGeneration token : ℕ) : ClaimedJob ExtractionDocument where
  id := 8
  logicalKey := extractionKey 6
  kind := .extraction
  payload := .job 6 .text ⟨"builtin-utf8-text", "1.0.0"⟩
  owner := "worker"
  leaseGeneration := leaseGeneration
  leaseToken := ⟨token⟩
  attemptId := ⟨token + 1⟩

/-- What a worker loads for it. -/
def loadedText : LoadedRevision where
  id := 6
  filename := "notes.txt"
  mimeType := .text
  byteSize := 5
  sha256 := ""
  storageKey := blobKey 6
  sessionId := 3
  roomId := 2
  parser := ⟨"builtin-utf8-text", "1.0.0"⟩

def timeout : Attempt := .executed ⟨false, none, some ⟨.parserTimeout, none, none⟩⟩

/-- A parser's answer with one block. -/
def oneBlock : Attempt := .executed ⟨true, some ⟨some ⟨⟨"builtin-utf8-text", "1.0.0"⟩,
  profileByMedia .text, "", [⟨0, "paragraph", "hello", none, profileByMedia .text⟩]⟩⟩, none⟩

/-- The first attempt times out. Before its worker puts the job back, another has reconciled it and
claimed it, and extracts the file. -/
def lostRequeue : List ExtractionInput :=
  [ extractionAt 0 (.elsewhere oneOpenSession),
    extractionAt 1 (.submit textUpload),
    extractionAt 2 (.claim "worker" 51 52 []),
    extractionAt 3 (.load (textLease 1 51)),
    extractionAt 4 (.complete (textLease 1 51) (some loadedText) timeout 61 62),
    extractionAt 5 (.reconcile []),
    extractionAt 6 (.claim "worker" 53 54 []),
    extractionAt 7 (.requeue (textLease 1 51)),
    extractionAt 8 (.load (textLease 2 53)),
    extractionAt 9 (.complete (textLease 2 53) (some loadedText) oneBlock 63 64) ]

theorem revisions_correspond_to_jobs_lostRequeue :
    let db := (extractionMachine.exec (emptyExtraction 0) lostRequeue).db
    (∃ r ∈ db.other.revisions, r.processingState = .ready) ∧ ∀ r ∈ db.other.revisions,
      ∃ j ∈ db.jobs, (j.kind = .extraction ∧ j.logicalKey = extractionKey r.id ∧
          jobRevision j.payload = some r.id) ∧
        (∀ j' ∈ db.jobs, j'.logicalKey = extractionKey r.id → j' = j) ∧
        (r.processingState = .queued ↔ j.state ∈ [JobState.pending, .running, .failedRetryable]) ∧
        (r.processingState = .ready ↔ j.state = .succeeded ∧ ∃! run, ApprovedRun db r run) ∧
        (r.processingState = .failed ↔ j.state = .failedTerminal) :=
  ⟨by decide +kernel, revisions_correspond_to_jobs (by decide +kernel)⟩

end MeetingRag
