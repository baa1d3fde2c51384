import MeetingRag.Extraction.Correspondence

/-!
# What a live lease can commit

The fence of a completion is not all that a completion needs. The attempt of its lease has to be
there, still running, and the run it records must not clash with the run of an earlier attempt.
`Accounted` says that this is always so: a running job has the attempt that holds it, and every run
of a parser was recorded under an issued lease that is over.

Most transactions leave runs, attempts and running jobs alone, and for these there is one lemma.
-/

open Outcome Table Text

namespace MeetingRag

variable {db db' : FileDatabase} {claimed : ClaimedJob ExtractionDocument}
  {issued : List (ClaimedJob ExtractionDocument)}

/-! ## Transactions that leave leases alone -/

/-- Runs and attempts are as they were, and no job is running that was not. -/
structure Rests (db db' : FileDatabase) : Prop where
  runs : db'.other.extractionRuns = db.other.extractionRuns
  attempts : db'.jobAttempts = db.jobAttempts
  running : ∀ j ∈ db'.jobs, j.kind = .extraction → j.state = .running → j ∈ db.jobs

theorem Rests.refl (db : FileDatabase) : Rests db db := ⟨rfl, rfl, fun _ hj _ _ ↦ hj⟩

theorem Rests.trans {db'' : FileDatabase} (h : Rests db db') (h' : Rests db' db'') :
    Rests db db'' where
  runs := h'.runs.trans h.runs
  attempts := h'.attempts.trans h.attempts
  running j hj hkind hrunning := h.running j (h'.running j hj hkind hrunning) hkind hrunning

/-- Rows are rewritten, and none of them is left running. -/
theorem Rests.of_updateWhere {p : Job ExtractionDocument → Prop} [DecidablePred p]
    {f : Job ExtractionDocument → Job ExtractionDocument}
    (hjobs : db'.jobs = updateWhere p f db.jobs) (hf : ∀ j, p j → (f j).state ≠ .running)
    (hruns : db'.other.extractionRuns = db.other.extractionRuns)
    (hattempts : db'.jobAttempts = db.jobAttempts) : Rests db db' where
  runs := hruns
  attempts := hattempts
  running j hj _ hrunning := by
    rw [hjobs] at hj
    rcases mem_updateWhere.mp hj with ⟨x, -, hx, rfl⟩ | ⟨hj, -⟩
    · exact absurd hrunning (hf x hx)
    · exact hj

theorem requeue_rests {jobId : UUID} {generation : ℤ} {u : Unit}
    (h : requeueRetryable jobId generation db = .ok (u, db')) : Rests db db' := by
  simp only [requeueRetryable, bind_eq_ok] at h
  obtain ⟨-, -, -, -, h⟩ := h
  cases h
  exact .of_updateWhere (f := requeuedJob) rfl (by rintro _ _ ⟨⟩) rfl rfl

theorem commitRetry_rests {pending : PendingRetry} {retryNonce : UUID} {u : Unit}
    (h : commitRetry pending retryNonce db = .ok (u, db')) : Rests db db' := by
  obtain ⟨-, h⟩ := require_bind_eq_ok.mp h
  cases h
  exact .of_updateWhere (f := requeuedJob) rfl (fun _ _ heq ↦ nomatch heq) rfl rfl

theorem reconcile_rests {unseen : List UUID}
    (h : reconcileRetryableExtractions unseen db = .ok db') : Rests db db' := by
  have hfirst : Rests db { db with jobs := updateWhere (Interrupted unseen) requeuedJob db.jobs } :=
    .of_updateWhere (f := requeuedJob) rfl (by rintro _ _ ⟨⟩) rfl rfl
  refine hfirst.trans (foldlM_invariant (fun _ t ↦ Rests _ t) h (.refl _) ?_)
  intro done x t t' ih hrepair
  refine ih.trans ?_
  rw [repairExhausted] at hrepair
  split at hrepair
  · cases hrepair
    exact .refl t
  · cases hrepair
    exact .of_updateWhere (f := exhaustedJob) rfl (by rintro _ _ ⟨⟩) rfl rfl

theorem Submitted.rests {x : FileSubmission} {r : FileRevision} {j : Job ExtractionDocument}
    (h : Submitted x r j db db') (hattempts : db'.jobAttempts = db.jobAttempts) : Rests db db' where
  runs := h.runs
  attempts := hattempts
  running j' hj' _ hrunning := by
    rw [h.jobs] at hj'
    rcases List.mem_append.mp hj' with hj' | hj'
    · exact hj'
    · rw [List.mem_singleton.mp hj', h.pending.1] at hrunning
      exact nomatch hrunning

theorem submitFile_attempts {upload : FileUpload} {clock : StatementClock} {u : Unit}
    (h : submitFile upload clock db = .ok (u, db')) : db'.jobAttempts = db.jobAttempts := by
  simp only [submitFile, bind_eq_ok] at h
  obtain ⟨_, _, _, _, _, _, _, _, ⟨job, db₁⟩, henqueue, h⟩ := h
  cases h
  obtain ⟨rows, hinserted, -⟩ := enqueue_step henqueue
  exact hinserted.attempts

theorem BesideFiles.rests (w : BesideFiles) : Rests db (w.apply db) where
  runs := rfl
  attempts := rfl
  running j hj hkind _ := by
    rcases List.mem_append.mp hj with hj | hj
    · exact (List.mem_filter.mp hj).1
    · exact absurd hkind (w.others j hj).1

/-! ## Attempts and runs -/

/-- The attempt of a running job's lease. -/
def Holds (a : JobAttempt) (j : Job ExtractionDocument) : Prop :=
  a.jobId = j.id ∧ a.leaseGeneration = j.leaseGeneration ∧ j.leaseToken = some a.leaseToken ∧
    a.status = .running ∧ a.ended = false

/-- A run that was recorded under an issued lease of its file, which is over. -/
def RecordedBy (issued : List (ClaimedJob ExtractionDocument)) (db : FileDatabase)
    (run : FileExtractionRun) : Prop :=
  ∃ c ∈ issued, run.jobAttemptId = some c.attemptId ∧ run.attemptNo = c.leaseGeneration ∧
    ∃ r j, IsFile db r j ∧ r.id = run.sourceRevisionId ∧ j.id = c.id ∧
      (fileCell db.other.extractionRuns r j).Over c.leaseGeneration

/-- **Attempts and runs are accounted for** by the leases that were issued. -/
structure Accounted (issued : List (ClaimedJob ExtractionDocument)) (db : FileDatabase) : Prop where
  attemptIds : (db.jobAttempts.map (·.id)).Nodup
  generations : (db.jobAttempts.map fun a ↦ (a.jobId, a.leaseGeneration)).Nodup
  held : ∀ j ∈ db.jobs, j.kind = .extraction → j.state = .running → ∃ a ∈ db.jobAttempts, Holds a j
  issuedIds : (issued.map (·.attemptId)).Nodup
  known : ∀ c ∈ issued, c.attemptId ∈ db.jobAttempts.map (·.id)
  runs : ∀ run ∈ db.other.extractionRuns, RecordedBy issued db run

theorem RecordedBy.moved {reclaims retries : Prop} {run : FileExtractionRun}
    (h : RecordedBy issued db run) (hmove : FilesMove reclaims retries db db') :
    RecordedBy issued db' run := by
  obtain ⟨c, hc, hattempt, hgeneration, r, j, hfile, hid, hjob, hover⟩ := h
  obtain ⟨r', j', hfile', hrevision, hidentity, hmoves⟩ := hmove.kept r j hfile
  exact ⟨c, hc, hattempt, hgeneration, r', j', hfile', hrevision.trans hid,
    (Job.id_of_identity hidentity).trans hjob, hmoves.over hover⟩

theorem Accounted.rests {reclaims retries : Prop} (ha : Accounted issued db)
    (h : Rests db db') (hmove : FilesMove reclaims retries db db') : Accounted issued db' where
  attemptIds := h.attempts ▸ ha.attemptIds
  generations := h.attempts ▸ ha.generations
  held j hj hkind hrunning :=
    h.attempts ▸ ha.held j (h.running j hj hkind hrunning) hkind hrunning
  issuedIds := ha.issuedIds
  known := h.attempts ▸ ha.known
  runs := by
    rw [h.runs]
    exact fun run hrun ↦ (ha.runs run hrun).moved hmove

/-! ## Claiming -/

/-- A claim draws a new attempt. -/
theorem claimNext_fresh {J ρ : Type} {owner : String} {leaseSeconds : ℤ}
    {kinds : Option (List String)} {leaseToken attemptId : UUID} {locked : List UUID}
    {clock : StatementClock} {s s' : Store J ρ} {claimed : ClaimedJob J}
    (h : claimNext owner leaseSeconds kinds leaseToken attemptId locked clock s
      = .ok (some claimed, s')) :
    ∀ a ∈ s.jobAttempts, a.id ≠ claimed.attemptId ∧
      (a.jobId, a.leaseGeneration) ≠ (claimed.id, claimed.leaseGeneration) := by
  simp only [claimNext, bind_eq_ok] at h
  obtain ⟨_, _, _, _, _, _, h⟩ := h
  split at h
  · cases h
  · next row _ =>
    obtain ⟨_, hinsert, hs'⟩ := bind_eq_ok.mp h
    obtain ⟨hnew, -⟩ := insertUnique_eq_ok.mp hinsert
    cases hs'
    intro a ha
    -- an attempt that expires keeps its keys
    obtain ⟨b, hb, hid, hkey⟩ : ∃ b ∈ (if row.state = .running then expireAttempt row s.jobAttempts
        else s.jobAttempts), b.id = a.id ∧ (b.jobId, b.leaseGeneration) = (a.jobId, a.leaseGeneration) := by
      split
      · rw [expireAttempt]
        by_cases hexpires : a.jobId = row.id ∧ a.leaseGeneration = row.leaseGeneration ∧
            a.status = .running ∧ a.ended = false
        · exact ⟨_, mem_updateWhere_of_mem ha hexpires, rfl, rfl⟩
        · exact ⟨a, mem_updateWhere_of_not ha hexpires, rfl, rfl⟩
      · exact ⟨a, ha, rfl, rfl⟩
    have hclash := hnew b hb
    rw [attemptsClash, not_or] at hclash
    refine ⟨fun heq ↦ hclash.1 (hid.trans heq), fun heq ↦ hclash.2 ?_⟩
    exact Prod.mk.inj (hkey.trans heq)

theorem Accounted.granted {reclaims retries : Prop} (hf : Filed db) (ha : Accounted issued db)
    {row : Job ExtractionDocument} {now leaseUntil : Timestamp}
    (h : Granted row claimed now leaseUntil db db') (hmove : FilesMove reclaims retries db db')
    (hfresh : ∀ a ∈ db.jobAttempts, a.id ≠ claimed.attemptId ∧
      (a.jobId, a.leaseGeneration) ≠ (claimed.id, claimed.leaseGeneration)) :
    Accounted (issued ++ [claimed]) db' := by
  have hid : claimed.id = row.id := by rw [h.claim]
  -- what expiring an attempt leaves of the attempts
  have hkeys : ∀ {κ : Type} (key : JobAttempt → κ),
      (∀ a, key { a with ended := true, status := .expired, errorCode := some "lease_expired" } = key a) →
      (if row.state = .running then expireAttempt row db.jobAttempts else db.jobAttempts).map key
        = db.jobAttempts.map key := by
    intro κ key hkey
    split
    · exact map_updateWhere_of_forall hkey
    · rfl
  have hids := hkeys (·.id) fun _ ↦ rfl
  have hgenerations := hkeys (fun a ↦ (a.jobId, a.leaseGeneration)) fun _ ↦ rfl
  refine ⟨?_, ?_, ?_, ?_, ?_, ?_⟩
  · rw [h.attempts, List.map_append, hids, ← List.map_append]
    exact nodup_map_append_singleton ha.attemptIds fun a hmem ↦ (hfresh a hmem).1
  · rw [h.attempts, List.map_append, hgenerations, ← List.map_append]
    exact nodup_map_append_singleton ha.generations fun a hmem ↦ (hfresh a hmem).2
  · rw [h.jobs, h.attempts]
    intro j hj hkind hrunning
    rcases mem_updateWhere.mp hj with ⟨x, hx, hxid, rfl⟩ | ⟨hj, hother⟩
    · obtain rfl : x = row := eq_of_key_eq hf.ids hx h.mem hxid
      exact ⟨_, List.mem_append_right _ (List.mem_singleton_self _), hid, rfl, rfl, rfl, rfl⟩
    · obtain ⟨a, hmem, hholds⟩ := ha.held j hj hkind hrunning
      refine ⟨a, List.mem_append_left _ ?_, hholds⟩
      split
      · exact mem_updateWhere_of_not hmem fun hexpires ↦ hother (hholds.1.symm.trans hexpires.1)
      · exact hmem
  · refine nodup_map_append_singleton ha.issuedIds fun c hc heq ↦ ?_
    obtain ⟨a, hmem, haid⟩ := List.mem_map.mp (ha.known c hc)
    exact (hfresh a hmem).1 (haid.trans heq)
  · rw [h.attempts, List.map_append, hids]
    refine List.forall_mem_append.mpr ⟨fun c hc ↦ List.mem_append_left _ (ha.known c hc), ?_⟩
    exact List.forall_mem_singleton.mpr (List.mem_append_right _ (List.mem_singleton_self _))
  · rw [h.other]
    intro run hrun
    obtain ⟨c, hc, hrecorded⟩ := (ha.runs run hrun).moved hmove
    exact ⟨c, List.mem_append_left _ hc, hrecorded⟩

/-! ## Completing -/

/-- The effect of a completion records one run, of its attempt. -/
theorem extractionEffect_run {l : LoadedRevision} {decision : ExtractionDecision} {runId : UUID}
    {t t' : FileTables} (h : extractionEffect claimed (some l) decision runId t = .ok t') :
    ∃ run, t'.extractionRuns = t.extractionRuns ++ [run] ∧ run.sourceRevisionId = l.id ∧
      run.jobAttemptId = some claimed.attemptId ∧ run.attemptNo = claimed.leaseGeneration := by
  have hmoved : ∀ {revisionId f} {t t' : FileTables}, moveRevision revisionId f t = .ok t' →
      t'.extractionRuns = t.extractionRuns := by
    intro revisionId f t t' h
    obtain ⟨-, h⟩ := require_bind_eq_ok.mp h
    cases h
    rfl
  obtain ⟨target, errorCode, result⟩ := decision
  have hfailed : ∀ {terminal : Prop} [Decidable terminal] {code : String},
      persistExtractionFailure claimed l code terminal runId t = .ok t' →
      ∃ run, t'.extractionRuns = t.extractionRuns ++ [run] ∧ run.sourceRevisionId = l.id ∧
        run.jobAttemptId = some claimed.attemptId ∧ run.attemptNo = claimed.leaseGeneration := by
    intro terminal _ code h
    obtain ⟨t₁, hrun, h⟩ := bind_eq_ok.mp h
    have hruns := congrArg FileTables.extractionRuns (insertFileRun_eq_ok hrun)
    split at h
    · obtain ⟨t₂, hmove, h⟩ := bind_eq_ok.mp h
      cases h
      exact ⟨_, (hmoved hmove).trans hruns, rfl, rfl, rfl⟩
    · cases h
      exact ⟨_, hruns, rfl, rfl, rfl⟩
  cases target
  case succeeded =>
    cases result with
    | none => exact hfailed h
    | some result =>
      obtain ⟨t₁, hrun, h⟩ := bind_eq_ok.mp h
      obtain ⟨anchors, -, h⟩ := bind_eq_ok.mp h
      obtain ⟨t₂, hmove, h⟩ := bind_eq_ok.mp h
      cases h
      have hruns := congrArg FileTables.extractionRuns (insertFileRun_eq_ok hrun)
      exact ⟨_, (hmoved hmove).trans hruns, rfl, rfl, rfl⟩
  all_goals exact hfailed h

theorem Accounted.completed {reclaims retries : Prop} (hf : Filed db) (ha : Accounted issued db)
    (hissued : claimed ∈ issued) {revision : Option LoadedRevision}
    (hload : LoadHolds claimed revision db) {attempt : Attempt} {runId resultId : UUID}
    {clock : StatementClock} {u : Unit}
    (h : completeExtraction claimed revision attempt runId resultId clock db = .ok (u, db'))
    (hmove : FilesMove reclaims retries db db') : Accounted issued db' := by
  obtain ⟨decision, hdecision, htarget, -, F, G, r, j, hreworked, hfile, hid, hstate, hgeneration⟩ :=
    completeExtraction_done hf hload h reclaims retries
  obtain ⟨decision', hdecision', h⟩ := bind_eq_ok.mp h
  cases hdecision.symm.trans hdecision'
  obtain ⟨row, hrow, hfenced, s₂, heffect, hother, hcompleted⟩ := completeWithEffects_eq_ok hf.ids h
  obtain ⟨other, hextracted, hs₂⟩ := bind_eq_ok.mp heffect
  cases hs₂
  have hdone := hcompleted [] (Inserted.refl _ other)
  have hstopped : (capAttempts claimed decision).target ≠ .running := by
    intro heq
    rw [heq] at htarget
    exact absurd htarget (by decide)
  have hids : db'.jobAttempts.map (·.id) = db.jobAttempts.map (·.id) := by
    rw [hdone.attempts]
    exact map_updateWhere_of_forall fun _ ↦ rfl
  have hgenerations : db'.jobAttempts.map (fun a ↦ (a.jobId, a.leaseGeneration))
      = db.jobAttempts.map fun a ↦ (a.jobId, a.leaseGeneration) := by
    rw [hdone.attempts]
    exact map_updateWhere_of_forall fun _ ↦ rfl
  refine ⟨hids ▸ ha.attemptIds, hgenerations ▸ ha.generations, ?_, ha.issuedIds,
    fun c hc ↦ hids ▸ ha.known c hc, ?_⟩
  · rw [hdone.jobs, List.append_nil, hdone.attempts]
    intro x hx hkind hrunning
    rcases mem_updateWhere.mp hx with ⟨y, -, -, rfl⟩ | ⟨hx, hne⟩
    · exact absurd hrunning hstopped
    · obtain ⟨a, hmem, hholds⟩ := ha.held x hx hkind hrunning
      refine ⟨a, mem_updateWhere_of_not hmem fun hcurrent ↦ hne ?_, hholds⟩
      exact hholds.1.symm.trans (hcurrent.1.trans hdone.id.symm)
  · -- the run of this completion is of the lease that it gives up
    obtain ⟨r₀, j₀, hfile₀, hid₀, hfits⟩ := hload
    obtain rfl : j₀ = j := eq_of_key_eq hf.ids hfile₀.job hfile.job (hid₀.trans hid.symm)
    obtain rfl : r₀ = r := (hf.file_unique hfile₀ hfile).mpr rfl
    cases revision with
    | none =>
      obtain rfl : j₀ = row := eq_of_key_eq hf.ids hfile.job hrow (hid.trans hfenced.1.symm)
      rcases hfits with hlt | ⟨-, hnot⟩
      · exact absurd hfenced.2.2.1 hlt.ne'
      · exact absurd hfenced.2.1 hnot
    | some l =>
      obtain ⟨run, hruns, hsource, hattempt, hnumber⟩ := extractionEffect_run hextracted
      rw [hother, hruns]
      refine List.forall_mem_append.mpr ⟨fun x hx ↦ (ha.runs x hx).moved hmove, ?_⟩
      refine List.forall_mem_singleton.mpr ⟨claimed, hissued, hattempt, hnumber, G r₀, F j₀,
        hreworked.isFile hfile, ?_, ?_, ?_⟩
      · exact (hreworked.revisionId r₀).trans (hfits.symm.trans hsource.symm)
      · exact (Job.id_of_identity (hreworked.identity j₀)).trans hid
      · exact Or.inr ⟨hgeneration.symm, fun heq ↦ hstopped (hstate.symm.trans heq)⟩

/-! ## Runs -/

/-- What holds of the leases in every state of a run. -/
structure ExtractionState.Leased (s : ExtractionState) : Prop where
  sound : s.Sound
  accounted : Accounted s.issued s.db
  loaded : ∀ p ∈ s.loaded, p.1 ∈ s.issued

theorem leased_emptyExtraction (now : Timestamp) : (emptyExtraction now).Leased where
  sound := sound_emptyExtraction now
  accounted := ⟨List.nodup_nil, List.nodup_nil, List.forall_mem_nil _, List.nodup_nil,
    List.forall_mem_nil _, List.forall_mem_nil _⟩
  loaded := List.forall_mem_nil _

theorem mem_recordedClaims {c : ClaimedJob ExtractionDocument} {reply : Except Error ExtractionReply}
    (h : c ∈ issued) : c ∈ recordedClaims reply issued := by
  unfold recordedClaims
  split
  · exact List.mem_append_left _ h
  · exact h

theorem ExtractionState.mem_loaded_record {s : ExtractionState} {reply : ExtractionReply}
    {p : ClaimedJob ExtractionDocument × Option LoadedRevision}
    (h : p ∈ (s.record (.ok reply)).loaded) : p ∈ s.loaded ∨ reply = .loaded p.1 p.2 := by
  rcases reply with (_ | claimed) | _ | ⟨claimed, target⟩ | _ | _
  · exact Or.inl h
  · exact Or.inl h
  · rcases List.mem_append.mp h with h | h
    · exact Or.inl h
    · rw [List.mem_singleton.mp h]
      exact Or.inr rfl
  · refine Or.inl ?_
    cases target <;> exact h
  · exact Or.inl h
  · exact Or.inl h

/-- **What one transaction does to the leases**: it keeps them accounted for, with the one it
grants. -/
theorem ExtractionState.Leased.body {s : ExtractionState} (hs : s.Leased) {i : ExtractionInput}
    (htold : i.call.Told s) {reply : ExtractionReply} {db' : FileDatabase}
    (h : i.call.body i.clock s.db = .ok (reply, db')) :
    Accounted (recordedClaims (.ok reply) s.issued) db' ∧
      ∀ c revision, reply = .loaded c revision → c ∈ s.issued := by
  have hf := hs.sound.filed
  have hmove := (extractionMachine_step hs.sound htold).2.1
  have hdb : (extractionMachine.step s i).2.db = db' := by
    have hstep : (extractionMachine.step s i).2.db = (transaction s.db (i.call.body i.clock s.db)).2 :=
      ExtractionState.record_db _ _
    rw [hstep, h, transaction_ok]
  rw [hdb] at hmove
  obtain ⟨clock, call⟩ := i
  dsimp only at htold h
  -- a transaction that leaves leases alone grants none
  have hrest : Rests s.db db' → recordedClaims (.ok reply) s.issued = s.issued →
      Accounted (recordedClaims (.ok reply) s.issued) db' := by
    intro hrests hnone
    rw [hnone]
    exact hs.accounted.rests hrests hmove
  cases call with
  | submit upload =>
    obtain ⟨⟨_, db₁⟩, hsubmit, hresult⟩ := bind_eq_ok.mp h
    cases hresult
    obtain ⟨x, r, j, hsubmitted⟩ := submitFile_step hf hsubmit
    exact ⟨hrest (hsubmitted.rests (submitFile_attempts hsubmit)) rfl, fun _ _ heq ↦ nomatch heq⟩
  | reconcile unseen =>
    obtain ⟨db₁, hreconcile, hresult⟩ := bind_eq_ok.mp h
    cases hresult
    exact ⟨hrest (reconcile_rests hreconcile) rfl, fun _ _ heq ↦ nomatch heq⟩
  | claim owner leaseToken attemptId locked =>
    obtain ⟨⟨claimed, db₁⟩, hclaim, hresult⟩ := bind_eq_ok.mp h
    cases hresult
    refine ⟨?_, fun _ _ heq ↦ nomatch heq⟩
    rcases claimExtraction_step hclaim with ⟨rfl, rfl⟩ | ⟨row, c, rfl, -, hgranted⟩
    · exact hrest (.refl _) rfl
    · exact hs.accounted.granted hf hgranted hmove (claimNext_fresh hclaim)
  | load claimed =>
    obtain ⟨identity, -, hresult⟩ := bind_eq_ok.mp h
    cases hresult
    refine ⟨hrest (.refl _) rfl, fun c revision heq ↦ ?_⟩
    cases heq
    exact htold
  | complete claimed revision attempt runId resultId =>
    obtain ⟨decision, -, h⟩ := bind_eq_ok.mp h
    obtain ⟨⟨_, db₁⟩, hcomplete, hresult⟩ := bind_eq_ok.mp h
    cases hresult
    refine ⟨?_, fun _ _ heq ↦ nomatch heq⟩
    exact hs.accounted.completed hf (hs.loaded _ htold) (hs.sound.loaded _ htold) hcomplete hmove
  | requeue claimed =>
    obtain ⟨⟨_, db₁⟩, hrequeue, hresult⟩ := bind_eq_ok.mp h
    cases hresult
    exact ⟨hrest (requeue_rests hrequeue) rfl, fun _ _ heq ↦ nomatch heq⟩
  | beginRetry revisionId actorId =>
    obtain ⟨pending, -, hresult⟩ := bind_eq_ok.mp h
    cases hresult
    exact ⟨hrest (.refl _) rfl, fun _ _ heq ↦ nomatch heq⟩
  | commitRetry pending retryNonce =>
    obtain ⟨⟨_, db₁⟩, hretry, hresult⟩ := bind_eq_ok.mp h
    cases hresult
    exact ⟨hrest (commitRetry_rests hretry) rfl, fun _ _ heq ↦ nomatch heq⟩
  | elsewhere writes =>
    cases h
    exact ⟨hrest writes.rests rfl, fun _ _ heq ↦ nomatch heq⟩

theorem ExtractionState.Leased.step {s : ExtractionState} (hs : s.Leased) {i : ExtractionInput}
    (htold : i.call.Told s) : (extractionMachine.step s i).2.Leased := by
  have hsound := hs.sound.step htold
  have hbody : ∀ reply db', i.call.body i.clock s.db = .ok (reply, db') → _ :=
    fun _ _ ↦ hs.body htold
  change (ExtractionState.record _ (transaction s.db (i.call.body i.clock s.db)).1).Sound at hsound
  change (ExtractionState.record _ (transaction s.db (i.call.body i.clock s.db)).1).Leased
  revert hsound
  cases hresult : i.call.body i.clock s.db with
  | error e => exact fun hsound ↦ ⟨hsound, hs.accounted, hs.loaded⟩
  | ok result =>
    obtain ⟨reply, db'⟩ := result
    obtain ⟨haccounted, hloaded⟩ := hbody reply db' hresult
    rw [transaction_ok]
    intro hsound
    refine ⟨hsound, ?_, fun p hp ↦ ?_⟩
    · rw [record_db, record_issued]
      exact haccounted
    · rw [record_issued]
      refine mem_recordedClaims ?_
      rcases mem_loaded_record hp with hp | hp
      · exact hs.loaded p hp
      · exact hloaded _ _ hp

theorem extraction_leased {now : Timestamp} {is : List ExtractionInput}
    (h : extractionMachine.Legal (emptyExtraction now) is) :
    (extractionMachine.exec (emptyExtraction now) is).Leased :=
  h.invariant (leased_emptyExtraction now) fun _ _ hs henabled ↦ hs.step henabled.2

/-! ## A failure under a live lease -/

/-- The run of a failed attempt. -/
def failureRun (claimed : ClaimedJob ExtractionDocument) (l : LoadedRevision) (errorCode : String)
    (runId : UUID) : FileExtractionRun :=
  ⟨runId, l.id, l.parser, profileByMedia l.mimeType, claimed.leaseGeneration, .failed,
    some errorCode, some claimed.attemptId⟩

theorem persistExtractionFailure_of_fresh {l : LoadedRevision} {errorCode : String} {runId : UUID}
    {terminal : Prop} [Decidable terminal] {t : FileTables} (hterminal : terminal)
    (hfresh : ∀ run ∈ t.extractionRuns, ¬fileRunsClash run (failureRun claimed l errorCode runId))
    (hqueued : rowcount (QueuedCurrent l.id) t.revisions = 1) :
    ∃ t', persistExtractionFailure claimed l errorCode terminal runId t = .ok t' ∧
      t'.revisions = updateWhere (QueuedCurrent l.id) failedRevision t.revisions ∧
      t'.extractionRuns = t.extractionRuns ++ [failureRun claimed l errorCode runId] := by
  rw [persistExtractionFailure, insertFileRun, insertUnique_of_fresh (by exact hfresh), ok_bind,
    ok_bind, if_pos hterminal, moveRevision, require_of (by exact hqueued), ok_bind, ok_bind]
  exact ⟨_, rfl, rfl, rfl⟩

/-- A live lease of a file whose revision was loaded: the revision waits for it, and no run of the
file is of this attempt. -/
theorem ExtractionState.Leased.current {s : ExtractionState} (hs : s.Leased)
    {revision : Option LoadedRevision} (hloaded : (claimed, revision) ∈ s.loaded)
    {j : Job ExtractionDocument} (hj : j ∈ s.db.jobs) {now : Timestamp}
    (hfenced : Fenced claimed now j) :
    ∃ l r, revision = some l ∧ IsFile s.db r j ∧ l.id = r.id ∧
      rowcount (QueuedCurrent l.id) s.db.other.revisions = 1 ∧
      rowcount (CurrentAttempt claimed) s.db.jobAttempts = 1 ∧
      ∀ run ∈ s.db.other.extractionRuns, run.jobAttemptId ≠ some claimed.attemptId ∧
        ¬(run.sourceRevisionId = l.id ∧ run.attemptNo = claimed.leaseGeneration) := by
  have hf := hs.sound.filed
  have ha := hs.accounted
  obtain ⟨hid, hrunning, hgeneration, htoken, -⟩ := hfenced
  obtain ⟨r, j', hfile, hjid, hfits⟩ := hs.sound.loaded _ hloaded
  obtain rfl : j' = j := eq_of_key_eq hf.ids hfile.job hj (hjid.trans hid.symm)
  -- a lease that is over is not live
  have hlive : ∀ x y, IsFile s.db x y → y.id = claimed.id →
      ¬(fileCell s.db.other.extractionRuns x y).Over claimed.leaseGeneration := by
    intro x y hxy hyid hover
    obtain rfl : y = j' := eq_of_key_eq hf.ids hxy.job hj (hyid.trans hid.symm)
    rcases hover with hlt | ⟨-, hstopped⟩
    · exact absurd hgeneration hlt.ne'
    · exact absurd hrunning hstopped
  cases revision with
  | none => exact absurd hfits (hlive r j' hfile hjid)
  | some l =>
    have hfits : l.id = r.id := hfits
    refine ⟨l, r, rfl, hfile, hfits, ?_, ?_, fun run hrun ↦ ?_⟩
    · have hqueued : r.processingState = .queued :=
        ((hf.sound r j' hfile).of_working (show j'.state ∈ _ by rw [hrunning]; decide)).1
      rw [rowcount_eq_one hf.revisionIds fun _ _ hp ↦ hp.1]
      exact ⟨r, hfile.revision, hfits.symm, (hf.uploaded r hfile.revision).current, hqueued⟩
    · obtain ⟨a, hmem, hajob, hageneration, hatoken, hastatus, haended⟩ :=
        ha.held j' hj hfile.kind hrunning
      rw [rowcount_eq_one (k := (claimed.id, claimed.leaseGeneration)) ha.generations
        fun _ _ hp ↦ Prod.ext hp.1 hp.2.1]
      exact ⟨a, hmem, hajob.trans hid, hageneration.trans hgeneration,
        Option.some.inj (hatoken.symm.trans htoken), hastatus, haended⟩
    · obtain ⟨c, hc, hattempt, hnumber, x, y, hxy, hxid, hyid, hover⟩ := ha.runs run hrun
      constructor
      · -- a run of this attempt would be of this lease
        intro heq
        have hsame : c = claimed := eq_of_key_eq ha.issuedIds hc (hs.loaded _ hloaded)
          (Option.some.inj (hattempt.symm.trans heq))
        exact hlive x y hxy (hyid.trans (congrArg ClaimedJob.id hsame)) (hsame ▸ hover)
      · rintro ⟨hsource, hno⟩
        obtain rfl : x = r := eq_of_key_eq hf.revisionIds hxy.revision hfile.revision
          (hxid.trans (hsource.trans hfits))
        obtain rfl : y = j' := (hf.file_unique hxy hfile).mp rfl
        exact hlive x y hxy hjid ((hnumber.symm.trans hno) ▸ hover)

end MeetingRag
