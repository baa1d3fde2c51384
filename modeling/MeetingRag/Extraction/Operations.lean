import MeetingRag.Extraction.Steps

/-!
# The transactions on the files, one by one

Each transaction of the upload service and of the extraction workers, taken apart once: what it found
and which moves it made. No later proof unfolds one of them.
-/

open Outcome Table Text

namespace MeetingRag

variable {db db' : FileDatabase} {clock : StatementClock}
  {claimed : ClaimedJob ExtractionDocument}

/-! ## Claiming -/

/-- A claim took a job of a kind it asked for. -/
theorem claimNext_kind {J ρ : Type} {owner : String} {leaseSeconds : ℤ}
    {kinds : Option (List String)} {leaseToken attemptId : UUID} {locked : List UUID}
    {s s' : Store J ρ} {claimed : ClaimedJob J}
    (h : claimNext owner leaseSeconds kinds leaseToken attemptId locked clock s
      = .ok (some claimed, s')) :
    ∃ claimKinds, normalizeClaimKinds kinds = .ok claimKinds ∧
      ∀ allowed ∈ claimKinds, claimed.kind ∈ allowed := by
  simp only [claimNext, bind_eq_ok] at h
  obtain ⟨-, -, -, -, claimKinds, hkinds, h⟩ := h
  refine ⟨claimKinds, hkinds, ?_⟩
  split at h
  · cases h
  · next row hrow =>
    obtain ⟨_, -, hs'⟩ := bind_eq_ok.mp h
    cases hs'
    have hselected := (selectFirst_mem hrow).2
    exact (of_decide_eq_true hselected).2.1

theorem claimExtraction_step {owner : String} {leaseToken attemptId : UUID} {locked : List UUID}
    {result : Option (ClaimedJob ExtractionDocument)}
    (h : claimExtraction owner leaseToken attemptId locked clock db = .ok (result, db')) :
    (result = none ∧ db' = db) ∨ ∃ row claimed, result = some claimed ∧ claimed.kind = .extraction ∧
      Granted row claimed clock.seen (clock.written + seconds 60) db db' := by
  rcases claimNext_step h with hnone | ⟨row, claimed, rfl, hgranted⟩
  · exact Or.inl hnone
  · refine Or.inr ⟨row, claimed, rfl, ?_, hgranted⟩
    obtain ⟨claimKinds, hkinds, hkind⟩ := claimNext_kind h
    have hextraction : normalizeClaimKinds (some [JobKind.extraction.value])
        = .ok (some [.extraction]) := by decide
    cases hextraction.symm.trans hkinds
    exact List.mem_singleton.mp (hkind _ rfl)

/-- The claim of a file's job. -/
theorem Granted.file (hf : Filed db) {row : Job ExtractionDocument} {now leaseUntil : Timestamp}
    (h : Granted row claimed now leaseUntil db db') (hkind : claimed.kind = .extraction) :
    ∃ r, IsFile db r row := by
  have hrow : row.kind = .extraction := by
    rw [← hkind, h.claim]
  exact (hf.jobs row h.mem hrow).2

/-- A grant rewrites one job, which was pending unless an expired lease was taken over. -/
theorem Granted.reworked (hf : Filed db) {row : Job ExtractionDocument}
    {now leaseUntil : Timestamp}
    (h : Granted row claimed now leaseUntil db db') (hkind : claimed.kind = .extraction) {reclaims retries : Prop}
    (hreclaims : row.state = .running → reclaims) :
    Reworked reclaims retries
      (fun x ↦ if x.id = row.id then leasedJob claimed.leaseGeneration claimed.leaseToken
        claimed.owner leaseUntil x else x)
      (fun x ↦ x) db db' := by
  obtain ⟨r, hfile⟩ := h.file hf hkind
  have hother := h.other
  have hgeneration : claimed.leaseGeneration = row.leaseGeneration + 1 := by rw [h.claim]
  have hmove : FileMove reclaims retries (fileCell db.other.extractionRuns r row)
      (fileCell db'.other.extractionRuns r
        (leasedJob claimed.leaseGeneration claimed.leaseToken claimed.owner leaseUntil row)) := by
    rw [hgeneration, hother]
    rcases h.available with hpending | ⟨hrunning, -⟩
    · exact .claimed hpending
    · exact .reclaimed (hreclaims hrunning) hrunning
  have hstep := Reworked.of_file (g := fun x ↦ x) hf hfile h.jobs
    (by rw [hother]; exact updateWhere_id.symm) (by rw [hother, List.append_nil]) (by rw [hother])
    (fun _ ha ↦ hother ▸ ha) (fun _ ↦ rfl) (fun _ hne ↦ absurd rfl hne)
    (fun _ ↦ ⟨rfl, rfl, rfl, rfl⟩) (List.forall_mem_nil _) (.single hmove)
  simpa only [ite_self] using hstep

/-! ## Completing -/

/-- What an attempt is decided to be: a success with blocks, or a failure. -/
theorem decideAttempt_eq_ok {revision : Option LoadedRevision} {attempt : Attempt}
    {decision : ExtractionDecision} (h : decideAttempt claimed revision attempt = .ok decision) :
    (decision.target = .succeeded ∧ ∃ result, decision.result = some result ∧ result.blocks ≠ []) ∨
      decision.target = .failedRetryable ∨ decision.target = .failedTerminal := by
  have hfailed : ∀ failure, (failedDecision failure).target = .failedRetryable ∨
      (failedDecision failure).target = .failedTerminal := by
    rintro (_ | failure)
    · exact Or.inr rfl
    · rw [failedDecision]
      split
      · exact Or.inl rfl
      · exact Or.inr rfl
  obtain ⟨identity, -, h⟩ := bind_eq_ok.mp h
  cases revision with
  | none =>
    cases h
    exact Or.inr (Or.inr rfl)
  | some revision =>
    dsimp only at h
    split at h
    · cases h
      exact Or.inr (Or.inr rfl)
    · cases attempt with
      | unavailable =>
        cases h
        exact Or.inr (Or.inr rfl)
      | raised e => exact nomatch h
      | executed execution =>
        rw [attemptDecision, executedDecision] at h
        split at h
        · next payload _ _ =>
          obtain ⟨result, hresult, hdecision⟩ := bind_eq_ok.mp h
          cases hdecision
          rw [validatedResult] at hresult
          split at hresult
          · exact nomatch hresult
          · simp only [bind_eq_ok, require_eq_ok] at hresult
            obtain ⟨-, -, -, hblocks, hresult⟩ := hresult
            cases hresult
            exact Or.inl ⟨rfl, _, rfl, hblocks⟩
        · cases h
          exact Or.inr (hfailed _)

/-- What is committed for an attempt: a success with blocks, a failure before the last attempt that
may be put back, or a final failure. -/
theorem capAttempts_cases {revision : Option LoadedRevision} {attempt : Attempt}
    {decision : ExtractionDecision} (h : decideAttempt claimed revision attempt = .ok decision) :
    ((capAttempts claimed decision).target = .succeeded ∧
        ∃ result, (capAttempts claimed decision).result = some result ∧ result.blocks ≠ []) ∨
      ((capAttempts claimed decision).target = .failedRetryable ∧
        claimed.leaseGeneration < maxExtractionAttempts) ∨
      (capAttempts claimed decision).target = .failedTerminal := by
  rw [capAttempts]
  split
  · exact Or.inr (Or.inr rfl)
  · next hcap =>
    rcases decideAttempt_eq_ok h with hsucceeded | hretryable | hterminal
    · exact Or.inl hsucceeded
    · exact Or.inr (Or.inl ⟨hretryable, not_le.mp fun hle ↦ hcap ⟨hretryable, hle⟩⟩)
    · exact Or.inr (Or.inr hterminal)

/-- The blocks of a result become anchors of its run. -/
theorem foldlM_insertAnchor {anchors anchors' rows : List FileAnchor}
    (h : rows.foldlM insertAnchor anchors = .ok anchors') : anchors' = anchors ++ rows := by
  refine foldlM_invariant (fun done t ↦ t = anchors ++ done) h (List.append_nil _).symm ?_
  rintro done x t t' rfl ht
  simp only [insertAnchor, bind_eq_ok] at ht
  obtain ⟨-, -, ht⟩ := ht
  rw [(insertUnique_eq_ok.mp ht).2, List.append_assoc]

theorem insertFileRun_eq_ok {run : FileExtractionRun} {t t' : FileTables}
    (h : insertFileRun run t = .ok t') :
    t' = { t with extractionRuns := t.extractionRuns ++ [run] } := by
  obtain ⟨runs, hruns, ht⟩ := bind_eq_ok.mp h
  cases ht
  rw [(insertUnique_eq_ok.mp hruns).2]

/-- A guarded update of a revision found it queued. -/
theorem moveRevision_eq_ok {t t' : FileTables} {f : FileRevision → FileRevision} {r : FileRevision}
    (hids : (t.revisions.map (·.id)).Nodup) (hr : r ∈ t.revisions)
    (h : moveRevision r.id f t = .ok t') :
    r.processingState = .queued ∧
      t' = { t with revisions := updateWhere (·.id = r.id) f t.revisions } := by
  obtain ⟨hcount, ht⟩ := require_bind_eq_ok.mp h
  obtain ⟨x, hx, hqueued, hset⟩ := exists_of_rowcount_eq_one (f := f) hids (fun _ hp ↦ hp.1) hcount
  cases ht
  obtain rfl : x = r := eq_of_key_eq hids hx hr hqueued.1
  exact ⟨hqueued.2.2, by rw [hset]⟩

/-- A run of `r` was added, with anchors if it succeeded, and the row of `r` rewritten by `g`. -/
structure Extracted (r : FileRevision) (g : FileRevision → FileRevision) (run : FileExtractionRun)
    (t t' : FileTables) : Prop where
  revisions : t'.revisions = updateWhere (·.id = r.id) g t.revisions
  runs : t'.extractionRuns = t.extractionRuns ++ [run]
  source : run.sourceRevisionId = r.id
  anchored : run.status = .succeeded →
    ∃ a ∈ t'.anchors, a.extractionRunId = run.id ∧ a.sourceRevisionId = run.sourceRevisionId
  submissions : t'.submissions = t.submissions
  anchors : t.anchors ⊆ t'.anchors

section Extracted

variable {t t' : FileTables} {r : FileRevision} {revision : LoadedRevision} {runId : UUID}

theorem persistExtraction_eq_ok (hids : (t.revisions.map (·.id)).Nodup) (hr : r ∈ t.revisions)
    (hid : revision.id = r.id) {result : ExtractionResult} (hblocks : result.blocks ≠ [])
    (h : persistExtraction claimed revision result runId t = .ok t') :
    r.processingState = .queued ∧ ∃ run, run.id = runId ∧ run.status = .succeeded ∧
      Extracted r (readyRevision runId) run t t' := by
  rw [persistExtraction, hid] at h
  simp only [bind_eq_ok] at h
  obtain ⟨t₁, hrun, anchors, hanchors, t₂, hmoved, ht'⟩ := h
  rw [insertFileRun_eq_ok hrun] at hanchors hmoved
  obtain ⟨hqueued, ht₂⟩ := moveRevision_eq_ok (by exact hids) (by exact hr) hmoved
  rw [foldlM_insertAnchor hanchors] at ht₂
  cases ht'
  refine ⟨hqueued, _, rfl, rfl, ⟨by rw [ht₂]; rfl, by rw [ht₂]; rfl, rfl, fun _ ↦ ?_,
    by rw [ht₂]; rfl, ?_⟩⟩
  · obtain ⟨block, hblock⟩ := List.exists_mem_of_ne_nil _ hblocks
    refine ⟨⟨runId, r.id, block⟩, ?_, rfl, rfl⟩
    rw [ht₂]
    exact List.mem_append_right _ (List.mem_map_of_mem hblock)
  · rw [ht₂]
    exact List.subset_append_left _ _

theorem persistExtractionFailure_eq_ok (hids : (t.revisions.map (·.id)).Nodup)
    (hr : r ∈ t.revisions) (hid : revision.id = r.id) {errorCode : String} {terminal : Prop}
    [Decidable terminal]
    (h : persistExtractionFailure claimed revision errorCode terminal runId t = .ok t') :
    ∃ run, run.status = .failed ∧
      ((terminal ∧ r.processingState = .queued ∧ Extracted r failedRevision run t t') ∨
        (¬terminal ∧ Extracted r id run t t')) := by
  rw [persistExtractionFailure, hid] at h
  obtain ⟨t₁, hrun, h⟩ := bind_eq_ok.mp h
  rw [insertFileRun_eq_ok hrun] at h
  split at h
  · next hterminal =>
    obtain ⟨t₂, hmoved, ht'⟩ := bind_eq_ok.mp h
    obtain ⟨hqueued, ht₂⟩ := moveRevision_eq_ok (by exact hids) (by exact hr) hmoved
    cases ht'
    refine ⟨_, rfl, Or.inl ⟨hterminal, hqueued, by rw [ht₂]; rfl, by rw [ht₂]; rfl, rfl, ?_,
      by rw [ht₂]; rfl, ?_⟩⟩
    · exact fun heq ↦ nomatch heq
    · rw [ht₂]
      exact List.Subset.refl _
  · next hterminal =>
    cases h
    exact ⟨_, rfl, Or.inr ⟨hterminal, updateWhere_id.symm, rfl, rfl, fun heq ↦ (nomatch heq), rfl,
      List.Subset.refl _⟩⟩

/-- **The effect of a completion** adds one run of the revision and moves its file. -/
theorem extractionEffect_move (hids : (t.revisions.map (·.id)).Nodup) (hr : r ∈ t.revisions)
    (hid : revision.id = r.id) {loaded : Option LoadedRevision} {attempt : Attempt}
    {decision : ExtractionDecision}
    (hdecision : decideAttempt claimed loaded attempt = .ok decision)
    (h : extractionEffect claimed (some revision) (capAttempts claimed decision) runId t = .ok t')
    {j : Job ExtractionDocument} (hrunning : j.state = .running)
    (hgeneration : j.leaseGeneration = claimed.leaseGeneration) (reclaims retries : Prop) :
    ∃ g run, Extracted r g run t t' ∧
      (∀ r, (g r).id = r.id ∧ (g r).submissionId = r.submissionId ∧
        (g r).isCurrent = r.isCurrent ∧ (g r).storageKey = r.storageKey) ∧
      FileMove reclaims retries (fileCell t.extractionRuns r j) (fileCell t'.extractionRuns (g r)
        (completedJob (capAttempts claimed decision).target (capAttempts claimed decision).errorCode
          j)) := by
  have hcases := capAttempts_cases hdecision
  generalize capAttempts claimed decision = d at h hcases ⊢
  obtain ⟨target, errorCode, result⟩ := d
  -- the runs of the revision, once `run` is added
  have hruns : ∀ {g run}, Extracted r g run t t' → succeededRuns t'.extractionRuns r.id =
      succeededRuns t.extractionRuns r.id ++ if run.status = .succeeded then [run.id] else [] := by
    intro g run hext
    rw [hext.runs, succeededRuns, succeededRuns, List.filter_append, List.map_append]
    congr 1
    by_cases hstatus : run.status = .succeeded <;> simp [hext.source, hstatus]
  rcases hcases with ⟨htarget, result', hresult, hblocks⟩ | ⟨htarget, hearly⟩ | htarget
  · obtain rfl : target = .succeeded := htarget
    obtain rfl : result = some result' := hresult
    obtain ⟨hqueued, run, hrunId, hstatus, hext⟩ := persistExtraction_eq_ok hids hr hid hblocks h
    have hsucceeded := hruns hext
    rw [if_pos hstatus, hrunId] at hsucceeded
    have hcell : fileCell t'.extractionRuns (readyRevision runId r)
        (completedJob .succeeded errorCode j) = ⟨.succeeded, j.leaseGeneration, .ready, some runId,
          succeededRuns t.extractionRuns r.id ++ [runId]⟩ := by rw [← hsucceeded]; rfl
    refine ⟨_, run, hext, fun _ ↦ ⟨rfl, rfl, rfl, rfl⟩, ?_⟩
    rw [hcell]
    exact .succeeded runId hrunning hqueued
  · obtain rfl : target = .failedRetryable := htarget
    obtain ⟨run, hstatus, ⟨hterminal, -⟩ | ⟨-, hext⟩⟩ :=
      persistExtractionFailure_eq_ok hids hr hid h
    · cases hterminal
    · have hsucceeded := hruns hext
      rw [hstatus, if_neg (by decide), List.append_nil] at hsucceeded
      have hcell : fileCell t'.extractionRuns r (completedJob .failedRetryable errorCode j) =
          ⟨.failedRetryable, j.leaseGeneration, r.processingState, r.approvedExtractionRunId,
            succeededRuns t.extractionRuns r.id⟩ := by rw [← hsucceeded]; rfl
      refine ⟨id, run, hext, fun _ ↦ ⟨rfl, rfl, rfl, rfl⟩, ?_⟩
      rw [id, hcell]
      exact .putOff hrunning (hgeneration.trans_lt hearly)
  · obtain rfl : target = .failedTerminal := htarget
    obtain ⟨run, hstatus, ⟨-, hqueued, hext⟩ | ⟨hterminal, -⟩⟩ :=
      persistExtractionFailure_eq_ok hids hr hid h
    · have hsucceeded := hruns hext
      rw [hstatus, if_neg (by decide), List.append_nil] at hsucceeded
      have hcell : fileCell t'.extractionRuns (failedRevision r)
          (completedJob .failedTerminal errorCode j) = ⟨.failedTerminal, j.leaseGeneration, .failed,
            r.approvedExtractionRunId, succeededRuns t.extractionRuns r.id⟩ := by
        rw [← hsucceeded]; rfl
      refine ⟨_, run, hext, fun _ ↦ ⟨rfl, rfl, rfl, rfl⟩, ?_⟩
      rw [hcell]
      exact .failed hrunning hqueued
    · exact absurd rfl hterminal

end Extracted

/-- What a worker has loaded for its claim fits the file: the revision, or none because the lease is
over. -/
def LoadHolds (claimed : ClaimedJob ExtractionDocument) (revision : Option LoadedRevision)
    (db : FileDatabase) : Prop :=
  ∃ r j, IsFile db r j ∧ j.id = claimed.id ∧
    match revision with
    | none => (fileCell db.other.extractionRuns r j).Over claimed.leaseGeneration
    | some l => l.id = r.id

/-- What a completion made of the file of its claim. -/
structure ExtractionDone (claimed : ClaimedJob ExtractionDocument) (target : JobState)
    (reclaims retries : Prop) (db db' : FileDatabase) : Prop where
  target_mem : target ∈ completionStates
  early : target = .failedRetryable → claimed.leaseGeneration < maxExtractionAttempts
  reworked : ∃ F G r j, Reworked reclaims retries F G db db' ∧ IsFile db r j ∧ j.id = claimed.id ∧
    (F j).state = target ∧ (F j).leaseGeneration = claimed.leaseGeneration

theorem completeExtraction_done (hf : Filed db) {revision : Option LoadedRevision}
    (hload : LoadHolds claimed revision db) {attempt : Attempt} {runId resultId : UUID} {u : Unit}
    (h : completeExtraction claimed revision attempt runId resultId clock db = .ok (u, db'))
    (reclaims retries : Prop) :
    ∃ decision, decideAttempt claimed revision attempt = .ok decision ∧
      ExtractionDone claimed (capAttempts claimed decision).target reclaims retries db db' := by
  obtain ⟨decision, hdecision, h⟩ := bind_eq_ok.mp h
  refine ⟨decision, hdecision, ?_⟩
  obtain ⟨row, hrow, ⟨hid, hrunning, hgeneration, -⟩, s₂, heffect, hother, hcompleted⟩ :=
    completeWithEffects_eq_ok hf.ids h
  obtain ⟨other, hextracted, hs₂⟩ := bind_eq_ok.mp heffect
  cases hs₂
  have hjobs := (hcompleted [] (Inserted.refl _ other)).jobs
  rw [List.append_nil] at hjobs
  obtain ⟨r, j, hfile, hjid, hfits⟩ := hload
  obtain rfl : j = row := eq_of_key_eq hf.ids hfile.job hrow (hjid.trans hid.symm)
  cases revision with
  | none =>
    -- a lease that is over is not fenced
    rcases hfits with hlt | ⟨-, hstopped⟩
    · exact absurd hgeneration hlt.ne'
    · exact absurd hrunning hstopped
  | some l =>
    obtain ⟨g, run, hext, hrevisions, hmove⟩ := extractionEffect_move hf.revisionIds hfile.revision
      hfits hdecision hextracted hrunning hgeneration reclaims retries
    refine ⟨?_, ?_, _, _, r, j, Reworked.of_file hf hfile hjobs
      (hother ▸ hext.revisions) (by rw [hother]; exact hext.runs) (hother ▸ hext.submissions)
      (hother ▸ hext.anchors) (fun _ ↦ rfl) (fun _ _ ↦ rfl) hrevisions ?_ ?_, hfile, hjid, ?_, ?_⟩
    · rcases capAttempts_cases hdecision with ⟨htarget, -⟩ | ⟨htarget, -⟩ | htarget <;>
        rw [htarget] <;> decide
    · intro hretryable
      rcases capAttempts_cases hdecision with ⟨htarget, -⟩ | ⟨-, hearly⟩ | htarget
      · exact nomatch htarget.symm.trans hretryable
      · exact hearly
      · exact nomatch htarget.symm.trans hretryable
    · rw [hother]
      exact List.forall_mem_singleton.mpr ⟨hext.source, hext.anchored⟩
    · rw [hother]
      exact .single hmove
    · rw [if_pos rfl]
      rfl
    · rw [if_pos rfl]
      exact hgeneration

/-! ## Putting back -/

section Requeue

variable {reclaims retries : Prop} {r : FileRevision} {j : Job ExtractionDocument}

theorem unheld_requeuedJob {x : Job ExtractionDocument} (hunheld : Unheld x)
    (hstopped : x.state ≠ .running) : Unheld (requeuedJob x) := fun _ ↦ hunheld hstopped

/-- A worker's requeue. -/
theorem requeue_reworked (hf : Filed db) (hfile : IsFile db r j) {generation : ℤ} {u : Unit}
    (h : requeueRetryable j.id generation db = .ok (u, db')) :
    Reworked reclaims retries (fun x ↦ if x.id = j.id then requeuedJob x else x) (fun x ↦ x)
      db db' := by
  obtain ⟨row, hrow, hrequeued⟩ := requeueRetryable_step hf.ids h
  obtain rfl : row = j := eq_of_key_eq hf.ids hrequeued.mem hfile.job hrow.1
  have hmove : FileMove reclaims retries (fileCell db.other.extractionRuns r row)
      (fileCell db.other.extractionRuns r (requeuedJob row)) := .requeued hrequeued.failed
  have hstopped : row.state ≠ .running := fun heq ↦ nomatch heq.symm.trans hrequeued.failed
  have hstep : Reworked reclaims retries (fun x ↦ if x.id = row.id then requeuedJob x else x)
      (fun x ↦ if x.id = r.id then x else x) db
      { db with jobs := setJob row.id requeuedJob db.jobs } :=
    Reworked.of_file (g := fun x ↦ x) hf hfile rfl updateWhere_id.symm (List.append_nil _).symm rfl
      (List.Subset.refl _) (fun _ ↦ rfl) (fun hunheld ↦ unheld_requeuedJob hunheld hstopped)
      (fun _ ↦ ⟨rfl, rfl, rfl, rfl⟩) (List.forall_mem_nil _) (.single hmove)
  rw [hrequeued.store]
  simpa only [ite_self] using hstep

/-- A member's retry. -/
theorem commitRetry_reworked (hf : Filed db) (hretries : retries) {pending : PendingRetry}
    {retryNonce : UUID} {u : Unit} (h : commitRetry pending retryNonce db = .ok (u, db')) :
    ∃ F G, Reworked reclaims retries F G db db' := by
  obtain ⟨hcount, hdb'⟩ := require_bind_eq_ok.mp h
  cases hdb'
  obtain ⟨j, hj, hterminal⟩ := rowcount_pos.mp (Nat.pos_of_ne_zero hcount)
  obtain ⟨-, r, hfile⟩ := hf.jobs j hj (hf.named j hj _ hterminal.1)
  have hid : r.id = pending.revisionId :=
    extractionKey_injective (hfile.key.symm.trans hterminal.1)
  have hjobs : updateWhere (TerminalExtraction pending.revisionId) requeuedJob db.jobs
      = setJob j.id requeuedJob db.jobs := by
    refine updateWhere_congr fun x hx ↦ ⟨fun hx' ↦ ?_, fun hx' ↦ ?_⟩
    · exact congrArg Job.id (eq_of_key_eq hf.keys hx hj (hx'.1.trans hterminal.1.symm))
    · rw [eq_of_key_eq hf.ids hx hj hx']
      exact hterminal
  have hstopped : j.state ≠ .running := fun heq ↦ nomatch heq.symm.trans hterminal.2
  have hmove : FileMove reclaims retries (fileCell db.other.extractionRuns r j)
      (fileCell db.other.extractionRuns (requeuedRevision r) (requeuedJob j)) :=
    .retried hretries hterminal.2
  exact ⟨_, _, Reworked.of_file (g := requeuedRevision) hf hfile hjobs (by rw [hid]) (List.append_nil _).symm
    rfl (List.Subset.refl _) (fun _ ↦ rfl) (fun hunheld ↦ unheld_requeuedJob hunheld hstopped)
    (fun _ ↦ ⟨rfl, rfl, rfl, rfl⟩) (List.forall_mem_nil _) (.single hmove)⟩

end Requeue

/-! ## Reconciling -/

section Reconcile

variable {reclaims retries : Prop} {unseen : List UUID}

/-- The first statement puts interrupted jobs back. -/
theorem interrupted_reworked (db : FileDatabase) : Reworked reclaims retries
    (fun j ↦ if Interrupted unseen j then requeuedJob j else j) (fun r ↦ r) db
    { db with jobs := updateWhere (Interrupted unseen) requeuedJob db.jobs } where
  jobs := rfl
  revisions := (List.map_id' _).symm
  identity j := by
    split <;> rfl
  others j _ hkind := if_neg fun hinterrupted ↦ hkind hinterrupted.1.1
  unheld j _ hunheld := by
    split
    · next hinterrupted => exact fun _ ↦ hinterrupted.1.2.2
    · exact hunheld
  revisionId _ := rfl
  upload _ := ⟨rfl, rfl, rfl⟩
  submissions := rfl
  anchors := List.Subset.refl _
  runs _ h := Or.inl h
  moves r j _ := by
    split
    · next hinterrupted => exact .single (.requeued hinterrupted.1.2.1)
    · exact .refl

/-- A queued revision is found. -/
theorem Filed.queuedRevision_of_queued (hf : Filed db) {r : FileRevision}
    (hr : r ∈ db.other.revisions) (hqueued : r.processingState = .queued) :
    ∃ x, queuedRevision db r.id = some (r, x) := by
  obtain ⟨hcurrent, -, y, hy, hyid⟩ := hf.uploaded r hr
  have hfound : db.other.revisions.find? (QueuedCurrent r.id) = some r := by
    refine (find?_eq_some_of_key hf.revisionIds fun x hx ↦ (of_decide_eq_true hx).1).mpr
      ⟨hr, decide_eq_true ⟨rfl, hcurrent, hqueued⟩⟩
  obtain ⟨x, hx⟩ : ∃ x, db.other.submissions.find? (·.id = r.submissionId) = some x :=
    Option.isSome_iff_exists.mp (List.find?_isSome.mpr ⟨y, hy, decide_eq_true hyid⟩)
  refine ⟨x, ?_⟩
  rw [queuedRevision, hfound]
  simp [hx]

/-- The repair of an exhausted job fails its revision with it. -/
theorem repairExhausted_reworked (hf : Filed db) {r : FileRevision} {j : Job ExtractionDocument}
    (hfile : IsFile db r j) (hexhausted : Exhausted unseen j)
    (h : repairExhausted db j = .ok db') :
    Reworked reclaims retries (fun x ↦ if x.id = j.id then exhaustedJob x else x)
      (fun x ↦ if x.id = r.id then failedRevision x else x) db db' := by
  obtain ⟨⟨-, hfailed, htoken⟩, hlate, -⟩ := hexhausted
  have hqueued : r.processingState = .queued :=
    ((hf.sound r j hfile).of_working (show j.state ∈ _ by rw [hfailed]; decide)).1
  obtain ⟨x, hfound⟩ := hf.queuedRevision_of_queued hfile.revision hqueued
  rw [repairExhausted, hfile.payload, Option.bind_some, hfound] at h
  cases h
  have hrevisions : updateWhere (QueuedCurrent r.id) failedRevision db.other.revisions
      = updateWhere (·.id = r.id) failedRevision db.other.revisions := by
    refine updateWhere_congr fun y hy ↦ ⟨And.left, fun hid ↦ ?_⟩
    rw [eq_of_key_eq hf.revisionIds hy hfile.revision hid]
    exact ⟨rfl, (hf.uploaded r hfile.revision).current, hqueued⟩
  have hmove : FileMove reclaims retries (fileCell db.other.extractionRuns r j)
      (fileCell db.other.extractionRuns (failedRevision r) (exhaustedJob j)) :=
    .exhausted hfailed hlate hqueued
  exact Reworked.of_file hf hfile rfl hrevisions (List.append_nil _).symm rfl
    (List.Subset.refl _) (fun _ ↦ rfl) (fun _ _ ↦ htoken) (fun _ ↦ ⟨rfl, rfl, rfl, rfl⟩)
    (List.forall_mem_nil _) (.single hmove)

/-- The repairs touch the exhausted jobs and end each of them. -/
theorem repairs_reworked (hf : Filed db)
    (h : (db.jobs.filter (Exhausted unseen)).foldlM repairExhausted db = .ok db') :
    ∃ F G, Reworked reclaims retries F G db db' ∧
      (∀ j ∈ db.jobs, ¬Exhausted unseen j → F j = j) ∧
      ∀ j ∈ db.jobs, Exhausted unseen j → (F j).state = .failedTerminal := by
  -- after the jobs of `done`, the others are as they were
  have hloop : ∀ rest, db.jobs.filter (Exhausted unseen)
        = db.jobs.filter (Exhausted unseen) ++ rest →
      ∃ F G, Reworked reclaims retries F G db db' ∧
        (∀ j ∈ db.jobs, j ∉ db.jobs.filter (Exhausted unseen) → F j = j) ∧
        ∀ j ∈ db.jobs.filter (Exhausted unseen), (F j).state = .failedTerminal := by
    refine foldlM_invariant (fun done t ↦ ∀ rest, db.jobs.filter (Exhausted unseen) = done ++ rest →
      ∃ F G, Reworked reclaims retries F G db t ∧ (∀ j ∈ db.jobs, j ∉ done → F j = j) ∧
        ∀ j ∈ done, (F j).state = .failedTerminal) h ?_ ?_
    · exact fun _ _ ↦ ⟨id, id, .refl db, fun _ _ _ ↦ rfl, List.forall_mem_nil _⟩
    · intro done x t t' ih hrepair rest hsplit
      rw [List.append_assoc] at hsplit
      obtain ⟨F, G, hreworked, hkept, hended⟩ := ih _ hsplit
      have hx : x ∈ db.jobs.filter (Exhausted unseen) := by
        rw [hsplit]
        exact List.mem_append_right _ List.mem_cons_self
      obtain ⟨hxmem, hexhausted⟩ := List.mem_filter.mp hx
      have hexhausted := of_decide_eq_true hexhausted
      have hnodup : (db.jobs.filter (Exhausted unseen)).Nodup := hf.ids.of_map.filter _
      have hnew : x ∉ done := by
        rw [hsplit] at hnodup
        exact fun hdone ↦ List.disjoint_of_nodup_append hnodup hdone List.mem_cons_self
      have hFx : F x = x := hkept x hxmem hnew
      obtain ⟨-, r, hfile⟩ := hf.jobs x hxmem hexhausted.1.1
      have hfile' := hreworked.isFile hfile
      rw [hFx] at hfile'
      have hstep : Reworked reclaims retries _ _ t t' :=
        repairExhausted_reworked (hf.reworked hreworked) hfile' hexhausted hrepair
      refine ⟨_, _, hreworked.trans hstep, fun j hj hjdone ↦ ?_, fun j hj ↦ ?_⟩
      · rw [List.mem_append, not_or, List.mem_singleton] at hjdone
        rw [Function.comp_apply, hkept j hj hjdone.1]
        exact if_neg fun hid ↦ hjdone.2 (eq_of_key_eq hf.ids hj hxmem hid)
      · rw [Function.comp_apply]
        split
        · rfl
        · next hid =>
          rcases List.mem_append.mp hj with hj | hj
          · exact hended j hj
          · rw [List.mem_singleton.mp hj, hFx] at hid
            exact absurd rfl hid
  obtain ⟨F, G, hreworked, hkept, hended⟩ := hloop [] (List.append_nil _).symm
  refine ⟨F, G, hreworked, fun j hj hnot ↦ hkept j hj fun hmem ↦ hnot ?_, fun j hj hexhausted ↦ ?_⟩
  · exact of_decide_eq_true (List.mem_filter.mp hmem).2
  · exact hended j (List.mem_filter.mpr ⟨hj, decide_eq_true hexhausted⟩)

/-- **A reconciliation** moves files only, and takes every failed job that it sees out of its
state. -/
theorem reconcile_reworked (hf : Filed db)
    (h : reconcileRetryableExtractions unseen db = .ok db') :
    ∃ F G, Reworked reclaims retries F G db db' ∧ ∀ j ∈ db.jobs, FailedExtraction j →
      j.id ∉ unseen → (F j).state ∈ [JobState.pending, .failedTerminal] := by
  have hfirst : Reworked reclaims retries (fun j ↦ if Interrupted unseen j then requeuedJob j else j)
    (fun r ↦ r) db _ := interrupted_reworked db
  obtain ⟨F, G, hreworked, hkept, hended⟩ : ∃ F G, Reworked reclaims retries F G _ db' ∧ _ :=
    repairs_reworked (hf.reworked hfirst) h
  refine ⟨_, _, hfirst.trans hreworked, fun j hj hfailed hseen ↦ ?_⟩
  have hmem : (if Interrupted unseen j then requeuedJob j else j) ∈
      updateWhere (Interrupted unseen) requeuedJob db.jobs := List.mem_map_of_mem hj
  rw [Function.comp_apply]
  by_cases hearly : j.leaseGeneration < maxExtractionAttempts
  · have hinterrupted : Interrupted unseen j := ⟨hfailed, hearly, hseen⟩
    rw [if_pos hinterrupted] at hmem ⊢
    have hnot : ¬Exhausted unseen (requeuedJob j) := fun hexhausted ↦
      nomatch hexhausted.1.2.1
    rw [hkept _ hmem hnot]
    show JobState.pending ∈ _
    decide
  · have hinterrupted : ¬Interrupted unseen j := fun hinterrupted ↦ hearly hinterrupted.2.1
    rw [if_neg hinterrupted] at hmem ⊢
    rw [hended _ hmem ⟨hfailed, not_lt.mp hearly, hseen⟩]
    decide

/-- A reconciliation always goes through. -/
theorem reconcile_returns (unseen : List UUID) (db : FileDatabase) :
    ∃ db', reconcileRetryableExtractions unseen db = .ok db' := by
  have hloop : ∀ (jobs : List (Job ExtractionDocument)) (t : FileDatabase),
      ∃ t', jobs.foldlM repairExhausted t = .ok t' := by
    intro jobs
    induction jobs with
    | nil => exact fun t ↦ ⟨t, rfl⟩
    | cons j jobs ih =>
      intro t
      obtain ⟨t₁, ht₁⟩ : ∃ t₁, repairExhausted t j = .ok t₁ := by
        rw [repairExhausted]
        split
        · exact ⟨_, rfl⟩
        · exact ⟨_, rfl⟩
      rw [List.foldlM_cons, ht₁, ok_bind]
      exact ih t₁
  exact hloop _ _

end Reconcile

/-! ## Uploading -/

/-- A submission, its revision and the job of the revision were added. -/
structure Submitted (x : FileSubmission) (r : FileRevision) (j : Job ExtractionDocument)
    (db db' : FileDatabase) : Prop where
  jobs : db'.jobs = db.jobs ++ [j]
  revisions : db'.other.revisions = db.other.revisions ++ [r]
  submissions : db'.other.submissions = db.other.submissions ++ [x]
  runs : db'.other.extractionRuns = db.other.extractionRuns
  anchors : db'.other.anchors = db.other.anchors
  newJob : ∀ a ∈ db.jobs, ¬jobsClash a j
  newRevision : ∀ a ∈ db.other.revisions, a.id ≠ r.id
  uploaded : Uploaded [x] r
  kind : j.kind = .extraction
  key : j.logicalKey = extractionKey r.id
  payload : jobRevision j.payload = some r.id
  pending : j.state = .pending ∧ j.leaseGeneration = 0 ∧ j.leaseToken = none
  queued : r.processingState = .queued ∧ r.approvedExtractionRunId = none

theorem submitFile_step (hf : Filed db) {upload : FileUpload} {u : Unit}
    (h : submitFile upload clock db = .ok (u, db')) : ∃ x r j, Submitted x r j db db' := by
  simp only [submitFile, bind_eq_ok, require_eq_ok, insertUnique_eq_ok] at h
  obtain ⟨roomId, -, -, -, _, ⟨-, rfl⟩, _, ⟨hrevision, rfl⟩, ⟨job, db₁⟩, henqueue, hdb'⟩ := h
  simp only [enqueue, bind_eq_ok] at henqueue
  obtain ⟨-, -, kind, hkind, -, -, jobs, hjobs, hrow⟩ := henqueue
  have hextraction : kind = .extraction := by
    have hvalue := requireKind_eq_ok hkind
    revert hvalue
    cases kind <;> decide
  -- a job of this key would belong to a revision of this id
  have hnew : ∀ j ∈ db.jobs, j.logicalKey ≠ extractionKey upload.revisionId := by
    intro j hj hkey
    obtain ⟨-, r, hfile⟩ := hf.jobs j hj (hf.named j hj _ hkey)
    have hid : r.id = upload.revisionId := extractionKey_injective (hfile.key.symm.trans hkey)
    exact hrevision r hfile.revision (Or.inl hid)
  rcases insertJobOrIgnore_eq_ok hjobs with ⟨⟨j, hj, hkey⟩, -⟩ | ⟨hfresh, rfl⟩
  · exact absurd hkey (hnew j hj)
  · split at hrow
    · cases hrow
      cases hdb'
      subst hextraction
      refine ⟨_, _, _, rfl, rfl, rfl, rfl, rfl, hfresh, ?_, ⟨rfl, rfl, _, List.mem_singleton_self _,
        rfl⟩, rfl, rfl, rfl, ⟨rfl, rfl, rfl⟩, rfl, rfl⟩
      exact fun a ha hid ↦ hrevision a ha (Or.inl hid)
    · cases hrow

section Submitted

variable {x : FileSubmission} {r : FileRevision} {j : Job ExtractionDocument}

theorem Submitted.isFile (h : Submitted x r j db db') : IsFile db' r j where
  revision := h.revisions ▸ List.mem_append_right _ (List.mem_singleton_self r)
  job := h.jobs ▸ List.mem_append_right _ (List.mem_singleton_self j)
  kind := h.kind
  key := h.key
  payload := h.payload

theorem Submitted.kept (h : Submitted x r j db db') {r₀ : FileRevision}
    {j₀ : Job ExtractionDocument} (hfile : IsFile db r₀ j₀) : IsFile db' r₀ j₀ where
  revision := h.revisions ▸ List.mem_append_left _ hfile.revision
  job := h.jobs ▸ List.mem_append_left _ hfile.job
  kind := hfile.kind
  key := hfile.key
  payload := hfile.payload

/-- A file is the new one or one of the old. -/
theorem Submitted.origin (hf : Filed db) (h : Submitted x r j db db') {r' : FileRevision}
    {j' : Job ExtractionDocument} (hfile : IsFile db' r' j') :
    (r' = r ∧ j' = j) ∨ IsFile db r' j' := by
  have hr' := h.revisions ▸ hfile.revision
  have hj' := h.jobs ▸ hfile.job
  rcases List.mem_append.mp hj' with hj' | hj'
  · obtain ⟨-, r₀, hfile₀⟩ := hf.jobs j' hj' hfile.kind
    have hid : r'.id = r₀.id := Option.some.inj (hfile.payload.symm.trans hfile₀.payload)
    rcases List.mem_append.mp hr' with hr' | hr'
    · obtain rfl : r' = r₀ := eq_of_key_eq hf.revisionIds hr' hfile₀.revision hid
      exact Or.inr hfile₀
    · rw [List.mem_singleton.mp hr'] at hid
      exact absurd hid.symm (h.newRevision r₀ hfile₀.revision)
  · obtain rfl := List.mem_singleton.mp hj'
    have hid : r'.id = r.id := Option.some.inj (hfile.payload.symm.trans h.payload)
    rcases List.mem_append.mp hr' with hr' | hr'
    · exact absurd hid (h.newRevision r' hr')
    · exact Or.inl ⟨List.mem_singleton.mp hr', rfl⟩

/-- The new file is new. -/
theorem Submitted.cell (hf : Filed db) (h : Submitted x r j db db') :
    fileCell db'.other.extractionRuns r j = newCell := by
  have hnone : db.other.extractionRuns.filter
      (fun run ↦ run.sourceRevisionId = r.id ∧ run.status = .succeeded) = [] := by
    rw [List.filter_eq_nil_iff]
    intro run hrun hof
    obtain ⟨r₀, hr₀, hid⟩ := hf.runs run hrun
    exact h.newRevision r₀ hr₀ (hid.trans (of_decide_eq_true hof).1)
  rw [fileCell, h.runs, succeededRuns, hnone, h.pending.1, h.pending.2.1, h.queued.1, h.queued.2]
  rfl

theorem Filed.submitted (hf : Filed db) (h : Submitted x r j db db') : Filed db' where
  ids := by
    rw [UniqueIds, h.jobs]
    exact nodup_map_append_singleton hf.ids fun a ha hid ↦ h.newJob a ha (Or.inl hid)
  keys := by
    rw [h.jobs]
    exact nodup_map_append_singleton hf.keys fun a ha hkey ↦ h.newJob a ha (Or.inr hkey)
  revisionIds := by
    rw [h.revisions]
    exact nodup_map_append_singleton hf.revisionIds h.newRevision
  files := by
    rw [h.revisions]
    intro r' hr'
    rcases List.mem_append.mp hr' with hr' | hr'
    · obtain ⟨j', hfile⟩ := hf.files r' hr'
      exact ⟨j', h.kept hfile⟩
    · rw [List.mem_singleton.mp hr']
      exact ⟨j, h.isFile⟩
  jobs := by
    rw [h.jobs]
    intro j' hj' hkind
    rcases List.mem_append.mp hj' with hj' | hj'
    · obtain ⟨hunheld, r', hfile⟩ := hf.jobs j' hj' hkind
      exact ⟨hunheld, r', h.kept hfile⟩
    · rw [List.mem_singleton.mp hj']
      exact ⟨fun _ ↦ h.pending.2.2, r, h.isFile⟩
  named := by
    rw [h.jobs]
    intro j' hj' revisionId hkey
    rcases List.mem_append.mp hj' with hj' | hj'
    · exact hf.named j' hj' revisionId hkey
    · rw [List.mem_singleton.mp hj']
      exact h.kind
  uploaded := by
    rw [h.revisions, h.submissions]
    intro r' hr'
    rcases List.mem_append.mp hr' with hr' | hr'
    · obtain ⟨hcurrent, hstored, y, hy, hid⟩ := hf.uploaded r' hr'
      exact ⟨hcurrent, hstored, y, List.mem_append_left _ hy, hid⟩
    · obtain ⟨hcurrent, hstored, y, hy, hid⟩ := h.uploaded
      rw [List.mem_singleton.mp hr']
      exact ⟨hcurrent, hstored, y, List.mem_append_right _ hy, hid⟩
  runs := by
    rw [h.runs, h.revisions]
    intro run hrun
    obtain ⟨r', hr', hid⟩ := hf.runs run hrun
    exact ⟨r', List.mem_append_left _ hr', hid⟩
  anchored := by
    rw [h.runs, h.anchors]
    exact hf.anchored
  sound := by
    intro r' j' hfile
    rcases h.origin hf hfile with ⟨rfl, rfl⟩ | hold
    · rw [h.cell hf]
      exact newCell_sound
    · rw [h.runs]
      exact hf.sound r' j' hold

end Submitted

end MeetingRag
