import MeetingRag.Extraction.Correspondence

/-!
# A requeue that comes too late

A worker commits a retryable failure and puts the job back in a second transaction. In between,
another worker may have reconciled the job, claimed it and carried it on, and then the requeue is
refused as stale. `_retry_requeue_has_benign_winner` reads the row to tell this from a job that is
still where the failure left it.

A refused requeue shows that the job has moved on from the failure, and moving on is kept by every
move of a file. The check recognises exactly that.
-/

open Outcome Table Text

namespace MeetingRag

variable {db db' : FileDatabase} {claimed : ClaimedJob ExtractionDocument}

/-- The job of the claim has moved on from its failure. -/
def ClaimMovedOn (claimed : ClaimedJob ExtractionDocument) (db : FileDatabase) : Prop :=
  ∃ r j, IsFile db r j ∧ j.id = claimed.id ∧
    (fileCell db.other.extractionRuns r j).MovedOn claimed.leaseGeneration

theorem ClaimMovedOn.moved {reclaims retries : Prop} (h : ClaimMovedOn claimed db)
    (hmove : FilesMove reclaims retries db db') : ClaimMovedOn claimed db' := by
  obtain ⟨r, j, hfile, hid, hmoved⟩ := h
  obtain ⟨r', j', hfile', -, hidentity, hmoves⟩ := hmove.kept r j hfile
  refine ⟨r', j', hfile', (Job.id_of_identity hidentity).trans hid, ?_⟩
  exact hmoves.preserve (fun _ _ hmove ↦ hmove.movedOn) hmoved

/-- What the check says of a row that it finds. -/
theorem retryRequeueHasBenignWinner_of_mem (hids : UniqueIds db) {j : Job ExtractionDocument}
    (hj : j ∈ db.jobs) {g : ℤ} :
    retryRequeueHasBenignWinner j.id g db = true ↔ j.kind = .extraction ∧
      g ≤ j.leaseGeneration ∧ (j.state ∈ [JobState.running, .failedRetryable] →
        g < j.leaseGeneration) := by
  have hfound : db.jobs.find? (·.id = j.id) = some j := by
    refine (find?_eq_some_of_key hids fun x hx ↦ of_decide_eq_true hx).mpr ⟨hj, ?_⟩
    exact decide_eq_true rfl
  rw [retryRequeueHasBenignWinner, hfound]
  dsimp only
  by_cases hkind : j.kind = .extraction
  · rw [if_neg (not_not.mpr hkind)]
    cases j.state <;> simp [hkind] <;> omega
  · rw [if_pos hkind]
    exact iff_of_false Bool.false_ne_true fun h ↦ hkind h.1

/-- A job that has moved on is recognised. -/
theorem ClaimMovedOn.benign (hf : Filed db) (h : ClaimMovedOn claimed db) :
    retryRequeueHasBenignWinner claimed.id claimed.leaseGeneration db = true := by
  obtain ⟨r, j, hfile, hid, hle, hlt⟩ := h
  rw [← hid, retryRequeueHasBenignWinner_of_mem hf.ids hfile.job]
  exact ⟨hfile.kind, Int.ofNat_le.mpr hle, fun hstate ↦ Int.ofNat_lt.mpr (hlt hstate)⟩

/-- **A refused requeue** finds its job moved on. -/
theorem ClaimOver.movedOn (hf : Filed db) (h : ClaimOver claimed db) {message : String}
    (hlost : requeueRetryable claimed.id claimed.leaseGeneration db
      = .error (.staleLease message)) : ClaimMovedOn claimed db := by
  obtain ⟨r, j, hfile, hid, hover⟩ := h
  refine ⟨r, j, hfile, hid, ?_⟩
  -- the requeue found no row
  have hnone : rowcount (Requeueable claimed.id claimed.leaseGeneration) db.jobs ≠ 1 := by
    intro hcount
    rw [requeueRetryable] at hlost
    by_cases hpositive : (claimed.leaseGeneration : ℤ) < 1
    · rw [require_of_not (not_not.mpr hpositive)] at hlost
      cases hlost
    · rw [require_of hpositive, ok_bind, require_of hcount] at hlost
      cases hlost
  have hnot : ¬(j.state = .failedRetryable ∧ j.leaseGeneration = claimed.leaseGeneration) := by
    rintro ⟨hstate, hgeneration⟩
    have htoken : j.leaseToken = none :=
      (hf.jobs j hfile.job hfile.kind).1 (by intro heq; cases heq.symm.trans hstate)
    refine hnone ((rowcount_eq_one hf.ids fun _ _ hp ↦ hp.1).mpr ⟨j, hfile.job, hid, hstate, ?_, htoken⟩)
    rw [hgeneration]
  rcases hover with hlt | ⟨heq, hstopped⟩
  · exact ⟨hlt.le, fun _ ↦ hlt⟩
  · refine ⟨heq.le, fun hstate ↦ ?_⟩
    rcases List.mem_pair.mp hstate with hrunning | hfailed
    · exact absurd hrunning hstopped
    · exact absurd ⟨hfailed, heq.symm⟩ hnot

/-- **The check is sound.** In every run, once a worker whose retryable failure was committed has
had its requeue refused as stale, the check holds in every later state. And it does not hold of a
job that is missing, is of another kind, or is still failed at that generation. -/
theorem benign_winner_sound :
    (∀ now before claimed clock after message,
      extractionMachine.Legal (emptyExtraction now) (before ++ ⟨clock, .requeue claimed⟩ :: after) →
      (extractionMachine.step (extractionMachine.exec (emptyExtraction now) before)
        ⟨clock, .requeue claimed⟩).1 = .error (.staleLease message) →
      retryRequeueHasBenignWinner claimed.id claimed.leaseGeneration (extractionMachine.exec
        (emptyExtraction now) (before ++ ⟨clock, .requeue claimed⟩ :: after)).db = true) ∧
    ∀ db, UniqueIds db → ∀ jobId g,
      ((∀ j ∈ db.jobs, j.id ≠ jobId) ∨ ∃ j ∈ db.jobs, j.id = jobId ∧ (j.kind ≠ .extraction ∨
        (j.state = .failedRetryable ∧ (j.leaseGeneration : ℤ) = g))) →
      retryRequeueHasBenignWinner jobId g db = false := by
  constructor
  · intro now before claimed clock after message hlegal hlost
    obtain ⟨hbefore, henabled, hafter⟩ := Machine.along_append.mp hlegal
    have hs := extraction_sound hbefore
    rw [Machine.exec_append]
    generalize extractionMachine.exec (emptyExtraction now) before = s at hs henabled hafter hlost ⊢
    have hstep := (extractionMachine_step hs henabled.2).2.1
    have hsound := hs.step henabled.2
    have hrefused : requeueRetryable claimed.id claimed.leaseGeneration s.db
        = .error (.staleLease message) := by
      have hbody : (transaction s.db ((ExtractionCall.requeue claimed).body clock s.db)).1
          = .error (.staleLease message) := hlost
      rw [ExtractionCall.body] at hbody
      cases hrequeue : requeueRetryable claimed.id claimed.leaseGeneration s.db with
      | ok result =>
        rw [hrequeue, ok_bind] at hbody
        exact nomatch hbody
      | error e =>
        rw [hrequeue, error_bind, transaction_error] at hbody
        exact congrArg Except.error (Except.error.inj hbody)
    have hmoved := (hs.putOff claimed henabled.2).movedOn hs.filed hrefused
    have hlater := hafter.invariant (P := fun s ↦ s.Sound ∧ ClaimMovedOn claimed s.db)
      ⟨hsound, hmoved.moved hstep⟩ fun t i ⟨ht, hmovedOn⟩ htold ↦
        ⟨ht.step htold.2, hmovedOn.moved (extractionMachine_step ht htold.2).2.1⟩
    exact hlater.2.benign hlater.1.filed
  · intro db hids jobId g h
    rw [← Bool.not_eq_true]
    rcases h with hmissing | ⟨j, hj, rfl, h⟩
    · have hnone : db.jobs.find? (·.id = jobId) = none := by
        rw [List.find?_eq_none]
        exact fun j hj hid ↦ hmissing j hj (of_decide_eq_true hid)
      rw [retryRequeueHasBenignWinner, hnone]
      exact Bool.false_ne_true
    · rw [retryRequeueHasBenignWinner_of_mem hids hj]
      rintro ⟨hkind, -, hlt⟩
      rcases h with hother | ⟨hfailed, rfl⟩
      · exact hother hkind
      · exact lt_irrefl _ (hlt (by rw [hfailed]; decide))

theorem benign_winner_sound_lostRequeue :
    retryRequeueHasBenignWinner 8 1 (extractionMachine.exec (emptyExtraction 0) lostRequeue).db
      = true ∧
    retryRequeueHasBenignWinner 9 1 (extractionMachine.exec (emptyExtraction 0) lostRequeue).db
      = false :=
  ⟨benign_winner_sound.1 0 (lostRequeue.take 7) (textLease 1 51) ⟨7, 7, le_rfl⟩ (lostRequeue.drop 8)
    "retry target is stale or not retryable" (by decide +kernel) (by decide +kernel),
    benign_winner_sound.2 _ (extraction_sound (by decide +kernel)).filed.ids 9 1 (by decide +kernel)⟩

end MeetingRag
