import MeetingRag.Extraction.Correspondence
import MeetingRag.System.Retry

/-!
# Recovering a job after a crash

A worker commits a retryable failure in one transaction and puts the job back in another. If it dies
in between, the job stays failed until somebody else puts it back. For an extraction that is the next
poll, which reconciles. For a generation job there is only the host, whose retry puts back the failed
lanes of a session that needs attention, and a comparison is no lane.

`HostCanRetry` is what the host's retry takes, and it is the only way out for a generation job.
-/

open Outcome Table Text

namespace MeetingRag

/-! ## Ways out -/

/-- What a poll of a restarted worker and a host can do. -/
def SystemCall.Recovery : SystemCall → Prop
  | claimNext .. | createTalkSession .. | close .. | reopen .. | retry .. => True
  | _ => False

/-- What a poll of a restarted extraction worker and a member can do. -/
def ExtractionCall.Recovery : ExtractionCall → Prop
  | reconcile _ | claim .. | commitRetry .. => True
  | _ => False

/-- The job is there and no longer waits to be put back. -/
def PutBack {J ρ : Type} (jobId : UUID) (s : Store J ρ) : Prop :=
  ∃ j ∈ s.jobs, j.id = jobId ∧ j.state ≠ .failedRetryable

/-- A poll or a host can take the job out of its failure. -/
def Recoverable (s : SystemState) (jobId : UUID) : Prop :=
  ∃ i, systemMachine.enabled s i ∧ i.call.Recovery ∧
    ∃ reply, (systemMachine.step s i).1 = .ok reply ∧ PutBack jobId (systemMachine.step s i).2.db

/-- A poll or a member can take the extraction out of its failure. -/
def ExtractionRecoverable (s : ExtractionState) (jobId : UUID) : Prop :=
  ∃ i, extractionMachine.enabled s i ∧ i.call.Recovery ∧
    ∃ reply, (extractionMachine.step s i).1 = .ok reply ∧
      PutBack jobId (extractionMachine.step s i).2.db

/-- The job is one of a lane of a session that needs attention, whose latest snapshot has that lane
failed, whose host is still there, and whose failed lanes all have their jobs to be put back. -/
def HostCanRetry (db : Database) (j : Job JobDocument) : Prop :=
  ∃ t ∈ db.other.talkSessions, t.state = .needsAttention ∧ ActiveMember db t.roomId t.hostId ∧
    ∃ p ∈ latestSnapshot db t.id, JobOfFailedRun db p j ∧
      ∀ r ∈ db.other.generationRuns, FailedRun p r → ∀ j' ∈ db.jobs, JobOfRun p r j' →
        j'.state = .failedRetryable

/-! ## Extractions -/

/-- The next poll puts a failed extraction back, or fails it for good. -/
theorem extraction_recoverable {s : ExtractionState} (hs : s.Sound) {j : Job ExtractionDocument}
    (hj : j ∈ s.db.jobs) (hkind : j.kind = .extraction) (hfailed : j.state = .failedRetryable) :
    ExtractionRecoverable s j.id := by
  have hf := hs.filed
  obtain ⟨db', hreconcile⟩ := reconcile_returns [] s.db
  obtain ⟨F, G, hreworked, hout⟩ : ∃ F G, Reworked True True F G s.db db' ∧ _ :=
    reconcile_reworked hf hreconcile
  have htoken : j.leaseToken = none :=
    (hf.jobs j hj hkind).1 fun heq ↦ nomatch heq.symm.trans hfailed
  have hput : (F j).state ≠ .failedRetryable := by
    have hstate := hout j hj ⟨hkind, hfailed, htoken⟩ List.not_mem_nil
    intro heq
    rw [heq] at hstate
    exact absurd hstate (by decide)
  have hbody : (ExtractionCall.reconcile []).body ⟨s.now, s.now, le_rfl⟩ s.db = .ok (.done, db') := by
    rw [ExtractionCall.body, hreconcile]
    rfl
  have hstep : transaction s.db ((ExtractionCall.reconcile []).body ⟨s.now, s.now, le_rfl⟩ s.db)
      = (.ok .done, db') := by rw [hbody, transaction_ok]
  refine ⟨⟨⟨s.now, s.now, le_rfl⟩, .reconcile []⟩, ⟨le_rfl, trivial⟩, trivial, .done,
    congrArg Prod.fst hstep, F j, ?_, Job.id_of_identity (hreworked.identity j), hput⟩
  have hdb : (extractionMachine.step s ⟨⟨s.now, s.now, le_rfl⟩, .reconcile []⟩).2.db = db' :=
    (ExtractionState.record_db _ _).trans (congrArg Prod.snd hstep)
  rw [hdb, hreworked.jobs]
  exact List.mem_map_of_mem hj

/-! ## Generation jobs -/

section Generation

variable {db db' : Database} {j : Job JobDocument}

/-- A transaction that leaves the row alone does not put it back. -/
theorem not_putBack_of_kept (hids : UniqueIds db') (hfailed : j.state = .failedRetryable)
    (hkept : j ∈ db'.jobs) : ¬PutBack j.id db' := by
  rintro ⟨j', hj', hid, hstate⟩
  rw [eq_of_key_eq hids hj' hkept hid] at hstate
  exact hstate hfailed

/-- A claim takes another job. -/
theorem Granted.not_putBack (hw : Consistent db) {row : Job JobDocument}
    {claimed : ClaimedJob JobDocument} {now leaseUntil : Timestamp}
    (h : Granted row claimed now leaseUntil db db') (hj : j ∈ db.jobs)
    (hfailed : j.state = .failedRetryable) : ¬PutBack j.id db' := by
  refine not_putBack_of_kept (hw.granted h).ids hfailed ?_
  rw [h.jobs]
  refine mem_updateWhere_of_not hj fun hid ↦ ?_
  rw [eq_of_key_eq hw.ids hj h.mem hid] at hfailed
  rcases h.available with hpending | ⟨hrunning, -⟩
  · exact nomatch hpending.symm.trans hfailed
  · exact nomatch hrunning.symm.trans hfailed

/-- **The only way out.** What puts a failed generation job back is the retry of its host. -/
theorem hostCanRetry_of_putBack {s : SystemState} (hs : s.Sound) (hjobs : LaneJobs s.db)
    {i : SystemInput} (hrecovery : i.call.Recovery) {reply : SystemReply}
    (hbody : i.call.body i.clock s.db = .ok (reply, db')) (hj : j ∈ s.db.jobs)
    (hfailed : j.state = .failedRetryable) (hput : PutBack j.id db') :
    HostCanRetry s.db j := by
  have hw := hs.db
  have hids := hw.queue.ids
  obtain ⟨clock, call⟩ := i
  dsimp only at hrecovery hbody
  cases call with
  | createTalkSession sessionId actorId roomId topic =>
    obtain ⟨r, hr, hdb'⟩ := bind_eq_ok.mp hbody
    cases hdb'
    obtain ⟨-, -, -, -, activity, e, hframe, -⟩ := createTalkSession_eq_ok hr
    rw [hframe] at hput
    exact absurd hput (not_putBack_of_kept hids hfailed hj)
  | close request draws =>
    obtain ⟨r, hr, hdb'⟩ := bind_eq_ok.mp hbody
    cases hdb'
    rcases close_eq_ok hw.sessions hr with hsame | ⟨session, included, schema, hclosed⟩
    · rw [hsame] at hput
      exact absurd hput (not_putBack_of_kept hids hfailed hj)
    · have hins := hclosed.inserted
      refine absurd hput (not_putBack_of_kept (hw.queue.inserted hins).ids hfailed ?_)
      rw [hins.jobs]
      exact List.mem_append_left _ hj
  | reopen sessionId actorId =>
    obtain ⟨r, hr, hdb'⟩ := bind_eq_ok.mp hbody
    cases hdb'
    rcases reopen_eq_ok hw.sessions hr with hsame | ⟨session, -, hreopened⟩
    · rw [hsame] at hput
      exact absurd hput (not_putBack_of_kept hids hfailed hj)
    · rw [hreopened.result] at hput
      exact absurd hput (not_putBack_of_kept hids hfailed hj)
  | claimNext owner leaseSeconds kinds leaseToken attemptId locked =>
    obtain ⟨r, hr, hdb'⟩ := bind_eq_ok.mp hbody
    cases hdb'
    rcases claimNext_step hr with ⟨-, hsame⟩ | ⟨row, claimed, -, hgrant⟩
    · rw [hsame] at hput
      exact absurd hput (not_putBack_of_kept hids hfailed hj)
    · exact absurd hput (hgrant.not_putBack hw.queue hj hfailed)
  | retry sessionId actorId =>
    obtain ⟨r, hr, hdb'⟩ := bind_eq_ok.mp hbody
    cases hdb'
    rcases retry_eq_ok hw.sessions hr with hsame | ⟨t, p, rfl, hretried⟩
    · rw [hsame] at hput
      exact absurd hput (not_putBack_of_kept hids hfailed hj)
    · obtain ⟨⟨hmember, rfl⟩, -⟩ :=
        (retry_of_attention hw.sessions hretried.mem hretried.attention hretried.latest).mp hr
      have hp := (selectLast_mem hretried.latest).1
      refine ⟨t, hretried.mem, hretried.attention, hmember, p, hretried.latest, ?_,
        (lanesRetryable_iff hw hjobs hp).mp hretried.lanes⟩
      -- the retry has written the row, so it is one of a failed lane
      by_contra hnot
      have hids' : UniqueIds (retriedDatabase t p.id t.hostId s.db) := by
        have hmap : (retriedDatabase t p.id t.hostId s.db).jobs.map (·.id) =
            s.db.jobs.map (·.id) := map_updateWhere_of_forall fun _ ↦ rfl
        rw [UniqueIds, hmap]
        exact hids
      rw [hretried.result] at hput
      refine not_putBack_of_kept hids' hfailed (mem_updateWhere_of_not hj ?_) hput
      rintro ⟨kind, hkind, hretryable⟩
      obtain ⟨run, hrun, hfailedRun, rfl⟩ := mem_retryableKinds_runsOf.mp hkind
      exact hnot ⟨run, hrun, hfailedRun, hretryable.1, hretryable.2.1⟩
  | _ => exact hrecovery.elim

/-- A host who can retry takes the job out of its failure. -/
theorem recoverable_of_hostCanRetry {s : SystemState} (hs : s.Sound) (hjobs : LaneJobs s.db)
    (hj : j ∈ s.db.jobs) (h : HostCanRetry s.db j) : Recoverable s j.id := by
  obtain ⟨t, ht, hstate, hmember, p, hlatest, hlane, hfailed⟩ := h
  obtain ⟨run, hrun, hfailedRun, hjob⟩ := hlane
  obtain ⟨view, hretry⟩ := retry_returns hs.db hjobs ht hstate hlatest ⟨run, hrun, hfailedRun⟩
    hmember hfailed
  have hbody : (SystemCall.retry t.id t.hostId).body ⟨s.now, s.now, le_rfl⟩ s.db
      = .ok (.retried view, retriedDatabase t p.id t.hostId s.db) := by
    rw [SystemCall.body, hretry]
    rfl
  obtain ⟨hreply, hdb⟩ := systemMachine_of_ok
    (i := ⟨⟨s.now, s.now, le_rfl⟩, .retry t.id t.hostId⟩) hbody
  refine ⟨⟨⟨s.now, s.now, le_rfl⟩, .retry t.id t.hostId⟩,
    ⟨le_rfl, by rintro _ ⟨⟩⟩, trivial, _, hreply, ?_⟩
  rw [hdb]
  refine ⟨requeuedJob j, ?_, rfl, by rintro ⟨⟩⟩
  rw [(retriedDatabase_rows hs.db hfailed t.hostId).2]
  exact mem_updateWhere_of_mem hj ⟨run, hrun, hfailedRun, hjob⟩

theorem recoverable_iff {s : SystemState} (hs : s.Sound) (hjobs : LaneJobs s.db)
    (hj : j ∈ s.db.jobs) (hfailed : j.state = .failedRetryable) :
    Recoverable s j.id ↔ HostCanRetry s.db j := by
  constructor
  · rintro ⟨i, -, hrecovery, reply, hreply, hput⟩
    exact hostCanRetry_of_putBack hs hjobs hrecovery (systemMachine_eq_ok.mp hreply) hj hfailed hput
  · exact recoverable_of_hostCanRetry hs hjobs hj

/-- A comparison is no lane. -/
theorem HostCanRetry.lane (h : HostCanRetry db j) : j.kind = .summary ∨ j.kind = .research := by
  obtain ⟨-, -, -, -, p, -, ⟨run, -, -, -, hkind⟩, -⟩ := h
  rw [hkind]
  cases run.kind
  · exact Or.inl rfl
  · exact Or.inr rfl

end Generation

/-- **Which jobs are stranded.** In every reachable state, an extraction that was left failed can be
put back by the next poll. A research job can be exactly when its host can retry its lane, and a
comparison never can. -/
theorem stranded_iff (now : Timestamp) :
    (∀ s, extractionMachine.Reachable (emptyExtraction now) s → ∀ j ∈ s.db.jobs,
      j.kind = .extraction → j.state = .failedRetryable → ExtractionRecoverable s j.id) ∧
    ∀ s, systemMachine.Reachable (emptySystem now) s → ∀ j ∈ s.db.jobs,
      j.kind = .research ∨ j.kind = .reportSuggestions → j.state = .failedRetryable →
        (Recoverable s j.id ↔ j.kind = .research ∧ HostCanRetry s.db j) := by
  constructor
  · rintro s ⟨is, hlegal, rfl⟩ j hj hkind hfailed
    exact extraction_recoverable (extraction_sound hlegal) hj hkind hfailed
  · intro s hs j hj hkind hfailed
    rw [recoverable_iff (reachable_sound hs) (reachable_laneJobs hs) hj hfailed]
    refine ⟨fun h ↦ ⟨?_, h⟩, And.right⟩
    rcases hkind with hresearch | hreport
    · exact hresearch
    · rcases h.lane with hsummary | hresearch
      · exact nomatch hsummary.symm.trans hreport
      · exact hresearch

/-! ## A comparison whose worker died -/

/-- Both lanes succeed, and the first attempt at their comparison fails with a retryable error. -/
def failedAttempt : List SystemInput :=
  researchPutBack ++
    [ callAt 9 (.completeLane (laneLease 100 .research 2 55) (resultFor 62) 75 76),
      callAt 10 (claimCall "report_suggestions" 57),
      callAt 11 (.completeSuggestions reportLease (.providerFailure "quota" true) 77) ]

/-- Nobody can put that comparison back but its worker. -/
theorem comparison_is_stranded :
    ¬∀ now s, systemMachine.Reachable (emptySystem now) s → ∀ j ∈ s.db.jobs,
      j.kind = .research ∨ j.kind = .reportSuggestions → j.state = .failedRetryable →
        Recoverable s j.id := by
  intro h
  have hreachable : systemMachine.Reachable (emptySystem 0)
      (systemMachine.exec (emptySystem 0) failedAttempt) := ⟨failedAttempt, by decide +kernel, rfl⟩
  obtain ⟨j, hj, hreport, hfailed⟩ : ∃ j ∈ (systemMachine.exec (emptySystem 0) failedAttempt).db.jobs,
      j.kind = .reportSuggestions ∧ j.state = .failedRetryable := by decide +kernel
  have hrecoverable := h 0 _ hreachable j hj (Or.inr hreport) hfailed
  rw [recoverable_iff (reachable_sound hreachable) (reachable_laneJobs hreachable) hj hfailed]
    at hrecoverable
  rcases hrecoverable.lane with hsummary | hresearch
  · exact nomatch hsummary.symm.trans hreport
  · exact nomatch hresearch.symm.trans hreport

theorem stranded_iff_lostRequeue :
    (∀ j ∈ (extractionMachine.exec (emptyExtraction 0) (lostRequeue.take 5)).db.jobs,
      j.kind = .extraction → j.state = .failedRetryable →
        ExtractionRecoverable (extractionMachine.exec (emptyExtraction 0) (lostRequeue.take 5)) j.id) ∧
    ∀ j ∈ (systemMachine.exec (emptySystem 0) beforeRequeue).db.jobs,
      j.kind = .research ∨ j.kind = .reportSuggestions → j.state = .failedRetryable →
        (Recoverable (systemMachine.exec (emptySystem 0) beforeRequeue) j.id ↔
          j.kind = .research ∧
            HostCanRetry (systemMachine.exec (emptySystem 0) beforeRequeue).db j) :=
  ⟨(stranded_iff 0).1 _ ⟨lostRequeue.take 5, by decide +kernel, rfl⟩,
    (stranded_iff 0).2 _ ⟨beforeRequeue, by decide +kernel, rfl⟩⟩

end MeetingRag
