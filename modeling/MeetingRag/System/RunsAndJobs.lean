import MeetingRag.System.Attempts
import MeetingRag.System.Documents
import MeetingRag.System.Retry

/-!
# The runs of the lanes and their jobs

A lane has two rows. A worker leases its job, and the completion of that job writes its run. A close
adds both and a host's retry puts back both, but a claim, an expired lease and the requeue of a
research job move the job alone: the job is then pending or running, and the run stays as the last
attempt left it, queued or failed and still writable.

`Agrees` is the coupling. A step either moves a working job alone, which cannot break it, or writes
the two rows in one transaction.
-/

open Outcome Table Text

namespace MeetingRag

/-! ## The coupling -/

/-- What the state of a lane's job says about the state of its run. -/
structure Agrees (job : JobState) (run : GenerationRunState) : Prop where
  succeeded : job = .succeeded ↔ run = .succeeded
  failedTerminal : job = .failedTerminal ↔ run = .failedTerminal
  failedRetryable : job = .failedRetryable → run = .failedRetryable
  working : job ∈ [JobState.pending, .running] →
    run ∈ [GenerationRunState.queued, .running, .failedRetryable]

/-- A job that may still be worked on has a run that may still be written. -/
theorem Agrees.writable {job : JobState} {run : GenerationRunState} (h : Agrees job run)
    (hjob : job ∈ [JobState.pending, .running, .failedRetryable]) :
    run ∈ [GenerationRunState.queued, .running, .failedRetryable] := by
  rcases List.mem_cons.mp hjob with rfl | hjob
  · exact h.working (by decide)
  rcases List.mem_pair.mp hjob with rfl | rfl
  · exact h.working (by decide)
  · rw [h.failedRetryable rfl]
    decide

theorem agrees_of_writable {job : JobState} {run : GenerationRunState}
    (hjob : job ∈ [JobState.pending, .running])
    (hrun : run ∈ [GenerationRunState.queued, .running, .failedRetryable]) : Agrees job run := by
  cases job <;> cases run <;> first
    | exact absurd hjob (by decide)
    | exact absurd hrun (by decide)
    | exact ⟨by decide, by decide, by decide, by decide⟩

theorem agrees_queued : Agrees .pending .queued := agrees_of_writable (by decide) (by decide)

theorem agrees_succeeded : Agrees .succeeded .succeeded :=
  ⟨by decide, by decide, by decide, by decide⟩

theorem agrees_failedTerminal : Agrees .failedTerminal .failedTerminal :=
  ⟨by decide, by decide, by decide, by decide⟩

theorem agrees_failedRetryable : Agrees .failedRetryable .failedRetryable :=
  ⟨by decide, by decide, by decide, by decide⟩

/-- The jobs of the lanes agree with the runs. -/
def LanesAgree (db : Database) : Prop :=
  ∀ p ∈ db.other.generationSnapshots, ∀ kind, ∀ j ∈ db.jobs, LaneJob p kind j →
    Agrees j.state (laneState db p.id kind)

/-- Every snapshot names its pipeline. -/
def Named (db : Database) : Prop := ∀ p ∈ db.other.generationSnapshots, ¬Blank p.pipelineVersion

/-- A worker's own moves: a job that is not finished becomes pending or running. -/
def Works (job job' : JobState) : Prop :=
  job ∈ [JobState.pending, .running, .failedRetryable] ∧ job' ∈ [JobState.pending, .running]

theorem works_of_mem {job job' : JobState}
    (h : job = .pending ∨ job = .running ∨ job = .failedRetryable)
    (h' : job' ∈ [JobState.pending, .running] := by decide) : Works job job' :=
  ⟨by simpa using h, h'⟩

/-- The transaction moved at most working jobs of the lanes, and wrote no run. -/
structure LanesKept (db db' : Database) : Prop where
  jobs : ∀ j' ∈ db'.jobs, ∀ kind : GenerationKind, j'.kind = kind.jobKind →
    ∃ j ∈ db.jobs, j'.identity = j.identity ∧ (j'.state = j.state ∨ Works j.state j'.state)
  runs : db'.other.generationRuns = db.other.generationRuns
  snapshots : db'.other.generationSnapshots = db.other.generationSnapshots

/-- The kind of a lane's job is no other kind. -/
theorem not_laneKind {kind : JobKind} (h : kind ∉ [JobKind.summary, .research])
    (k : GenerationKind) : kind ≠ k.jobKind := by
  rintro rfl
  cases k <;> exact h (by decide)

section Kept

variable {db db' : Database} {p : GenerationSnapshot} {kind : GenerationKind} {j j' : Job JobDocument}

theorem LaneJob.congr (h : j'.identity = j.identity) (hlane : LaneJob p kind j') :
    LaneJob p kind j :=
  ⟨(congrArg JobIdentity.logicalKey h).symm.trans hlane.1,
    (congrArg JobIdentity.kind h).symm.trans hlane.2.1,
    (congrArg JobIdentity.snapshotId h).symm.trans hlane.2.2⟩

theorem LanesKept.of_jobs (hjobs : db'.jobs = db.jobs)
    (hruns : db'.other.generationRuns = db.other.generationRuns)
    (hsnapshots : db'.other.generationSnapshots = db.other.generationSnapshots) :
    LanesKept db db' where
  jobs j hj _ _ := ⟨j, hjobs ▸ hj, rfl, Or.inl rfl⟩
  runs := hruns
  snapshots := hsnapshots

/-- One row of the queue is written, and rows that are no lane are added. -/
theorem LanesKept.of_setJob (hids : UniqueIds db) {row : Job JobDocument} (hrow : row ∈ db.jobs)
    {f : Job JobDocument → Job JobDocument} {rows : List (Job JobDocument)}
    (hjobs : db'.jobs = setJob row.id f db.jobs ++ rows)
    (hidentity : (f row).identity = row.identity)
    (hstate : (∃ kind : GenerationKind, row.kind = kind.jobKind) →
      (f row).state = row.state ∨ Works row.state (f row).state)
    (hrows : ∀ new ∈ rows, ∀ kind : GenerationKind, new.kind ≠ kind.jobKind)
    (hruns : db'.other.generationRuns = db.other.generationRuns)
    (hsnapshots : db'.other.generationSnapshots = db.other.generationSnapshots) :
    LanesKept db db' := by
  refine ⟨fun j' hj' kind hkind ↦ ?_, hruns, hsnapshots⟩
  rw [hjobs] at hj'
  rcases List.mem_append.mp hj' with hj' | hj'
  · rcases mem_updateWhere.mp hj' with ⟨j, hj, hid, rfl⟩ | ⟨hj, -⟩
    · obtain rfl : j = row := eq_of_key_eq hids hj hrow hid
      exact ⟨j, hj, hidentity,
        hstate ⟨kind, (congrArg JobIdentity.kind hidentity).symm.trans hkind⟩⟩
    · exact ⟨j', hj, rfl, Or.inl rfl⟩
  · exact absurd hkind (hrows j' hj' kind)

/-- Rows that are no lane are added. -/
theorem LanesKept.of_inserted {rows : List (Job JobDocument)} (h : Inserted rows db db')
    (hrows : ∀ new ∈ rows, new.kind ∉ [JobKind.summary, .research])
    (hruns : db'.other.generationRuns = db.other.generationRuns)
    (hsnapshots : db'.other.generationSnapshots = db.other.generationSnapshots) :
    LanesKept db db' := by
  refine ⟨fun j' hj' kind hkind ↦ ?_, hruns, hsnapshots⟩
  rw [h.jobs] at hj'
  rcases List.mem_append.mp hj' with hj' | hj'
  · exact ⟨j', hj', rfl, Or.inl rfl⟩
  · exact absurd hkind (not_laneKind (hrows j' hj') kind)

theorem LanesAgree.kept (h : LanesAgree db) (hkept : LanesKept db db') : LanesAgree db' := by
  intro p hp kind j' hj' hlane
  rw [hkept.snapshots] at hp
  have hstate : laneState db' p.id kind = laneState db p.id kind :=
    laneState_congr (runsOf_congr hkept.runs)
  obtain ⟨j, hj, hid, hmove⟩ := hkept.jobs j' hj' kind hlane.2.1
  have hagrees := h p hp kind j hj (hlane.congr hid)
  rw [hstate]
  rcases hmove with hsame | ⟨hbefore, hafter⟩
  · rw [hsame]
    exact hagrees
  · exact agrees_of_writable hafter (hagrees.writable hbefore)

theorem Named.kept (h : Named db) (hkept : LanesKept db db') : Named db' := by
  rw [Named, hkept.snapshots]
  exact h

end Kept

/-! ## What a poll commits -/

section Execution

variable {claimed : ClaimedJob JobDocument} {outcome : ProviderOutcome} {e : GenerationExecution}

/-- The state of the run that goes with the state of a job. -/
theorem failedExecution_agrees {snapshotId : UUID} {kind : GenerationKind}
    {pipelineVersion errorCode : String} {retryable : Bool}
    (h : failedExecution snapshotId kind pipelineVersion errorCode retryable = .ok e) :
    Agrees e.targetState e.runState := by
  rw [failedExecution] at h
  unfold GenerationExecution.new at h
  split at h
  · cases h
    cases retryable with
    | true => exact agrees_failedRetryable
    | false => exact agrees_failedTerminal
  · exact nomatch h

theorem executeLane_agrees {snapshotId : UUID} {kind : GenerationKind} {pipelineVersion : String}
    (h : executeLane snapshotId kind pipelineVersion outcome = .ok e) :
    Agrees e.targetState e.runState := by
  cases outcome with
  | generated documentId structuredContent provider model promptVersion contents =>
    obtain ⟨-, -, h⟩ := bind_eq_ok.mp h
    unfold GenerationExecution.new at h
    split at h
    · cases h
      exact agrees_succeeded
    · exact nomatch h
  | providerFailure code retryable => exact failedExecution_agrees h
  | groundingFailure code => exact failedExecution_agrees h
  | retrievalContextInvalid => exact failedExecution_agrees h
  | runnerError => exact failedExecution_agrees h

/-- The target state of an execution agrees with the outcome it persists. -/
theorem laneExecution_agrees (h : laneExecution claimed outcome = .ok (some e)) :
    Agrees e.targetState e.runState := by
  obtain ⟨before, hbefore, hcap⟩ := bind_eq_ok.mp h
  have hexecuted : ∀ b, before = some b → Agrees b.targetState b.runState := by
    rintro b rfl
    unfold executeSafely failureForClaim at hbefore
    split at hbefore
    · cases hbefore
    · obtain ⟨b', hb', heq⟩ := bind_eq_ok.mp hbefore
      cases heq
      exact executeLane_agrees hb'
  cases before with
  | none => cases hcap
  | some b =>
    rw [capResearchRetries] at hcap
    split at hcap
    · cases hcap
      exact hexecuted e rfl
    · next hnot =>
      obtain ⟨capped, hnew, heq⟩ := bind_eq_ok.mp hcap
      cases heq
      unfold GenerationExecution.new at hnew
      split at hnew
      · next hinit =>
        cases hnew
        -- a capped execution has no completion, so it persists the terminal failure it reports
        obtain ⟨-, hinit⟩ := require_bind_eq_ok.mp hinit
        obtain ⟨-, hinit⟩ := require_bind_eq_ok.mp hinit
        have hnone := (require_eq_ok.mp hinit).1
        have hstate : (if b.completion.isSome = true then GenerationRunState.succeeded
            else if false = true then .failedRetryable else .failedTerminal) = .failedTerminal := by
          rw [Option.isNone_iff_eq_none.mp hnone]
          rfl
        rw [GenerationExecution.runState, hstate]
        exact agrees_failedTerminal
      · cases hnew

/-- The lane that a granted lease is about. -/
theorem exists_lane_of_issued {s : SystemState} (hs : s.Sound) (hnamed : Named s.db)
    (hissued : claimed ∈ s.issued) (hkind : claimed.kind ∈ [JobKind.summary, .research]) :
    ∃ p ∈ s.db.other.generationSnapshots, ∃ kind,
      claimedGenerationIdentity claimed = some (p.id, kind, p.pipelineVersion) ∧
        ∃ j ∈ s.db.jobs, j.id = claimed.id ∧ LaneJob p kind j := by
  obtain ⟨j, hj, hid, hjkind, hjpayload⟩ := hs.issued claimed hissued
  have hlane : j.kind ∈ [JobKind.summary, .research] := hjkind ▸ hkind
  cases hs.db.jobs j hj with
  | extraction revisionId key jobKind =>
    have h : j.kind = .extraction := jobKind
    rw [h] at hlane
    exact absurd hlane (by decide)
  | report p mem key jobKind snapshotId payload =>
    have h : j.kind = .reportSuggestions := jobKind
    rw [h] at hlane
    exact absurd hlane (by decide)
  | lane p mem kind key jobKind snapshotId payload =>
    refine ⟨p, mem, kind, ?_, j, hj, hid, key, jobKind, snapshotId⟩
    have hk : claimed.kind = kind.jobKind := hjkind.symm.trans jobKind
    have hpayload : claimed.payload = .generation p.id kind.jobKind p.pipelineVersion :=
      hjpayload.symm.trans payload
    have hcanonical : generationKind? kind.jobKind = some kind := by cases kind <;> rfl
    simp only [claimedGenerationIdentity, hk, hpayload, hcanonical, true_and, if_pos (hnamed p mem)]

/-- A poll of a named lane has an execution to commit. -/
theorem laneExecution_isSome {snapshotId : UUID} {kind : GenerationKind} {pipelineVersion : String}
    (hident : claimedGenerationIdentity claimed = some (snapshotId, kind, pipelineVersion))
    {execution : Option GenerationExecution} (h : laneExecution claimed outcome = .ok execution) :
    ∃ e, execution = some e := by
  obtain ⟨before, hbefore, hcap⟩ := bind_eq_ok.mp h
  rw [executeSafely, hident] at hbefore
  obtain ⟨b, -, heq⟩ := bind_eq_ok.mp hbefore
  cases heq
  rw [capResearchRetries] at hcap
  split at hcap
  · exact ⟨b, (Except.ok.inj hcap).symm⟩
  · obtain ⟨capped, -, heq⟩ := bind_eq_ok.mp hcap
    exact ⟨capped, (Except.ok.inj heq).symm⟩

/-- What an execution is about is what its lease names. -/
theorem laneExecution_names {snapshotId : UUID} {kind : GenerationKind} {pipelineVersion : String}
    (hident : claimedGenerationIdentity claimed = some (snapshotId, kind, pipelineVersion))
    (h : laneExecution claimed outcome = .ok (some e)) :
    e.snapshotId = snapshotId ∧ e.kind = kind ∧ e.pipelineVersion = pipelineVersion := by
  obtain ⟨_, _, _, hident', ⟨rfl, rfl, rfl⟩, -⟩ := laneExecution_isFor h
  cases hident.symm.trans hident'
  exact ⟨rfl, rfl, rfl⟩

end Execution

/-! ## Steps of the two rows -/

section Steps

variable {db db' : Database} {clock : StatementClock}

theorem LanesAgree.closed (h : LanesAgree db) (hw : Wellformed db) {session : TalkSession}
    {request : CloseRequest} {draws : CloseDraws} {included : List CurrentRevision} {schema : String}
    {createdAt : Timestamp} (hc : Closed session request draws included schema createdAt db db') :
    LanesAgree db' := by
  have hadded := hc.added hw
  have hnew := hc.free.newSnapshot
  set snapshot := closeSnapshot session request draws schema
  obtain ⟨rows, hjobs, hrows⟩ := hadded.jobs
  intro p hp kind j hj hlane
  rw [hadded.snapshots] at hp
  rcases List.mem_append.mp hp with hp | hp
  · -- an older snapshot has its rows as they were
    rw [laneState_congr (hc.runsOf_old hp)]
    rw [hjobs] at hj
    rcases List.mem_append.mp hj with hj | hj
    · exact h p hp kind j hj hlane
    · obtain ⟨k, hk⟩ := hrows j hj
      exact absurd (Or.inl (Option.some.inj (hlane.2.2.symm.trans hk.2.2))) (hnew p hp)
  · rw [List.mem_singleton.mp hp] at hlane ⊢
    obtain ⟨j₀, hfilter, -, hpending⟩ := hadded.job kind
    have hmem : j ∈ db'.jobs.filter (·.logicalKey = generationKey snapshot.id kind
        snapshot.pipelineVersion) := List.mem_filter.mpr ⟨hj, decide_eq_true hlane.1⟩
    rw [hfilter, List.mem_singleton] at hmem
    obtain ⟨r, hruns, -, hqueued⟩ := hadded.run kind
    have hstate : laneState db' snapshot.id kind = .queued := by
      rw [laneState, ← List.head?_filter, hruns, List.head?_cons, Option.map_some, hqueued]
      rfl
    rw [hmem, hpending, hstate]
    exact agrees_queued

theorem LanesAgree.retried (h : LanesAgree db) (hw : Wellformed db) (hjobs : LaneJobs db)
    {session : TalkSession} {snapshot : GenerationSnapshot} {actorId : UUID}
    (hr : Retried session snapshot actorId db db') : LanesAgree db' := by
  have hmem : snapshot ∈ db.other.generationSnapshots := (selectLast_mem hr.latest).1
  obtain ⟨hruns, hrows⟩ := retriedDatabase_rows (t := session) hw
    ((lanesRetryable_iff hw hjobs hmem).mp hr.lanes) actorId
  rw [← hr.result] at hruns hrows
  have hsnapshots : db'.other.generationSnapshots = db.other.generationSnapshots := by
    rw [hr.result]
    rfl
  intro p hp kind j' hj' hlane
  rw [hsnapshots] at hp
  rw [hrows] at hj'
  have hlanes := hw.lanes p hp
  by_cases hother : p = snapshot
  · subst hother
    have hstate : laneState db' p.id kind = requeuedState (laneState db p.id kind) := by
      rw [← laneState_requeued hlanes]
      exact laneState_congr (by rw [hr.result]; rfl)
    rw [hstate]
    rcases mem_updateWhere.mp hj' with ⟨j, hj, ⟨r, hrun, hfailed, hjob⟩, rfl⟩ | ⟨hj, hnot⟩
    · -- both rows were put back
      have hjob' : j.state = .failedRetryable :=
        (lanesRetryable_iff hw hjobs hp).mp hr.lanes r hrun hfailed j hj hjob
      have hrunState := (h p hp kind j hj hlane).failedRetryable hjob'
      rw [hrunState]
      exact agrees_queued
    · have hkept : laneState db p.id kind ≠ .failedRetryable := by
        intro hfailed
        obtain ⟨r, hrun, hid, hkind, -, hrunState⟩ := hlanes.exists_run kind
        exact hnot ⟨r, hrun, ⟨hid, hrunState.trans hfailed⟩, hlane.2.2, hkind ▸ hlane.2.1⟩
      rw [requeuedState, if_neg hkept]
      exact h p hp kind j' hj hlane
  · have hne : p.id ≠ snapshot.id := fun heq ↦ hother (eq_of_key_eq hw.snapshots hp hmem heq)
    have hstate : laneState db' p.id kind = laneState db p.id kind := by
      have hrequeued : runsOf db' p.id =
          runsOf (requeuedLanes snapshot.id (retryableKinds (runsOf db snapshot.id)) db) p.id := by
        rw [hr.result]
        rfl
      exact laneState_congr (hrequeued.trans (runsOf_requeued_of_ne hne))
    rw [hstate]
    rcases mem_updateWhere.mp hj' with ⟨j, -, ⟨r, -, -, hjob⟩, rfl⟩ | ⟨hj, -⟩
    · exact absurd (Option.some.inj (hlane.2.2.symm.trans hjob.1)) hne
    · exact h p hp kind j' hj hlane

/-- A completion writes the two rows of its lane. -/
theorem LanesAgree.completed (h : LanesAgree db) (hw : Wellformed db)
    {claimed : ClaimedJob JobDocument} {e : GenerationExecution} {snapshot : GenerationSnapshot}
    {session : TalkSession} {aggregate : GenerationAggregate} {row : Job JobDocument}
    {errorCode : Option String} {rows : List (Job JobDocument)} (hrow : LaneJob snapshot e.kind row)
    (hdone : Completed row claimed e.targetState errorCode rows db db')
    (hreports : ∀ new ∈ rows, new.kind = .reportSuggestions)
    (houtcome : Agrees e.targetState e.runState)
    (hl : LaneCompleted claimed e snapshot session aggregate clock db db') : LanesAgree db' := by
  obtain ⟨f, hf, hruns⟩ := hl.runs
  have hwritable := hl.writable
  rw [← hl.snapshot_id] at hruns hwritable
  intro p hp kind j' hj' hlane
  rw [hl.snapshots] at hp
  rw [hdone.jobs] at hj'
  have hrunState : laneState db' p.id kind =
      if p = snapshot ∧ kind = e.kind then e.runState else laneState db p.id kind := by
    by_cases hsame : p = snapshot
    · subst hsame
      rw [laneState_written hf (hw.lanes p hp) hwritable hruns]
      simp only [true_and]
    · have hne : p.id ≠ snapshot.id :=
        fun heq ↦ hsame (eq_of_key_eq hw.snapshots hp hl.snapshot_mem heq)
      rw [if_neg fun hboth ↦ hsame hboth.1]
      exact laneState_congr (runsOf_written_of_ne hf hruns hne)
  rw [hrunState]
  rcases List.mem_append.mp hj' with hj' | hj'
  · rcases mem_updateWhere.mp hj' with ⟨j, hj, hid, rfl⟩ | ⟨hj, hne⟩
    · -- the completed row is the one of the lane that was written
      obtain rfl : j = row := eq_of_key_eq hw.queue.ids hj hdone.mem hid
      have hsnapshot : p = snapshot := eq_of_key_eq hw.snapshots hp hl.snapshot_mem
        (Option.some.inj (hlane.2.2.symm.trans hrow.2.2))
      have hkind : kind = e.kind := jobKind_injective (hlane.2.1.symm.trans hrow.2.1)
      rw [if_pos ⟨hsnapshot, hkind⟩]
      exact houtcome
    · have hother : ¬(p = snapshot ∧ kind = e.kind) := by
        rintro ⟨rfl, rfl⟩
        exact hne (congrArg Job.id (eq_of_key_eq hw.queue.keys hj hdone.mem
          (hlane.1.trans hrow.1.symm)))
      rw [if_neg hother]
      exact h p hp kind j' hj hlane
  · have hreport : JobKind.reportSuggestions = kind.jobKind :=
      (hreports j' hj').symm.trans hlane.2.1
    cases kind <;> exact nomatch hreport

end Steps

/-- What one transaction has done to the rows of the lanes. -/
inductive LaneStep (clock : StatementClock) (db db' : Database) : Prop
  | kept (h : LanesKept db db')
  | closed (session : TalkSession) (request : CloseRequest) (draws : CloseDraws)
      (included : List CurrentRevision) (schema : String)
      (named : ¬Blank request.pipelineVersion)
      (h : Closed session request draws included schema clock.seen db db')
  | retried (session : TalkSession) (snapshot : GenerationSnapshot) (actorId : UUID)
      (h : Retried session snapshot actorId db db')
  | completed (claimed : ClaimedJob JobDocument) (e : GenerationExecution)
      (snapshot : GenerationSnapshot) (session : TalkSession) (aggregate : GenerationAggregate)
      (row : Job JobDocument) (rows : List (Job JobDocument)) (lane : LaneJob snapshot e.kind row)
      (done : Completed row claimed e.targetState e.errorCode rows db db')
      (reports : ∀ new ∈ rows, new.kind = .reportSuggestions)
      (outcome : Agrees e.targetState e.runState)
      (h : LaneCompleted claimed e snapshot session aggregate clock db db')

section Calls

variable {db' : Database}

/-- The completion of a job that is no lane leaves the lanes alone. -/
theorem Completed.lanesKept {db db' : Database} (hids : UniqueIds db) {row : Job JobDocument}
    {claimed : ClaimedJob JobDocument} {targetState : JobState} {errorCode : Option String}
    (h : Completed row claimed targetState errorCode [] db db')
    (hkind : row.kind ∉ [JobKind.summary, .research])
    (hruns : db'.other.generationRuns = db.other.generationRuns)
    (hsnapshots : db'.other.generationSnapshots = db.other.generationSnapshots) :
    LanesKept db db' :=
  .of_setJob hids h.mem h.jobs rfl (fun ⟨k, hk⟩ ↦ absurd hk (not_laneKind hkind k))
    (List.forall_mem_nil _) hruns hsnapshots

theorem close_named {request : CloseRequest} {draws : CloseDraws} {createdAt : Timestamp}
    {snapshot : ClosedSnapshot} {db : Database}
    (h : close request draws createdAt db = .ok (snapshot, db')) : ¬Blank request.pipelineVersion := by
  rw [close] at h
  obtain ⟨exclusions, hvalid, -⟩ := bind_eq_ok.mp h
  rw [requireCloseArguments] at hvalid
  exact (require_bind_eq_ok.mp hvalid).1

/-- **Every transaction** moves working jobs alone, or writes both rows of the lanes it moves. -/
theorem SystemCall.body_lanes {s : SystemState} (hs : s.Sound) (hnamed : Named s.db)
    {i : SystemInput} (henabled : systemMachine.enabled s i) {reply : SystemReply}
    (h : i.call.body i.clock s.db = .ok (reply, db')) : LaneStep i.clock s.db db' := by
  have hids := hs.db.queue.ids
  obtain ⟨clock, call⟩ := i
  obtain ⟨-, hpresented⟩ := henabled
  dsimp only at h hpresented
  cases call with
  | createTalkSession sessionId actorId roomId topic =>
    obtain ⟨r, hr, hdb'⟩ := bind_eq_ok.mp h
    cases hdb'
    obtain ⟨-, -, -, -, activity, e, hframe, -⟩ := createTalkSession_eq_ok hr
    exact .kept (.of_jobs (by rw [hframe]) (by rw [hframe]) (by rw [hframe]))
  | close request draws =>
    obtain ⟨r, hr, hdb'⟩ := bind_eq_ok.mp h
    cases hdb'
    rcases close_eq_ok hs.db.sessions hr with hsame | ⟨session, included, schema, hclosed⟩
    · exact .kept (.of_jobs (by rw [hsame]) (by rw [hsame]) (by rw [hsame]))
    · exact .closed session request draws included schema (close_named hr) hclosed
  | reopen sessionId actorId =>
    obtain ⟨r, hr, hdb'⟩ := bind_eq_ok.mp h
    cases hdb'
    rcases reopen_eq_ok hs.db.sessions hr with hsame | ⟨session, -, hreopened⟩
    · exact .kept (.of_jobs (by rw [hsame]) (by rw [hsame]) (by rw [hsame]))
    · rw [hreopened.result]
      exact .kept (.of_jobs rfl rfl rfl)
  | retry sessionId actorId =>
    obtain ⟨r, hr, hdb'⟩ := bind_eq_ok.mp h
    cases hdb'
    rcases retry_eq_ok hs.db.sessions hr with hsame | ⟨session, snapshot, -, hretried⟩
    · exact .kept (.of_jobs (by rw [hsame]) (by rw [hsame]) (by rw [hsame]))
    · exact .retried session snapshot actorId hretried
  | claimNext owner leaseSeconds kinds leaseToken attemptId locked =>
    obtain ⟨r, hr, hdb'⟩ := bind_eq_ok.mp h
    cases hdb'
    rcases claimNext_step hr with ⟨-, hsame⟩ | ⟨row, claimed, -, hgrant⟩
    · exact .kept (.of_jobs (by rw [hsame]) (by rw [hsame]) (by rw [hsame]))
    · -- a claim takes a pending job, or a running one whose lease has expired
      have hworks : Works row.state .running := by
        rcases hgrant.available with hpending | ⟨hrunning, -⟩
        · exact works_of_mem (Or.inl hpending)
        · exact works_of_mem (Or.inr (Or.inl hrunning))
      exact .kept (.of_setJob hids hgrant.mem (hgrant.jobs.trans (List.append_nil _).symm) rfl
        (fun _ ↦ Or.inr hworks) (List.forall_mem_nil _) (by rw [hgrant.other])
        (by rw [hgrant.other]))
  | heartbeat claimed leaseSeconds =>
    obtain ⟨r, hr, hdb'⟩ := bind_eq_ok.mp h
    cases hdb'
    obtain ⟨row, -, hext⟩ := heartbeat_step hids hr
    rw [hext.store]
    exact .kept (.of_setJob hids hext.mem (List.append_nil _).symm rfl (fun _ ↦ Or.inl rfl)
      (List.forall_mem_nil _) rfl rfl)
  | completeLane claimed outcome resultId reportJobId =>
    obtain ⟨r, hr, hdb'⟩ := bind_eq_ok.mp h
    cases hdb'
    obtain ⟨hissued, hkind⟩ := hpresented _ rfl
    obtain ⟨p, hp, kind, hident, row, hrow, hid, hlane⟩ :=
      exists_lane_of_issued hs hnamed hissued hkind
    obtain ⟨execution, hexecution, hcomplete⟩ := bind_eq_ok.mp hr
    obtain ⟨e, rfl⟩ := laneExecution_isSome hident hexecution
    obtain ⟨hsnapshot, hekind, -⟩ := laneExecution_names hident hexecution
    obtain ⟨snapshot, session, aggregate, ⟨row', rows, hdone, hreports⟩, hl⟩ :=
      completeExecution_step hids hexecution hcomplete
    obtain rfl : row' = row := eq_of_key_eq hids hdone.mem hrow (hdone.id.trans hid.symm)
    obtain rfl : snapshot = p := eq_of_key_eq hs.db.snapshots hl.snapshot_mem hp
      (hl.snapshot_id.trans hsnapshot)
    rw [← hekind] at hlane
    exact .completed claimed e snapshot session aggregate row' rows hlane hdone hreports
      (laneExecution_agrees hexecution) hl
  | completeSuggestions claimed outcome resultId =>
    obtain ⟨r, hr, hdb'⟩ := bind_eq_ok.mp h
    cases hdb'
    obtain ⟨row, targetState, errorCode, hdone, -⟩ := completeSuggestions_completed hids hr
    obtain ⟨hissued, hkind⟩ := hpresented _ rfl
    have hreport : row.kind ∉ [JobKind.summary, .research] := by
      rw [hdone.kind hs hissued, List.mem_singleton.mp hkind]
      decide
    rcases completeSuggestions_step hids hr with hb | ⟨-, _, hc⟩
    · exact .kept (hdone.lanesKept hids hreport hb.writes.same.generationRuns
        hb.writes.same.generationSnapshots)
    · exact .kept (hdone.lanesKept hids hreport hc.runs hc.snapshots)
  | enqueueExtraction jobId revisionId =>
    obtain ⟨r, hr, hdb'⟩ := bind_eq_ok.mp h
    cases hdb'
    obtain ⟨rows, hins, hother, hrows⟩ := enqueue_step hr
    refine .kept (.of_inserted hins (fun new hnew ↦ ?_) (by rw [hother]) (by rw [hother]))
    obtain ⟨k, hk, rfl⟩ := hrows new hnew
    cases k <;> first | exact absurd hk (by decide) | exact (by decide : JobKind.extraction ∉ [JobKind.summary, .research])
  | completeExtraction claimed targetState result errorCode writes resultId =>
    obtain ⟨r, hr, hdb'⟩ := bind_eq_ok.mp h
    cases hdb'
    obtain ⟨row, -, -, s₂, heffect, hother, hcompleted⟩ := completeWithEffects_eq_ok hids hr
    cases heffect
    have hdone := hcompleted [] (Inserted.refl _ _)
    obtain ⟨hissued, hkind⟩ := hpresented _ rfl
    have hextraction : row.kind ∉ [JobKind.summary, .research] := by
      rw [hdone.kind hs hissued, List.mem_singleton.mp hkind]
      decide
    exact .kept (hdone.lanesKept hids hextraction (by rw [hother]; rfl) (by rw [hother]; rfl))
  | requeue claimed =>
    obtain ⟨r, hr, hdb'⟩ := bind_eq_ok.mp h
    cases hdb'
    rcases requeueBody_cases hids hr with hsame | ⟨row, hrequeued⟩
    · exact .kept (.of_jobs (by rw [hsame]) (by rw [hsame]) (by rw [hsame]))
    · rw [hrequeued.store]
      exact .kept (.of_setJob hids hrequeued.mem (List.append_nil _).symm rfl
        (fun _ ↦ Or.inr (works_of_mem (Or.inr (Or.inr hrequeued.failed)) (List.mem_cons_self ..)))
        (List.forall_mem_nil _) rfl rfl)
  | elsewhere writes =>
    cases h
    exact .kept (.of_jobs rfl rfl rfl)

end Calls

/-! ## Runs of the system -/

/-- The rows of the lanes agree, and every snapshot names its pipeline. -/
structure SystemState.Coupled (s : SystemState) : Prop where
  sound : s.Sound
  laneJobs : LaneJobs s.db
  named : Named s.db
  agree : LanesAgree s.db

theorem coupled_empty (now : Timestamp) : (emptySystem now).Coupled where
  sound := sound_empty now
  laneJobs := laneJobs_empty
  named := List.forall_mem_nil _
  agree := List.forall_mem_nil _

/-- **The step lemma.** -/
theorem SystemState.Coupled.step {s : SystemState} (h : s.Coupled) {i : SystemInput}
    (henabled : systemMachine.enabled s i) : (systemMachine.step s i).2.Coupled := by
  have hw := h.sound.db
  suffices hrows : Named (systemMachine.step s i).2.db ∧ LanesAgree (systemMachine.step s i).2.db from
    ⟨h.sound.step i, h.laneJobs.step hw (systemMachine_step h.sound i), hrows.1, hrows.2⟩
  cases hreply : (systemMachine.step s i).1 with
  | error e =>
    rw [systemMachine_rollback hreply]
    exact ⟨h.named, h.agree⟩
  | ok reply =>
    cases SystemCall.body_lanes h.sound h.named henabled (systemMachine_eq_ok.mp hreply) with
    | kept hkept => exact ⟨h.named.kept hkept, h.agree.kept hkept⟩
    | closed session request draws included schema named hc =>
      refine ⟨fun p hp ↦ ?_, h.agree.closed hw hc⟩
      rw [(hc.added hw).snapshots] at hp
      rcases List.mem_append.mp hp with hp | hp
      · exact h.named p hp
      · rw [List.mem_singleton.mp hp]
        exact named
    | retried session snapshot actorId hr =>
      refine ⟨fun p hp ↦ h.named p ?_, h.agree.retried hw h.laneJobs hr⟩
      rw [hr.result] at hp
      exact hp
    | completed claimed e snapshot session aggregate row rows lane done reports outcome hl =>
      refine ⟨fun p hp ↦ h.named p (hl.snapshots ▸ hp), ?_⟩
      exact h.agree.completed hw lane done reports outcome hl

theorem reachable_coupled {now : Timestamp} {s : SystemState}
    (h : systemMachine.Reachable (emptySystem now) s) : s.Coupled :=
  h.invariant (coupled_empty now) fun _ _ hs henabled ↦ hs.step henabled

/-! ## Completions find a run to write -/

/-- The exception of a completion that finds no run to write. -/
def notWritable : Error := .generationRepository "canonical generation run is not writable"

section NotWritable

variable {db : Database} {reportJobId : UUID} {createdAt : Timestamp}

theorem record_not_raises {e : AuditEvent} {effects : List NotificationEffect} {t : ActivityTables} :
    ¬Raises (· = notWritable) (record e effects t) := by
  rw [record]
  split
  · exact not_raises_ok
  · refine not_raises_foldlM fun t effect _ ↦ ?_
    exact not_raises_bind (not_raises_require (by decide)) fun _ _ ↦
      not_raises_bind (not_raises_require (by decide)) fun _ _ ↦ not_raises_ok

/-- The projection of the runs into the session raises other exceptions only. -/
theorem recomputeAggregate_not_raises {snapshotId : UUID} :
    ¬Raises (· = notWritable) (recomputeAggregate reportJobId createdAt snapshotId db) := by
  have hproject : ¬Raises (· = notWritable) (projectRuns db snapshotId) := by
    refine not_raises_bind (not_raises_mapM fun r _ ↦ ?_) fun views _ ↦ ?_
    · refine not_raises_bind (not_raises_require (by decide)) fun _ _ ↦ ?_
      rw [GenerationRunView.new]
      split
      · exact not_raises_ok
      · rw [raises_error]
        decide
    · dsimp only [projectGenerationAggregate]
      split_ifs <;> first | exact not_raises_ok | (rw [raises_error]; decide)
  have hwrite : ∀ session state, ¬Raises (· = notWritable) (writeAggregate session state db) := by
    intro session state
    rw [writeAggregate]
    split
    · exact not_raises_ok
    · refine not_raises_bind (not_raises_require (by decide)) fun _ _ ↦ ?_
      refine not_raises_bind ?_ fun event _ ↦
        not_raises_bind record_not_raises fun _ _ ↦ not_raises_ok
      cases state <;> first | exact not_raises_ok | (rw [stateEvent, raises_error]; decide)
  have hreport : ∀ snapshot state db, ¬Raises (· = notWritable)
      (enqueueReport reportJobId createdAt snapshot state db) := by
    intro snapshot state db
    rw [enqueueReport]
    split
    · refine not_raises_bind ?_ fun _ _ ↦ not_raises_ok
      rw [insertJobOrIgnore, insertJob, insertUnique]
      split_ifs <;> first | exact not_raises_ok | (rw [raises_error]; decide)
    · exact not_raises_ok
  have hsession : ¬Raises (· = notWritable) (requireSnapshotSession db snapshotId) := by
    rw [requireSnapshotSession]
    split
    · rw [raises_error]
      decide
    · exact not_raises_ok
  exact not_raises_bind hsession fun _ _ ↦ not_raises_bind (not_raises_require (by decide))
    fun _ _ ↦ not_raises_bind hproject fun _ _ ↦ not_raises_bind (hwrite _ _)
    fun _ _ ↦ not_raises_bind (hreport _ _ _) fun _ _ ↦ not_raises_ok

/-- Persisting an execution whose run is writable raises no `notWritable` of its own. -/
theorem GenerationExecution.persist_not_raises {e : GenerationExecution} (hident : e.Identified)
    (hone : rowcount (WritableRun e.snapshotId e.kind e.pipelineVersion)
      db.other.generationRuns = 1)
    (hcontents : ∀ c ∈ e.completion, c.contents ≠ .error notWritable) :
    ¬Raises (· = notWritable) (e.persist reportJobId createdAt db) := by
  rw [GenerationExecution.persist]
  split
  · next c hc =>
    obtain ⟨hs, hk, hp⟩ := hident c hc
    refine not_raises_bind ?_ fun written _ ↦ ?_
    · dsimp only [markRunSucceeded]
      rw [hs, hk, hp]
      obtain ⟨run, hrun, hwritable⟩ := rowcount_pos.mp (hone ▸ Nat.one_pos)
      cases hfind : db.other.generationRuns.find?
          (WritableRun e.snapshotId e.kind e.pipelineVersion) with
      | none =>
        exact absurd (decide_eq_true hwritable) (List.find?_eq_none.mp hfind run hrun)
      | some run => exact not_raises_ok
    · refine not_raises_bind ?_ fun documents _ ↦ not_raises_bind ?_ fun _ _ ↦
        recomputeAggregate_not_raises
      · rw [insertUnique]
        split
        · rw [raises_error]
          decide
        · exact not_raises_ok
      · rintro ⟨e', he', rfl⟩
        exact hcontents c hc he'
  · refine not_raises_bind (not_raises_require (by decide)) fun _ _ ↦
      not_raises_bind (not_raises_require (by decide)) fun _ _ ↦ ?_
    dsimp only
    rw [require_of hone]
    exact recomputeAggregate_not_raises

/-- A completion raises `notWritable` only in its effect. -/
theorem completeWithEffects_not_raises {claimed : ClaimedJob JobDocument} {targetState : JobState}
    {result : JobDocument} {errorCode : Option String}
    {effect : Option (Database → Except Error Database)} {resultId : UUID} {clock : StatementClock}
    (heffect : ∀ jobs, ¬Raises (· = notWritable) (runEffect effect { db with jobs := jobs })) :
    ¬Raises (· = notWritable)
      (completeWithEffects claimed targetState result errorCode effect resultId clock db) := by
  refine not_raises_bind ?_ fun _ _ ↦ not_raises_bind (not_raises_require (by decide)) fun _ _ ↦
    not_raises_bind (heffect _) fun _ _ ↦ not_raises_bind ?_ fun _ _ ↦
    not_raises_bind (not_raises_require (by decide)) fun _ _ ↦ not_raises_ok
  · refine not_raises_bind (not_raises_require (by decide)) fun _ _ ↦ ?_
    split
    · exact not_raises_require (by decide)
    · split
      · rw [raises_error]
        decide
      · exact not_raises_bind (not_raises_require (by decide)) fun _ _ ↦
          not_raises_require (by decide)
  · rw [storeResult]
    split
    · refine not_raises_bind (not_raises_require (by decide)) fun _ _ ↦
        not_raises_bind ?_ fun _ _ ↦ not_raises_ok
      rw [insertUnique]
      split
      · rw [raises_error]
        decide
      · exact not_raises_ok
    · exact not_raises_ok

end NotWritable

section LaneExecution

variable {claimed : ClaimedJob JobDocument} {outcome : ProviderOutcome} {e : GenerationExecution}

/-- What the inserts of a provider result answer. -/
def ProviderOutcome.contents : ProviderOutcome → Except Error Unit
  | .generated _ _ _ _ _ contents => contents
  | .providerFailure .. | .groundingFailure .. | .retrievalContextInvalid | .runnerError => .ok ()

theorem GenerationExecution.new_not_raises {snapshotId : UUID} {kind : GenerationKind}
    {pipelineVersion : String} {targetState : JobState} {result : JobDocument}
    {errorCode : Option String} {retryable : Bool} {completion : Option GenerationCompletion} :
    ¬Raises (· = notWritable) (GenerationExecution.new snapshotId kind pipelineVersion targetState
      result errorCode retryable completion) := by
  have hinit : ¬Raises (· = notWritable) (GenerationExecution.postInit pipelineVersion targetState
      errorCode retryable completion) := by
    refine not_raises_bind (not_raises_require (by decide)) fun _ _ ↦ ?_
    split
    · exact not_raises_require (by decide)
    · exact not_raises_bind (not_raises_require (by decide)) fun _ _ ↦
        not_raises_require (by decide)
  unfold GenerationExecution.new
  split
  · exact not_raises_ok
  · next e he =>
    rw [he] at hinit
    rw [raises_error] at hinit ⊢
    exact hinit

theorem laneExecution_not_raises : ¬Raises (· = notWritable) (laneExecution claimed outcome) := by
  refine not_raises_bind ?_ fun before _ ↦ ?_
  · rw [executeSafely]
    split
    · next hnone =>
      rw [failureForClaim, hnone]
      exact not_raises_ok
    · refine not_raises_bind ?_ fun _ _ ↦ not_raises_ok
      cases outcome with
      | generated documentId structuredContent provider model promptVersion contents =>
        refine not_raises_bind ?_ fun _ _ ↦ GenerationExecution.new_not_raises
        exact not_raises_bind (not_raises_require (by decide)) fun _ _ ↦
          not_raises_bind (not_raises_require (by decide)) fun _ _ ↦
          not_raises_bind (not_raises_require (by decide)) fun _ _ ↦
          not_raises_require (by decide)
      | providerFailure code retryable => exact GenerationExecution.new_not_raises
      | groundingFailure code => exact GenerationExecution.new_not_raises
      | retrievalContextInvalid => exact GenerationExecution.new_not_raises
      | runnerError => exact GenerationExecution.new_not_raises
  · cases before with
    | none => exact not_raises_ok
    | some b =>
      rw [capResearchRetries]
      split
      · exact not_raises_ok
      · exact not_raises_bind GenerationExecution.new_not_raises fun _ _ ↦ not_raises_ok

/-- The completion of a lane carries the contents of its provider result. -/
theorem laneExecution_contents (h : laneExecution claimed outcome = .ok (some e)) :
    ∀ c ∈ e.completion, c.contents = outcome.contents := by
  obtain ⟨before, hbefore, hcap⟩ := bind_eq_ok.mp h
  have hexecuted : ∀ b, before = some b → ∀ c ∈ b.completion, c.contents = outcome.contents := by
    rintro b rfl
    unfold executeSafely failureForClaim at hbefore
    split at hbefore
    · exact nomatch hbefore
    · obtain ⟨b', hb', heq⟩ := bind_eq_ok.mp hbefore
      cases heq
      intro c hc
      have hnone : ∀ {snapshotId kind pipelineVersion targetState result errorCode retryable},
          GenerationExecution.new snapshotId kind pipelineVersion targetState result errorCode
            retryable none = .ok b → False := by
        intro _ _ _ _ _ _ _ hnew
        rw [(GenerationExecution.new_eq_ok hnew).2.2.2] at hc
        exact nomatch hc
      cases outcome with
      | generated documentId structuredContent provider model promptVersion contents =>
        obtain ⟨-, -, hnew⟩ := bind_eq_ok.mp hb'
        rw [(GenerationExecution.new_eq_ok hnew).2.2.2] at hc
        cases hc
        rfl
      | providerFailure code retryable => exact (hnone hb').elim
      | groundingFailure code => exact (hnone hb').elim
      | retrievalContextInvalid => exact (hnone hb').elim
      | runnerError => exact (hnone hb').elim
  cases before with
  | none => exact nomatch hcap
  | some b =>
    rw [capResearchRetries] at hcap
    split at hcap
    · cases hcap
      exact hexecuted e rfl
    · obtain ⟨capped, hnew, heq⟩ := bind_eq_ok.mp hcap
      cases heq
      rw [(GenerationExecution.new_eq_ok hnew).2.2.2]
      exact hexecuted b rfl

end LaneExecution

/-- **A completion whose lease is current finds its run writable.** -/
theorem completeLane_not_raises {s : SystemState} (hs : s.Coupled) (hdocumented : Documented s.db)
    {claimed : ClaimedJob JobDocument} {outcome : ProviderOutcome} {resultId reportJobId : UUID}
    {clock : StatementClock} (hissued : claimed ∈ s.issued)
    (hkind : claimed.kind ∈ [JobKind.summary, .research])
    (hlease : ∃ row ∈ s.db.jobs, Fenced claimed clock.seen row)
    (hcontents : outcome.contents ≠ .error notWritable) :
    completeLane claimed outcome resultId reportJobId clock s.db ≠ .error notWritable := by
  obtain ⟨p, hp, kind, hident, row, hrow, hid, hlane⟩ :=
    exists_lane_of_issued hs.sound hs.named hissued hkind
  suffices h : ¬Raises (· = notWritable)
      (completeLane claimed outcome resultId reportJobId clock s.db) from
    fun hraise ↦ h ⟨_, hraise, rfl⟩
  refine not_raises_bind laneExecution_not_raises fun execution hexecution ↦ ?_
  obtain ⟨e, rfl⟩ := laneExecution_isSome hident hexecution
  obtain ⟨_, _, _, -, -, hidentified⟩ := laneExecution_isFor hexecution
  obtain ⟨hsnapshot, rfl, hversion⟩ := laneExecution_names hident hexecution
  refine completeWithEffects_not_raises fun jobs ↦ not_raises_bind ?_ fun _ _ ↦ not_raises_ok
  refine GenerationExecution.persist_not_raises hidentified ?_ fun c hc ↦ ?_
  · -- the fenced job is running, so its run may still be written
    obtain ⟨row', hrow', hfenced⟩ := hlease
    obtain rfl : row' = row :=
      eq_of_key_eq hs.sound.db.queue.ids hrow' hrow (hfenced.1.trans hid.symm)
    obtain ⟨r, hr, hrp, hrkind, hrversion, hrstate⟩ := (hs.sound.db.lanes p hp).exists_run e.kind
    have hwritable := (hs.agree p hp e.kind row' hrow hlane).working (by rw [hfenced.2.1]; decide)
    rw [← hrstate] at hwritable
    refine (rowcount_eq_one (k := r.id) hdocumented.runIds fun r' hr' hr'w ↦ ?_).mpr
      ⟨r, hr, hrp.trans hsnapshot.symm, hrkind, hrversion.trans hversion.symm, hwritable⟩
    exact congrArg GenerationRun.id
      ((hs.sound.db.lanes p hp).run_unique hr' hr (hr'w.1.trans hsnapshot) hrp (hr'w.2.1.trans hrkind.symm))
  · rw [laneExecution_contents hexecution c hc]
    exact hcontents

/-! ## The correspondence -/

/-- The run that a lane's job is for. -/
def RunOfJob (j : Job JobDocument) (r : GenerationRun) : Prop :=
  j.snapshotId = some r.snapshotId ∧ j.kind = r.kind.jobKind

instance (j : Job JobDocument) : DecidablePred (RunOfJob j) := fun r ↦
  inferInstanceAs (Decidable (j.snapshotId = some r.snapshotId ∧ j.kind = r.kind.jobKind))

/-- How a job of a lane and its run go together. -/
structure Corresponds (db : Database) (j : Job JobDocument) (r : GenerationRun) : Prop where
  succeeded : j.state = .succeeded ↔
    r.state = .succeeded ∧ rowcount (·.runId = r.id) db.other.generatedDocuments = 1
  failedTerminal : j.state = .failedTerminal ↔ r.state = .failedTerminal
  failedRetryable : j.state = .failedRetryable → r.state = .failedRetryable
  working : j.state ∈ [JobState.pending, .running] →
    r.state ∈ [GenerationRunState.queued, .running, .failedRetryable]

theorem Agrees.corresponds {db : Database} (hd : Documented db) {j : Job JobDocument}
    {r : GenerationRun} (hr : r ∈ db.other.generationRuns) (h : Agrees j.state r.state) :
    Corresponds db j r where
  succeeded := by
    rw [h.succeeded]
    refine ⟨fun hstate ↦ ⟨hstate, ?_⟩, And.left⟩
    exact (rowcount_eq_one (k := r.id) hd.documentRuns fun _ _ hrun ↦ hrun).mpr
      (hd.present r hr hstate)
  failedTerminal := h.failedTerminal
  failedRetryable := h.failedRetryable
  working := h.working

/-- The job of a lane is a job of one snapshot. -/
theorem exists_laneJob {db : Database} (hw : Wellformed db) {j : Job JobDocument} (hj : j ∈ db.jobs)
    (hkind : j.kind ∈ [JobKind.summary, .research]) :
    ∃ p ∈ db.other.generationSnapshots, ∃ kind, LaneJob p kind j := by
  cases hw.jobs j hj with
  | extraction revisionId key jobKind =>
    exact absurd hkind ((show j.kind = .extraction from jobKind) ▸ by decide)
  | lane p mem kind key jobKind snapshotId => exact ⟨p, mem, kind, key, jobKind, snapshotId⟩
  | report p mem key jobKind =>
    exact absurd hkind ((show j.kind = .reportSuggestions from jobKind) ▸ by decide)

/-- **The jobs of the lanes correspond to their runs**, in every reachable state: each such job is
for exactly one run, the states of the two go together, and a completion under a lease that is still
current finds its run writable. -/
theorem runs_correspond_to_jobs (now : Timestamp) (s : SystemState)
    (h : systemMachine.Reachable (emptySystem now) s) :
    (∀ j ∈ s.db.jobs, j.kind ∈ [JobKind.summary, .research] →
      rowcount (RunOfJob j) s.db.other.generationRuns = 1) ∧
    (∀ j ∈ s.db.jobs, ∀ r ∈ s.db.other.generationRuns, RunOfJob j r → Corresponds s.db j r) ∧
    ∀ clock claimed outcome resultId reportJobId,
      systemMachine.enabled s ⟨clock, .completeLane claimed outcome resultId reportJobId⟩ →
      (∃ row ∈ s.db.jobs, Fenced claimed clock.seen row) →
      outcome.contents ≠ .error notWritable →
      (systemMachine.step s ⟨clock, .completeLane claimed outcome resultId reportJobId⟩).1 ≠
        .error notWritable := by
  have hs := reachable_coupled h
  have hd := reachable_documented h
  have hlane : ∀ j ∈ s.db.jobs, j.kind ∈ [JobKind.summary, .research] →
      ∃ r ∈ s.db.other.generationRuns, RunOfJob j r ∧ Agrees j.state r.state ∧
        ∀ r' ∈ s.db.other.generationRuns, RunOfJob j r' → r' = r := by
    intro j hj hkind
    obtain ⟨p, hp, kind, hlane⟩ := exists_laneJob hs.sound.db hj hkind
    have hlanes := hs.sound.db.lanes p hp
    obtain ⟨r, hr, hrp, rfl, -, hrstate⟩ := hlanes.exists_run kind
    refine ⟨r, hr, ⟨hrp ▸ hlane.2.2, hlane.2.1⟩, hrstate ▸ hs.agree p hp r.kind j hj hlane, ?_⟩
    intro r' hr' hof
    exact hlanes.run_unique hr' hr (Option.some.inj (hof.1.symm.trans hlane.2.2)) hrp
      (jobKind_injective (hof.2.symm.trans hlane.2.1))
  refine ⟨fun j hj hkind ↦ ?_, fun j hj r hr hof ↦ ?_, ?_⟩
  · obtain ⟨r, hr, hof, -, hunique⟩ := hlane j hj hkind
    exact (rowcount_eq_one (k := r.id) hd.runIds fun r' hr' hof' ↦
      congrArg GenerationRun.id (hunique r' hr' hof')).mpr ⟨r, hr, hof⟩
  · have hkind : j.kind ∈ [JobKind.summary, .research] := by
      rw [hof.2]
      cases r.kind <;> decide
    obtain ⟨r', hr', -, hagrees, hunique⟩ := hlane j hj hkind
    rw [← hunique r hr hof] at hagrees
    exact hagrees.corresponds hd hr
  · intro clock claimed outcome resultId reportJobId henabled hlease hcontents hreply
    obtain ⟨hissued, hkind⟩ := henabled.2 _ rfl
    have hcomplete : completeLane claimed outcome resultId reportJobId clock s.db ≠
        .error notWritable :=
      completeLane_not_raises hs hd hissued hkind hlease hcontents
    have hraises : Raises (· = notWritable)
        (completeLane claimed outcome resultId reportJobId clock s.db) := by
      have hstep : Raises (· = notWritable) (transaction s.db (SystemCall.body clock s.db
          (.completeLane claimed outcome resultId reportJobId))).1 := ⟨_, hreply, rfl⟩
      have hbody := raises_transaction.mp hstep
      rcases raises_bind.mp hbody with hraises | ⟨a, -, hraises⟩
      · exact hraises
      · exact absurd hraises not_raises_ok
    obtain ⟨_, he, rfl⟩ := hraises
    exact hcomplete he

/-- The second attempt of a research lane, whose run its first attempt has left failed. -/
theorem runs_correspond_to_jobs_of_putBack :
    let s := systemMachine.exec (emptySystem 0) researchPutBack
    (∀ j ∈ s.db.jobs, j.kind ∈ [JobKind.summary, .research] →
      rowcount (RunOfJob j) s.db.other.generationRuns = 1) ∧
    (∀ j ∈ s.db.jobs, ∀ r ∈ s.db.other.generationRuns, RunOfJob j r → Corresponds s.db j r) ∧
    (systemMachine.step s (callAt 9
      (.completeLane (laneLease 100 .research 2 55) (resultFor 62) 75 76))).1 ≠
        .error notWritable := by
  obtain ⟨hone, hcorresponds, hwritable⟩ :=
    runs_correspond_to_jobs 0 (systemMachine.exec (emptySystem 0) researchPutBack)
      ⟨researchPutBack, by decide +kernel, rfl⟩
  exact ⟨hone, hcorresponds, hwritable _ _ _ _ _ (by decide +kernel) (by decide +kernel)
    (by decide)⟩

end MeetingRag
