import MeetingRag.System.Snapshots

/-!
# Retrying by the host

A retry puts the failed lanes of the latest snapshot back, each with its job. The run of a lane and
its job are two rows in two tables. A host moves them together, but a worker that puts a research job
back moves the job alone. `RetriesAll` is what a retry is for, and it happens exactly when the job of
every failed run is still where the failure left it.
-/

open Outcome Table Text

namespace MeetingRag

/-- A failed run of a snapshot that may be retried. -/
def FailedRun (p : GenerationSnapshot) (r : GenerationRun) : Prop :=
  r.snapshotId = p.id ∧ r.state = .failedRetryable

/-- The job of a run of a snapshot. -/
def JobOfRun (p : GenerationSnapshot) (r : GenerationRun) (j : Job JobDocument) : Prop :=
  j.snapshotId = some p.id ∧ j.kind = r.kind.jobKind

/-- The job of a failed run. -/
def JobOfFailedRun (db : Database) (p : GenerationSnapshot) (j : Job JobDocument) : Prop :=
  ∃ r ∈ db.other.generationRuns, FailedRun p r ∧ JobOfRun p r j

instance (p : GenerationSnapshot) : DecidablePred (FailedRun p) := fun r ↦
  inferInstanceAs (Decidable (r.snapshotId = p.id ∧ r.state = .failedRetryable))

instance (p : GenerationSnapshot) (r : GenerationRun) : DecidablePred (JobOfRun p r) := fun j ↦
  inferInstanceAs (Decidable (j.snapshotId = some p.id ∧ j.kind = r.kind.jobKind))

instance (db : Database) (p : GenerationSnapshot) : DecidablePred (JobOfFailedRun db p) := fun j ↦
  inferInstanceAs (Decidable (∃ r ∈ db.other.generationRuns, FailedRun p r ∧ JobOfRun p r j))

/-- The host's retry returns. It has put back the failed runs of the snapshot and their jobs, each of
them has a job, no other run and no other job has changed, and the session is processing. -/
def RetriesAll (db : Database) (t : TalkSession) (p : GenerationSnapshot) : Prop :=
  match retry t.id t.hostId db with
  | .error _ => False
  | .ok (_, db') =>
    db'.other.generationRuns = updateWhere (FailedRun p) requeuedRun db.other.generationRuns ∧
      db'.jobs = updateWhere (JobOfFailedRun db p) requeuedJob db.jobs ∧
      (∀ r ∈ db.other.generationRuns, FailedRun p r → ∃ j ∈ db.jobs, JobOfRun p r j) ∧
      db'.other.talkSessions = setSession t.id retriedSession db.other.talkSessions

instance (db : Database) (t : TalkSession) (p : GenerationSnapshot) :
    Decidable (RetriesAll db t p) := by
  unfold RetriesAll
  split <;> infer_instance

variable {db db' : Database} {p : GenerationSnapshot} {t : TalkSession}

/-! ## The lanes of a reachable state -/

/-- A job with the snapshot and the kind of a lane is the job of that lane. -/
theorem Wellformed.laneJob (hw : Wellformed db) (hp : p ∈ db.other.generationSnapshots)
    {j : Job JobDocument} (hj : j ∈ db.jobs) {kind : GenerationKind}
    (hid : j.snapshotId = some p.id) (hkind : j.kind = kind.jobKind) : LaneJob p kind j := by
  refine ⟨?_, hkind, hid⟩
  cases hw.jobs j hj with
  | extraction revisionId key jobKind =>
    have h : JobKind.extraction = kind.jobKind := jobKind.symm.trans hkind
    cases kind <;> exact nomatch h
  | lane q mem k key jobKind snapshotId payload =>
    have hsame : q = p :=
      eq_of_key_eq hw.snapshots mem hp (Option.some.inj (snapshotId.symm.trans hid))
    have hk : k = kind := jobKind_injective (jobKind.symm.trans hkind)
    rw [hsame, hk] at key
    exact key
  | report q mem key jobKind snapshotId payload =>
    have h : JobKind.reportSuggestions = kind.jobKind := jobKind.symm.trans hkind
    cases kind <;> exact nomatch h

/-- A failed job of a reachable state was released by its worker. -/
theorem retryableJob_iff (hw : Wellformed db) {j : Job JobDocument} (hj : j ∈ db.jobs)
    {snapshotId : UUID} {kind : GenerationKind} : RetryableJob snapshotId kind j ↔
      j.snapshotId = some snapshotId ∧ j.kind = kind.jobKind ∧ j.state = .failedRetryable := by
  constructor
  · exact fun h ↦ ⟨h.1, h.2.1, h.2.2.1⟩
  · rintro ⟨hid, hkind, hstate⟩
    have hreleased : j.state ≠ .running := by
      rw [hstate]
      exact nofun
    obtain ⟨howner, htoken, huntil⟩ := (hw.queue.coherent j hj).free hreleased
    exact ⟨hid, hkind, hstate, htoken, howner, huntil⟩

/-- The failed run of a lane is one row. -/
theorem rowcount_retryableRun (hlanes : Lanes db.other.generationRuns p) {kind : GenerationKind}
    (hkind : kind ∈ retryableKinds (runsOf db p.id)) :
    rowcount (RetryableRun p.id kind) db.other.generationRuns = 1 := by
  obtain ⟨summary, research, hpair, hsummary, hresearch⟩ := hlanes.exists_pair
  have hskind : summary.kind = .summary := congrArg Prod.fst hsummary
  have hrkind : research.kind = .research := congrArg Prod.fst hresearch
  -- The rows of the table that count are those of the pair.
  have hcount : rowcount (RetryableRun p.id kind) db.other.generationRuns =
      rowcount (fun r ↦ r.kind = kind ∧ r.state = .failedRetryable) (runsOf db p.id) := by
    rw [rowcount, rowcount, runsOf, List.countP_filter]
    refine List.countP_congr fun r _ ↦ ?_
    rw [Bool.and_eq_true, decide_eq_true_eq, decide_eq_true_eq, decide_eq_true_eq]
    exact ⟨fun h ↦ ⟨h.2, h.1⟩, fun h ↦ ⟨h.2, h.1⟩⟩
  obtain ⟨r, hr, hstate, hrk⟩ := mem_retryableKinds.mp hkind
  rw [hcount]
  rw [hpair] at hr ⊢
  rcases List.mem_pair.mp hr with rfl | rfl
  · rw [← hrk, hskind]
    simp [rowcount, hskind, hrkind, hstate]
  · rw [← hrk, hrkind]
    simp [rowcount, hskind, hrkind, hstate]

theorem nodup_retryableKinds (hlanes : Lanes db.other.generationRuns p) :
    (retryableKinds (runsOf db p.id)).Nodup := by
  obtain ⟨summary, research, hpair, hsummary, hresearch⟩ := hlanes.exists_pair
  have hskind : summary.kind = .summary := congrArg Prod.fst hsummary
  have hrkind : research.kind = .research := congrArg Prod.fst hresearch
  have hsub : (retryableKinds (runsOf db p.id)).Sublist ((runsOf db p.id).map (·.kind)) :=
    List.filter_sublist.map _
  refine hsub.nodup ?_
  rw [hpair]
  simp [hskind, hrkind]

/-- A failed lane can be put back exactly when its job is still the failed one. -/
theorem laneRetryable_iff (hw : Wellformed db) (hjobs : LaneJobs db)
    (hp : p ∈ db.other.generationSnapshots) {kind : GenerationKind}
    (hkind : kind ∈ retryableKinds (runsOf db p.id)) : LaneRetryable db p.id kind ↔
      ∀ j ∈ db.jobs, j.snapshotId = some p.id → j.kind = kind.jobKind →
        j.state = .failedRetryable := by
  have hkey : ∀ j ∈ db.jobs, RetryableJob p.id kind j →
      j.logicalKey = generationKey p.id kind p.pipelineVersion :=
    fun j hj hretry ↦ (hw.laneJob hp hj hretry.1 hretry.2.1).1
  rw [LaneRetryable, rowcount_eq_one hw.queue.keys hkey,
    and_iff_left (rowcount_retryableRun (hw.lanes p hp) hkind)]
  constructor
  · rintro ⟨j₀, hj₀, hretry⟩ j hj hid hjkind
    have hsame : j = j₀ := eq_of_key_eq hw.queue.keys hj hj₀
      ((hw.laneJob hp hj hid hjkind).1.trans (hkey j₀ hj₀ hretry).symm)
    rw [hsame]
    exact hretry.2.2.1
  · intro hfailed
    obtain ⟨j, hj, -, hjkind, hid⟩ := hjobs p hp kind
    exact ⟨j, hj, (retryableJob_iff hw hj).mpr ⟨hid, hjkind, hfailed j hj hid hjkind⟩⟩

/-! ## The retry of a host -/

theorem retry_of_attention (hids : UniqueSessions db) (ht : t ∈ db.other.talkSessions)
    (hstate : t.state = .needsAttention) (hlatest : latestSnapshot db t.id = some p)
    {actorId : UUID} {view : RetrySessionView} :
    retry t.id actorId db = .ok (view, db') ↔
      (ActiveMember db t.roomId actorId ∧ t.hostId = actorId) ∧
        retryFailed t p.id actorId db = .ok (view, db') := by
  have hprocessing : t.state ≠ .processing := by
    rw [hstate]
    exact nofun
  simp only [retry, bind_eq_ok, requireHostedSession_eq_ok, lockSession_eq_some hids,
    requireLatestSnapshot_eq_ok]
  constructor
  · rintro ⟨s, ⟨⟨hs, hid, hmember⟩, hhost⟩, q, hq, hbody⟩
    obtain rfl : s = t := eq_of_key_eq hids hs ht hid
    obtain rfl : q = p := Option.some.inj (hq.symm.trans hlatest)
    rw [if_neg hprocessing] at hbody
    exact ⟨⟨hmember, hhost⟩, hbody⟩
  · rintro ⟨⟨hmember, hhost⟩, hbody⟩
    refine ⟨t, ⟨⟨ht, rfl, hmember⟩, hhost⟩, p, hlatest, ?_⟩
    rw [if_neg hprocessing]
    exact hbody

/-- The kinds that a retry puts back are those of the failed runs. -/
theorem mem_retryableKinds_runsOf {kind : GenerationKind} :
    kind ∈ retryableKinds (runsOf db p.id) ↔
      ∃ r ∈ db.other.generationRuns, FailedRun p r ∧ r.kind = kind := by
  rw [mem_retryableKinds]
  constructor
  · rintro ⟨r, hr, hstate, hkind⟩
    obtain ⟨hmem, hid⟩ := List.mem_filter.mp hr
    exact ⟨r, hmem, ⟨of_decide_eq_true hid, hstate⟩, hkind⟩
  · rintro ⟨r, hmem, ⟨hid, hstate⟩, hkind⟩
    exact ⟨r, List.mem_filter.mpr ⟨hmem, decide_eq_true hid⟩, hstate, hkind⟩

/-- When its jobs are the failed ones, a retry writes exactly the failed runs and their jobs. -/
theorem retriedDatabase_rows (hw : Wellformed db)
    (hfailed : ∀ r ∈ db.other.generationRuns, FailedRun p r → ∀ j ∈ db.jobs, JobOfRun p r j →
      j.state = .failedRetryable) (actorId : UUID) :
    (retriedDatabase t p.id actorId db).other.generationRuns =
        updateWhere (FailedRun p) requeuedRun db.other.generationRuns ∧
      (retriedDatabase t p.id actorId db).jobs =
        updateWhere (JobOfFailedRun db p) requeuedJob db.jobs := by
  constructor
  · exact updateWhere_congr fun r hr ↦ retryableRuns_iff hr
  · refine updateWhere_congr fun j hj ↦ ?_
    constructor
    · rintro ⟨kind, hkind, hretry⟩
      obtain ⟨r, hr, hrun, rfl⟩ := mem_retryableKinds_runsOf.mp hkind
      exact ⟨r, hr, hrun, hretry.1, hretry.2.1⟩
    · rintro ⟨r, hr, hrun, hjob⟩
      refine ⟨r.kind, mem_retryableKinds_runsOf.mpr ⟨r, hr, hrun, rfl⟩, ?_⟩
      exact (retryableJob_iff hw hj).mpr ⟨hjob.1, hjob.2, hfailed r hr hrun j hj hjob⟩

/-- The failed lanes can be put back exactly when the job of every failed run is still the failed one.
-/
theorem lanesRetryable_iff (hw : Wellformed db) (hjobs : LaneJobs db)
    (hp : p ∈ db.other.generationSnapshots) :
    (∀ kind ∈ retryableKinds (runsOf db p.id), LaneRetryable db p.id kind) ↔
      ∀ r ∈ db.other.generationRuns, FailedRun p r → ∀ j ∈ db.jobs, JobOfRun p r j →
        j.state = .failedRetryable := by
  constructor
  · intro h r hr hrun j hj hjob
    have hkind := mem_retryableKinds_runsOf.mpr ⟨r, hr, hrun, rfl⟩
    exact (laneRetryable_iff hw hjobs hp hkind).mp (h r.kind hkind) j hj hjob.1 hjob.2
  · intro h kind hkind
    obtain ⟨r, hr, hrun, rfl⟩ := mem_retryableKinds_runsOf.mp hkind
    exact (laneRetryable_iff hw hjobs hp hkind).mpr fun j hj hid hjkind ↦
      h r hr hrun j hj ⟨hid, hjkind⟩

/-- The retry of a host who is there, of lanes whose jobs are the failed ones, returns. -/
theorem retry_returns (hw : Wellformed db) (hjobs : LaneJobs db) (ht : t ∈ db.other.talkSessions)
    (hstate : t.state = .needsAttention) (hlatest : latestSnapshot db t.id = some p)
    (hruns : ∃ r ∈ db.other.generationRuns, FailedRun p r)
    (hmember : ActiveMember db t.roomId t.hostId)
    (hfailed : ∀ r ∈ db.other.generationRuns, FailedRun p r → ∀ j ∈ db.jobs, JobOfRun p r j →
      j.state = .failedRetryable) :
    ∃ view, retry t.id t.hostId db = .ok (view, retriedDatabase t p.id t.hostId db) := by
  have hp : p ∈ db.other.generationSnapshots := (selectLast_mem hlatest).1
  have hkinds : retryableKinds (runsOf db p.id) ≠ [] := by
    obtain ⟨r, hr, hrun⟩ := hruns
    exact List.ne_nil_of_mem (mem_retryableKinds_runsOf.mpr ⟨r, hr, hrun, rfl⟩)
  exact ⟨_, (retry_of_attention hw.sessions ht hstate hlatest).mpr ⟨⟨hmember, rfl⟩,
    (retryFailed_eq_ok hw.sessions ht).mpr ⟨hstate, hkinds, nodup_retryableKinds (hw.lanes p hp),
      (lanesRetryable_iff hw hjobs hp).mpr hfailed, rfl, rfl⟩⟩⟩

/-- **When a retry does what it is for.** In every reachable state, for a session that needs
attention and whose latest snapshot has a failed run, the host's retry puts back exactly the failed
runs and their jobs if and only if the host is an active member of the room and the job of every
failed run is still the failed one. -/
theorem retriesAll_iff (now : Timestamp) (s : SystemState)
    (hs : systemMachine.Reachable (emptySystem now) s) (t : TalkSession)
    (ht : t ∈ s.db.other.talkSessions) (hstate : t.state = .needsAttention)
    (p : GenerationSnapshot) (hlatest : latestSnapshot s.db t.id = some p)
    (hruns : ∃ r ∈ s.db.other.generationRuns, FailedRun p r) :
    RetriesAll s.db t p ↔ ActiveMember s.db t.roomId t.hostId ∧
      ∀ r ∈ s.db.other.generationRuns, FailedRun p r → ∀ j ∈ s.db.jobs, JobOfRun p r j →
        j.state = .failedRetryable := by
  have hw := (reachable_sound hs).db
  have hjobs := reachable_laneJobs hs
  have hp : p ∈ s.db.other.generationSnapshots := (selectLast_mem hlatest).1
  constructor
  · intro h
    unfold RetriesAll at h
    split at h
    · exact h.elim
    · next view db' hretry =>
      obtain ⟨⟨hmember, -⟩, hbody⟩ := (retry_of_attention hw.sessions ht hstate hlatest).mp hretry
      obtain ⟨-, -, -, hretryable, -⟩ := (retryFailed_eq_ok hw.sessions ht).mp hbody
      exact ⟨hmember, (lanesRetryable_iff hw hjobs hp).mp hretryable⟩
  · rintro ⟨hmember, hfailed⟩
    obtain ⟨view, hretry⟩ := retry_returns hw hjobs ht hstate hlatest hruns hmember hfailed
    obtain ⟨hrunRows, hjobRows⟩ := retriedDatabase_rows (t := t) hw hfailed t.hostId
    rw [RetriesAll, hretry]
    refine ⟨hrunRows, hjobRows, fun r hr hrun ↦ ?_, rfl⟩
    obtain ⟨j, hj, -, hjkind, hid⟩ := hjobs p hp r.kind
    exact ⟨j, hj, hid, hjkind⟩

/-! ## A retry beside an automatic requeue -/

/-- The research attempt has failed and its job is not put back yet. -/
def beforeRequeue : List SystemInput := researchPutBack.take 7

/-- The worker has put the failed research job back, and no worker has claimed it. -/
def afterRequeue : List SystemInput := researchPutBack.take 8

/-- Between the automatic requeue and the next claim, the host's retry raises. -/
theorem retry_fails_after_requeue :
    ¬∀ now is, systemMachine.Legal (emptySystem now) is →
      ∀ t ∈ (systemMachine.exec (emptySystem now) is).db.other.talkSessions,
        t.state = .needsAttention →
          ∀ p ∈ latestSnapshot (systemMachine.exec (emptySystem now) is).db t.id,
            (∃ r ∈ (systemMachine.exec (emptySystem now) is).db.other.generationRuns,
              FailedRun p r) →
              RetriesAll (systemMachine.exec (emptySystem now) is).db t p :=
  fun h ↦ absurd (h 0 afterRequeue (by decide +kernel)) (by decide +kernel)

/-- The session of the scenarios after the research attempt has failed. -/
def failedSession : TalkSession := ⟨3, 2, 1, "topic", .needsAttention, 1, 3, 0⟩

/-- The snapshot of the scenarios. -/
def firstSnapshot : GenerationSnapshot := ⟨100, 3, 1, 1, "topic", "p1", "1"⟩

theorem retriesAll_iff_beforeRequeue :
    RetriesAll (systemMachine.exec (emptySystem 0) beforeRequeue).db failedSession firstSnapshot ↔
      ActiveMember (systemMachine.exec (emptySystem 0) beforeRequeue).db failedSession.roomId
        failedSession.hostId ∧
      ∀ r ∈ (systemMachine.exec (emptySystem 0) beforeRequeue).db.other.generationRuns,
        FailedRun firstSnapshot r →
          ∀ j ∈ (systemMachine.exec (emptySystem 0) beforeRequeue).db.jobs,
            JobOfRun firstSnapshot r j → j.state = .failedRetryable :=
  retriesAll_iff 0 _ ⟨beforeRequeue, by decide +kernel, rfl⟩ failedSession (by decide +kernel) rfl
    firstSnapshot (by decide +kernel) (by decide +kernel)

end MeetingRag
