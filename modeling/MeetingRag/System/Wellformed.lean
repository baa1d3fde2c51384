import MeetingRag.Generation.Lanes
import MeetingRag.System.Steps

/-!
# The system invariant

What holds of the tables in every reachable state, whatever the workers do late: every snapshot
belongs to a session and no session has two snapshots of one epoch, the epoch of a session is the
epoch of its last snapshot, every snapshot has exactly its two lanes, and every job is an extraction,
a lane or the report of a snapshot that exists.

Five of the seven kinds of step leave this shape alone: they rewrite states and versions, never an
epoch or a key. One lemma, `Wellformed.kept`, covers all five. Creating and closing a session are
the two steps that add to the shape.
-/

open Outcome Table Text

namespace MeetingRag

/-! ## The invariant -/

/-- What a snapshot asks of the jobs that name it. -/
inductive JobShape (snapshots : List GenerationSnapshot) (i : JobIdentity JobDocument) : Prop
  | extraction (revisionId : UUID) (key : i.logicalKey = extractionKey revisionId)
      (kind : i.kind = .extraction)
  | lane (p : GenerationSnapshot) (mem : p ∈ snapshots) (kind : GenerationKind)
      (key : i.logicalKey = generationKey p.id kind p.pipelineVersion)
      (jobKind : i.kind = kind.jobKind) (snapshotId : i.snapshotId = some p.id)
      (payload : i.payload = .generation p.id kind.jobKind p.pipelineVersion)
  | report (p : GenerationSnapshot) (mem : p ∈ snapshots)
      (key : i.logicalKey = reportKey p.id p.pipelineVersion)
      (jobKind : i.kind = .reportSuggestions) (snapshotId : i.snapshotId = some p.id)
      (payload : i.payload = .generation p.id .reportSuggestions p.pipelineVersion)

/-- A session is open, or it shows the outcome of a generation. -/
def Shaped (s : TalkSession) : Prop :=
  s.state = .open ∨
    (s.state ∈ [TalkSessionState.processing, .ready, .needsAttention] ∧ s.generationEpoch ≠ 0)

structure Wellformed (db : Database) : Prop where
  queue : Consistent db
  sessions : UniqueSessions db
  snapshots : (db.other.generationSnapshots.map (·.id)).Nodup
  epoch : ∀ p ∈ db.other.generationSnapshots, ∃ s ∈ db.other.talkSessions,
    s.id = p.sessionId ∧ p.generationEpoch ≤ s.generationEpoch
  positive : ∀ p ∈ db.other.generationSnapshots, p.generationEpoch ≠ 0
  epochs : ∀ p ∈ db.other.generationSnapshots, ∀ q ∈ db.other.generationSnapshots,
    p.sessionId = q.sessionId → p.generationEpoch = q.generationEpoch → p = q
  current : ∀ s ∈ db.other.talkSessions, s.generationEpoch ≠ 0 →
    ∃ p ∈ db.other.generationSnapshots,
      p.sessionId = s.id ∧ p.generationEpoch = s.generationEpoch
  states : ∀ s ∈ db.other.talkSessions, Shaped s
  lanes : ∀ p ∈ db.other.generationSnapshots, Lanes db.other.generationRuns p
  coded : ∀ r ∈ db.other.generationRuns, Coded r
  runs : ∀ r ∈ db.other.generationRuns, ∃ p ∈ db.other.generationSnapshots, p.id = r.snapshotId
  pins : ∀ r ∈ db.other.snapshotRevisions, ∃ p ∈ db.other.generationSnapshots, p.id = r.snapshotId
  jobs : ∀ j ∈ db.jobs, JobShape db.other.generationSnapshots j.identity
  sources : SourcesValid db.other.sources

theorem wellformed_empty : Wellformed (emptyStore emptyTables) where
  queue := consistent_empty _
  sessions := List.nodup_nil
  snapshots := List.nodup_nil
  epoch := List.forall_mem_nil _
  positive := List.forall_mem_nil _
  epochs := List.forall_mem_nil _
  current := List.forall_mem_nil _
  states := List.forall_mem_nil _
  lanes := List.forall_mem_nil _
  coded := List.forall_mem_nil _
  runs := List.forall_mem_nil _
  pins := List.forall_mem_nil _
  jobs := List.forall_mem_nil _
  sources := ⟨List.nodup_nil, List.forall_mem_nil _⟩

theorem JobShape.mono {snapshots snapshots' : List GenerationSnapshot}
    {i : JobIdentity JobDocument} (hsub : ∀ p ∈ snapshots, p ∈ snapshots')
    (h : JobShape snapshots i) : JobShape snapshots' i := by
  cases h with
  | extraction revisionId key kind => exact .extraction revisionId key kind
  | lane p mem kind key jobKind snapshotId payload =>
    exact .lane p (hsub p mem) kind key jobKind snapshotId payload
  | report p mem key jobKind snapshotId payload =>
    exact .report p (hsub p mem) key jobKind snapshotId payload

/-- The jobs of a queue that moved still fit the snapshots, when the new ones do. -/
theorem jobShape_of_grows {snapshots : List GenerationSnapshot}
    {rows jobs jobs' : List (Job JobDocument)} (hgrows : Grows rows jobs jobs')
    (hjobs : ∀ j ∈ jobs, JobShape snapshots j.identity)
    (hrows : ∀ j ∈ rows, JobShape snapshots j.identity) :
    ∀ j ∈ jobs', JobShape snapshots j.identity := by
  intro j hj
  obtain ⟨j₀, hj₀, hid⟩ := hgrows.origin j hj
  rw [hid]
  rcases List.mem_append.mp hj₀ with hj₀ | hj₀
  · exact hjobs j₀ hj₀
  · exact hrows j₀ hj₀

/-! ## Steps that keep the shape -/

/-- Sessions keep their ids and their epochs. -/
structure SessionsKept (t t' : List TalkSession) : Prop where
  keys : t'.map (fun s ↦ (s.id, s.generationEpoch)) = t.map (fun s ↦ (s.id, s.generationEpoch))
  shaped : (∀ s ∈ t, Shaped s) → ∀ s ∈ t', Shaped s

/-- Runs keep the lanes they belong to. -/
structure RunsKept (t t' : List GenerationRun) : Prop where
  keys : t'.map (fun r ↦ (r.snapshotId, laneOf r)) = t.map (fun r ↦ (r.snapshotId, laneOf r))
  coded : (∀ r ∈ t, Coded r) → ∀ r ∈ t', Coded r

theorem SessionsKept.refl (t : List TalkSession) : SessionsKept t t := ⟨rfl, id⟩

theorem RunsKept.refl (t : List GenerationRun) : RunsKept t t := ⟨rfl, id⟩

/-- An update of sessions that gives every session it touches a state of a generation. -/
theorem SessionsKept.update {t : List TalkSession} {q : TalkSession → Prop} [DecidablePred q]
    {f : TalkSession → TalkSession} (hid : ∀ s, (f s).id = s.id)
    (hepoch : ∀ s, (f s).generationEpoch = s.generationEpoch)
    (hshaped : ∀ s ∈ t, q s → Shaped s → Shaped (f s)) : SessionsKept t (updateWhere q f t) where
  keys := map_updateWhere_of_forall fun s ↦ by rw [hid, hepoch]
  shaped h s hs := by
    rcases mem_updateWhere.mp hs with ⟨s₀, hs₀, hq, rfl⟩ | ⟨hs, -⟩
    · exact hshaped s₀ hs₀ hq (h s₀ hs₀)
    · exact h s hs

theorem RunsKept.update {t : List GenerationRun} {q : GenerationRun → Prop} [DecidablePred q]
    {f : GenerationRun → GenerationRun} (hsnapshot : ∀ r, (f r).snapshotId = r.snapshotId)
    (hlane : ∀ r, laneOf (f r) = laneOf r) (hcoded : ∀ r, Coded (f r)) :
    RunsKept t (updateWhere q f t) where
  keys := map_updateWhere_of_forall fun r ↦ by rw [hsnapshot, hlane]
  coded h r hr := by
    rcases mem_updateWhere.mp hr with ⟨r₀, -, -, rfl⟩ | ⟨hr, -⟩
    · exact hcoded r₀
    · exact h r hr

/-- The lanes of a snapshot depend on the keys of the runs alone. -/
theorem Lanes.of_kept {t t' : List GenerationRun} (h : RunsKept t t') {p : GenerationSnapshot}
    (hlanes : Lanes t p) : Lanes t' p := by
  have hview : ∀ l : List GenerationRun, (l.filter (·.snapshotId = p.id)).map laneOf =
      ((l.map fun r ↦ (r.snapshotId, laneOf r)).filter (·.1 = p.id)).map (·.2) := by
    intro l
    rw [List.filter_map, List.map_map]
    rfl
  rw [Lanes, hview, h.keys, ← hview]
  exact hlanes

/-- **The shape survives every step that adds no session and no snapshot.** -/
theorem Wellformed.kept {db db' : Database} (h : Wellformed db)
    (hsessions : SessionsKept db.other.talkSessions db'.other.talkSessions)
    (hsnapshots : db'.other.generationSnapshots = db.other.generationSnapshots)
    (hpins : db'.other.snapshotRevisions = db.other.snapshotRevisions)
    (hruns : RunsKept db.other.generationRuns db'.other.generationRuns)
    (hsources : SourcesValid db'.other.sources)
    (hqueue : ∃ rows, QueueMoves rows db db' ∧
      ∀ row ∈ rows, JobShape db.other.generationSnapshots row.identity) : Wellformed db' := by
  obtain ⟨rows, hmoves, hrows⟩ := hqueue
  obtain ⟨hconsistent, hgrows⟩ := hmoves h.queue
  have hkey : ∀ id epoch, (∃ s ∈ db'.other.talkSessions, s.id = id ∧ s.generationEpoch = epoch) ↔
      ∃ s ∈ db.other.talkSessions, s.id = id ∧ s.generationEpoch = epoch := by
    intro id epoch
    have hmem : (id, epoch) ∈ db'.other.talkSessions.map (fun s ↦ (s.id, s.generationEpoch)) ↔
        (id, epoch) ∈ db.other.talkSessions.map (fun s ↦ (s.id, s.generationEpoch)) := by
      rw [hsessions.keys]
    simpa only [List.mem_map, Prod.mk.injEq] using hmem
  have hids : db'.other.talkSessions.map (·.id) = db.other.talkSessions.map (·.id) := by
    have := congrArg (List.map Prod.fst) hsessions.keys
    rwa [List.map_map, List.map_map] at this
  have hrunIds : ∀ r ∈ db'.other.generationRuns, ∃ r₀ ∈ db.other.generationRuns,
      r₀.snapshotId = r.snapshotId := by
    intro r hr
    have hmem := List.mem_map_of_mem (f := fun r ↦ (r.snapshotId, laneOf r)) hr
    rw [hruns.keys] at hmem
    obtain ⟨r₀, hr₀, heq⟩ := List.mem_map.mp hmem
    exact ⟨r₀, hr₀, congrArg Prod.fst heq⟩
  refine ⟨hconsistent, ?_, ?_, ?_, ?_, ?_, ?_, hsessions.shaped h.states, ?_,
    hruns.coded h.coded, ?_, ?_, ?_, hsources⟩
  · rw [UniqueSessions, hids]
    exact h.sessions
  · rw [hsnapshots]
    exact h.snapshots
  · intro p hp
    rw [hsnapshots] at hp
    obtain ⟨s, hs, hid, hle⟩ := h.epoch p hp
    obtain ⟨s', hs', hid', heq⟩ := (hkey s.id s.generationEpoch).mpr ⟨s, hs, rfl, rfl⟩
    exact ⟨s', hs', hid'.trans hid, heq ▸ hle⟩
  · rw [hsnapshots]
    exact h.positive
  · rw [hsnapshots]
    exact h.epochs
  · intro s hs hne
    obtain ⟨s₀, hs₀, hid, heq⟩ := (hkey s.id s.generationEpoch).mp ⟨s, hs, rfl, rfl⟩
    rw [hsnapshots, ← hid, ← heq]
    exact h.current s₀ hs₀ (heq ▸ hne)
  · rw [hsnapshots]
    exact fun p hp ↦ (h.lanes p hp).of_kept hruns
  · intro r hr
    obtain ⟨r₀, hr₀, heq⟩ := hrunIds r hr
    rw [hsnapshots, ← heq]
    exact h.runs r₀ hr₀
  · rw [hpins, hsnapshots]
    exact h.pins
  · rw [hsnapshots]
    exact jobShape_of_grows hgrows h.jobs hrows

section Kept

variable {db db' : Database}

theorem Wellformed.background (h : Wellformed db) (hb : Background db db') : Wellformed db' := by
  obtain ⟨⟨hsame, hsources, -⟩, rows, hmoves, hrows⟩ := hb
  refine h.kept (hsame.talkSessions ▸ SessionsKept.refl _) hsame.generationSnapshots
    hsame.snapshotRevisions (hsame.generationRuns ▸ RunsKept.refl _) (hsources h.sources)
    ⟨rows, hmoves, fun row hrow ↦ ?_⟩
  obtain ⟨revisionId, hkey, hkind, -⟩ := hrows row hrow
  exact .extraction revisionId hkey hkind

theorem Wellformed.reopened (h : Wellformed db) {session : TalkSession} {actorId : UUID}
    (hr : Reopened session actorId db db') : Wellformed db' := by
  have hresult := hr.result
  refine h.kept ?_ (by rw [hresult]; rfl) (by rw [hresult]; rfl) ?_ ?_
    ⟨[], ?_, List.forall_mem_nil _⟩
  · rw [hresult]
    exact SessionsKept.update (fun _ ↦ rfl) (fun _ ↦ rfl) fun _ _ _ _ ↦ Or.inl rfl
  · rw [hresult]
    exact RunsKept.refl _
  · rw [hresult]
    exact h.sources
  · rw [hresult]
    exact QueueMoves.of_other _

/-- Putting the lanes of a retry back moves their jobs only. -/
theorem requeuedLanes_moves {snapshotId : UUID} {kinds : List GenerationKind}
    (hnodup : kinds.Nodup) (hlanes : ∀ kind ∈ kinds, LaneRetryable db snapshotId kind) :
    QueueMoves [] db (requeuedLanes snapshotId kinds db) := by
  refine foldlM_invariant (fun _ d ↦ QueueMoves [] db d)
    (foldlM_requeueLane_eq_ok.mpr ⟨hnodup, hlanes, rfl⟩) (QueueMoves.of_other db.other) ?_
  intro done kind d d' hmoves hstep
  refine QueueMoves.trans hmoves fun hd ↦ ?_
  obtain ⟨⟨hcount, -⟩, rfl⟩ := requeueLane_eq_ok.mp hstep
  obtain ⟨row, hrow, hretry, hset⟩ := exists_of_rowcount_one (f := requeuedJob) hd.ids hcount
  have hjobs : updateWhere (RetryableJobs snapshotId [kind]) requeuedJob d.jobs =
      setJob row.id requeuedJob d.jobs := by
    rw [setJob, ← hset]
    exact updateWhere_congr fun j _ ↦ by simp [RetryableJobs]
  have hrequeued : Requeued row d { d with jobs := setJob row.id requeuedJob d.jobs } :=
    ⟨hrow, hretry.2.2.1, hretry.2.2.2.1, rfl⟩
  have hboth := QueueMoves.trans (QueueMoves.requeued hrequeued) (QueueMoves.of_other
    (requeuedLanes snapshotId [kind] d).other)
  rw [requeuedLanes, hjobs]
  exact hboth hd

theorem Wellformed.retried (h : Wellformed db) {session : TalkSession}
    {snapshot : GenerationSnapshot} {actorId : UUID} (hr : Retried session snapshot actorId db db') :
    Wellformed db' := by
  have hresult := hr.result
  refine h.kept ?_ (by rw [hresult]; rfl) (by rw [hresult]; rfl) ?_ ?_
    ⟨[], ?_, List.forall_mem_nil _⟩
  · rw [hresult]
    refine SessionsKept.update (fun _ ↦ rfl) (fun _ ↦ rfl) fun s hs hid hshaped ↦ ?_
    rw [eq_of_key_eq h.sessions hs hr.mem hid] at hshaped ⊢
    rcases hshaped with hopen | ⟨-, hepoch⟩
    · exact nomatch hr.attention.symm.trans hopen
    · exact Or.inr ⟨by simp [retriedSession], hepoch⟩
  · rw [hresult]
    exact RunsKept.update (fun _ ↦ rfl) (fun _ ↦ rfl) fun _ _ hcode ↦ nomatch hcode
  · rw [hresult]
    exact h.sources
  · rw [hresult]
    exact QueueMoves.trans (requeuedLanes_moves hr.nodup hr.lanes) (QueueMoves.of_other _)

theorem writtenRuns_kept {snapshotId : UUID} {kind : GenerationKind} {pipelineVersion : String}
    {state : GenerationRunState} {f : GenerationRun → GenerationRun} (hf : RunOutcome state f)
    (t : List GenerationRun) : RunsKept t (writtenRuns snapshotId kind pipelineVersion f t) :=
  RunsKept.update hf.snapshotId (fun r ↦ by rw [laneOf, laneOf, hf.kind, hf.pipelineVersion])
    hf.coded

/-- What a completed lane projects: the two-kind table, after the step. -/
theorem LaneCompleted.state_eq (h : Wellformed db) {claimed : ClaimedJob JobDocument}
    {e : GenerationExecution} {snapshot : GenerationSnapshot} {session : TalkSession}
    {aggregate : GenerationAggregate} {clock : StatementClock}
    (hl : LaneCompleted claimed e snapshot session aggregate clock db db') :
    aggregate.state =
      projectedState (laneState db' snapshot.id .summary) (laneState db' snapshot.id .research) := by
  obtain ⟨f, hf, hruns⟩ := hl.runs
  have hkept : RunsKept db.other.generationRuns db'.other.generationRuns := by
    rw [hruns]
    exact writtenRuns_kept hf _
  obtain ⟨aggregate', hproj, hstate⟩ := projectRuns_eq
    ((h.lanes snapshot hl.snapshot_mem).of_kept hkept) (hkept.coded h.coded)
  rw [hl.projected] at hproj
  cases hproj
  exact hstate

/-- What a completed lane projects, in terms of the lane states before the step. -/
theorem LaneCompleted.projection (h : Wellformed db) {claimed : ClaimedJob JobDocument}
    {e : GenerationExecution} {snapshot : GenerationSnapshot} {session : TalkSession}
    {aggregate : GenerationAggregate} {clock : StatementClock}
    (hl : LaneCompleted claimed e snapshot session aggregate clock db db') :
    aggregate.state = laneProjection db snapshot.id e.kind e.runState := by
  obtain ⟨f, hf, hruns⟩ := hl.runs
  have hwritable := hl.writable
  rw [← hl.snapshot_id] at hwritable hruns
  have hlane := laneState_written hf (h.lanes snapshot hl.snapshot_mem) hwritable hruns
  rw [hl.state_eq h, hlane, hlane]
  rfl

theorem Wellformed.laneCompleted (h : Wellformed db) {claimed : ClaimedJob JobDocument}
    {e : GenerationExecution} {snapshot : GenerationSnapshot} {session : TalkSession}
    {aggregate : GenerationAggregate} {clock : StatementClock}
    (hl : LaneCompleted claimed e snapshot session aggregate clock db db') : Wellformed db' := by
  obtain ⟨rows, hmoves, hrows⟩ := hl.queue
  refine h.kept ?_ hl.snapshots hl.pins ?_ (hl.sources ▸ h.sources) ⟨rows, hmoves, ?_⟩
  · rw [hl.sessions, writtenSessions]
    split
    · exact SessionsKept.refl _
    · refine SessionsKept.update (fun _ ↦ rfl) (fun _ ↦ rfl) fun s hs hid _ ↦ Or.inr ⟨?_, ?_⟩
      · rw [projectedSession, hl.state_eq h]
        exact projectedState_mem _ _
      · -- The session of a snapshot has an epoch.
        obtain ⟨s', hs', hid', hle⟩ := h.epoch snapshot hl.snapshot_mem
        have hsame : s' = s :=
          eq_of_key_eq h.sessions hs' hs (hid'.trans (hl.session_id.symm.trans hid.symm))
        have hpos := h.positive snapshot hl.snapshot_mem
        rw [hsame] at hle
        exact fun hzero ↦ hpos (Nat.le_zero.mp (hzero ▸ hle))
  · obtain ⟨f, hf, hruns⟩ := hl.runs
    rw [hruns]
    exact writtenRuns_kept hf _
  · intro row hrow
    obtain ⟨-, id, createdAt, rfl⟩ := hrows row hrow
    exact .report snapshot hl.snapshot_mem rfl rfl rfl rfl

theorem Wellformed.comparisonFailed (h : Wellformed db) {claimed : ClaimedJob JobDocument}
    {snapshotId : UUID} {clock : StatementClock}
    (hc : ComparisonFailed claimed snapshotId clock db db') : Wellformed db' := by
  refine h.kept ?_ hc.snapshots hc.pins (hc.runs ▸ RunsKept.refl _) (hc.sources ▸ h.sources)
    ⟨[], hc.queue, List.forall_mem_nil _⟩
  rw [hc.sessions]
  refine SessionsKept.update (fun _ ↦ rfl) (fun _ ↦ rfl) fun s hs hready hshaped ↦ ?_
  rcases hshaped with hopen | ⟨-, hepoch⟩
  · exact nomatch hready.2.symm.trans hopen
  · exact Or.inr ⟨by simp [attentionSession], hepoch⟩

end Kept

/-! ## Steps that add to the shape -/

section Added

variable {db db' : Database}

theorem Wellformed.created (h : Wellformed db) {session : TalkSession}
    (hc : Created session db db') : Wellformed db' := by
  obtain ⟨hfresh, hopen, hepoch, activity, e, rfl, -⟩ := hc
  have hold : ∀ s ∈ db.other.talkSessions, s ∈ db.other.talkSessions ++ [session] :=
    fun s hs ↦ List.mem_append_left _ hs
  refine ⟨(QueueMoves.of_other _ h.queue).1, nodup_map_append_singleton h.sessions hfresh,
    h.snapshots, fun p hp ↦ ?_, h.positive, h.epochs, fun s hs hne ↦ ?_, fun s hs ↦ ?_, h.lanes,
    h.coded, h.runs, h.pins, h.jobs, h.sources⟩
  · obtain ⟨s, hs, hid, hle⟩ := h.epoch p hp
    exact ⟨s, hold s hs, hid, hle⟩
  · rcases List.mem_append.mp hs with hs | hs
    · exact h.current s hs hne
    · rw [List.mem_singleton.mp hs] at hne
      exact absurd hepoch hne
  · rcases List.mem_append.mp hs with hs | hs
    · exact h.states s hs
    · rw [List.mem_singleton.mp hs]
      exact Or.inl hopen

/-- The runs of a close are the lanes of its snapshot. -/
theorem map_laneOf_laneRuns (draws : CloseDraws) (snapshot : GenerationSnapshot) :
    (laneRuns draws snapshot canonicalGenerationKinds).map laneOf =
      [(.summary, snapshot.pipelineVersion), (.research, snapshot.pipelineVersion)] := rfl

theorem mem_laneRuns {draws : CloseDraws} {snapshot : GenerationSnapshot}
    {kinds : List GenerationKind} {r : GenerationRun} (hr : r ∈ laneRuns draws snapshot kinds) :
    r.snapshotId = snapshot.id ∧ Coded r := by
  obtain ⟨kind, -, rfl⟩ := List.mem_map.mp hr
  exact ⟨rfl, fun _ hcode ↦ nomatch hcode⟩

section Closed

variable {session : TalkSession} {request : CloseRequest} {draws : CloseDraws}
  {included : List CurrentRevision} {schema : String} {createdAt : Timestamp}

/-- A close appends its two jobs. -/
theorem Closed.inserted (hc : Closed session request draws included schema createdAt db db') :
    Inserted (laneJobs draws (closeSnapshot session request draws schema) createdAt
      canonicalGenerationKinds) db db' := by
  refine ⟨fun row hrow ↦ ?_, hc.free.jobs.1, hc.free.jobs.2, ?_, ?_, ?_⟩
  · obtain ⟨kind, -, rfl⟩ := List.mem_map.mp hrow
    exact ⟨_, _, _, _, _, _, rfl⟩
  all_goals rw [hc.result]; rfl

/-- The new snapshot has the two runs of the close. -/
theorem Closed.runsOf_new (h : Wellformed db)
    (hc : Closed session request draws included schema createdAt db db') :
    runsOf db' (closeSnapshot session request draws schema).id =
      laneRuns draws (closeSnapshot session request draws schema) canonicalGenerationKinds := by
  have hnew := hc.free.newSnapshot
  have hresult := hc.result
  set snapshot := closeSnapshot session request draws schema
  have hnone : db.other.generationRuns.filter (·.snapshotId = snapshot.id) = [] := by
    rw [List.filter_eq_nil_iff]
    intro r hr heq
    obtain ⟨q, hq, hqid⟩ := h.runs r hr
    exact hnew q hq (Or.inl (hqid.trans (of_decide_eq_true heq)))
  have hall : (laneRuns draws snapshot canonicalGenerationKinds).filter
      (·.snapshotId = snapshot.id) = laneRuns draws snapshot canonicalGenerationKinds := by
    rw [List.filter_eq_self]
    exact fun r hr ↦ decide_eq_true (mem_laneRuns hr).1
  have hruns : db'.other.generationRuns = db.other.generationRuns ++
      laneRuns draws snapshot canonicalGenerationKinds := by
    rw [hresult]
    rfl
  rw [runsOf, hruns, List.filter_append, hnone, hall, List.nil_append]

/-- The snapshots that were there keep their runs. -/
theorem Closed.runsOf_old (hc : Closed session request draws included schema createdAt db db')
    {p : GenerationSnapshot} (hp : p ∈ db.other.generationSnapshots) :
    runsOf db' p.id = runsOf db p.id := by
  have hnew := hc.free.newSnapshot p hp
  have hresult := hc.result
  set snapshot := closeSnapshot session request draws schema
  have hnone : (laneRuns draws snapshot canonicalGenerationKinds).filter
      (·.snapshotId = p.id) = [] := by
    rw [List.filter_eq_nil_iff]
    intro r hr heq
    exact hnew (Or.inl ((of_decide_eq_true heq).symm.trans (mem_laneRuns hr).1))
  have hruns : db'.other.generationRuns = db.other.generationRuns ++
      laneRuns draws snapshot canonicalGenerationKinds := by
    rw [hresult]
    rfl
  rw [runsOf, hruns, List.filter_append, hnone, List.append_nil, runsOf]

theorem Wellformed.closed (h : Wellformed db)
    (hc : Closed session request draws included schema createdAt db db') : Wellformed db' := by
  have hrunsNew := hc.runsOf_new h
  have hqueue := QueueMoves.inserted hc.inserted h.queue
  have hnew := hc.free.newSnapshot
  have hresult := hc.result
  set snapshot := closeSnapshot session request draws schema with hsnapshot
  -- A snapshot that was there has another id than the new one.
  have hid : ∀ p ∈ db.other.generationSnapshots, p.id ≠ snapshot.id :=
    fun p hp heq ↦ hnew p hp (Or.inl heq)
  have hsnapshots : db'.other.generationSnapshots = db.other.generationSnapshots ++ [snapshot] := by
    rw [hresult]
    rfl
  have hold : ∀ p ∈ db.other.generationSnapshots, p ∈ db'.other.generationSnapshots :=
    fun p hp ↦ hsnapshots ▸ List.mem_append_left _ hp
  have hlast : snapshot ∈ db'.other.generationSnapshots :=
    hsnapshots ▸ List.mem_append_right _ (List.mem_singleton_self snapshot)
  have hsessions := hc.sessions
  have hruns : db'.other.generationRuns = db.other.generationRuns ++
      laneRuns draws snapshot canonicalGenerationKinds := by
    rw [hresult]
    rfl
  have hpins : db'.other.snapshotRevisions = db.other.snapshotRevisions ++
      snapshotPins snapshot.id included := by
    rw [hresult]
    rfl
  -- A session after the step is the closed one at its new epoch, or another one as it was.
  have hsession : ∀ s ∈ db'.other.talkSessions,
      (s.id = session.id ∧ s.generationEpoch = session.generationEpoch + 1 ∧
        s.state = .processing) ∨ (s ∈ db.other.talkSessions ∧ s.id ≠ session.id) := by
    intro s hs
    rw [hsessions] at hs
    rcases mem_updateWhere.mp hs with ⟨s₀, -, hs₀, rfl⟩ | ⟨hs, hne⟩
    · exact Or.inl ⟨hs₀, rfl, rfl⟩
    · exact Or.inr ⟨hs, hne⟩
  have hupdated : ∀ s ∈ db.other.talkSessions, ∃ s' ∈ db'.other.talkSessions,
      s'.id = s.id ∧ s.generationEpoch ≤ s'.generationEpoch := by
    intro s hs
    rw [hsessions]
    by_cases heq : s.id = session.id
    · have hsame : s = session := eq_of_key_eq h.sessions hs hc.mem heq
      refine ⟨_, mem_updateWhere_of_mem hs heq, rfl, ?_⟩
      rw [hsame]
      exact Nat.le_succ _
    · exact ⟨s, mem_updateWhere_of_not hs heq, rfl, le_rfl⟩
  refine ⟨hqueue.1, ?_, ?_, ?_, ?_, ?_, ?_, ?_, ?_, ?_, ?_, ?_, ?_, ?_⟩
  · exact uniqueSessions_setSession h.sessions hsessions fun _ ↦ rfl
  · rw [hsnapshots]
    exact nodup_map_append_singleton h.snapshots hid
  · intro p hp
    rw [hsnapshots] at hp
    rcases List.mem_append.mp hp with hp | hp
    · obtain ⟨s, hs, hsid, hle⟩ := h.epoch p hp
      obtain ⟨s', hs', hsid', hle'⟩ := hupdated s hs
      exact ⟨s', hs', hsid'.trans hsid, hle.trans hle'⟩
    · rw [List.mem_singleton.mp hp, hsessions]
      exact ⟨_, mem_setSession hc.mem rfl, rfl, le_rfl⟩
  · intro p hp
    rw [hsnapshots] at hp
    rcases List.mem_append.mp hp with hp | hp
    · exact h.positive p hp
    · rw [List.mem_singleton.mp hp]
      exact Nat.succ_ne_zero _
  · intro p hp q hq hsid hepoch
    rw [hsnapshots] at hp hq
    rcases List.mem_append.mp hp with hp | hp <;> rcases List.mem_append.mp hq with hq | hq
    · exact h.epochs p hp q hq hsid hepoch
    · rw [List.mem_singleton.mp hq] at hsid hepoch
      exact absurd (Or.inr ⟨hsid, hepoch⟩) (hnew p hp)
    · rw [List.mem_singleton.mp hp] at hsid hepoch
      exact absurd (Or.inr ⟨hsid.symm, hepoch.symm⟩) (hnew q hq)
    · rw [List.mem_singleton.mp hp, List.mem_singleton.mp hq]
  · intro s hs hne
    rcases hsession s hs with ⟨hsid, hepoch, -⟩ | ⟨hs, -⟩
    · exact ⟨snapshot, hlast, hsid.symm, hepoch.symm⟩
    · obtain ⟨p, hp, hpid, hpepoch⟩ := h.current s hs hne
      exact ⟨p, hold p hp, hpid, hpepoch⟩
  · intro s hs
    rcases hsession s hs with ⟨-, hepoch, hstate⟩ | ⟨hs, -⟩
    · exact Or.inr ⟨by rw [hstate]; simp, by rw [hepoch]; exact Nat.succ_ne_zero _⟩
    · exact h.states s hs
  · intro p hp
    rw [hsnapshots] at hp
    rcases List.mem_append.mp hp with hp | hp
    · have hlanes := h.lanes p hp
      rw [Lanes] at hlanes ⊢
      exact (congrArg (List.map laneOf) (hc.runsOf_old hp)).trans hlanes
    · rw [List.mem_singleton.mp hp, Lanes]
      exact (congrArg (List.map laneOf) hrunsNew).trans (map_laneOf_laneRuns draws snapshot)
  · intro r hr
    rw [hruns] at hr
    rcases List.mem_append.mp hr with hr | hr
    · exact h.coded r hr
    · exact (mem_laneRuns hr).2
  · intro r hr
    rw [hruns] at hr
    rcases List.mem_append.mp hr with hr | hr
    · obtain ⟨p, hp, hpid⟩ := h.runs r hr
      exact ⟨p, hold p hp, hpid⟩
    · exact ⟨snapshot, hlast, (mem_laneRuns hr).1.symm⟩
  · intro r hr
    rw [hpins] at hr
    rcases List.mem_append.mp hr with hr | hr
    · obtain ⟨p, hp, hpid⟩ := h.pins r hr
      exact ⟨p, hold p hp, hpid⟩
    · obtain ⟨row, -, hrow⟩ := List.mem_filterMap.mp hr
      obtain ⟨run, -, rfl⟩ := Option.map_eq_some_iff.mp hrow
      exact ⟨snapshot, hlast, rfl⟩
  · refine jobShape_of_grows hqueue.2 (fun j hj ↦ (h.jobs j hj).mono hold) fun row hrow ↦ ?_
    obtain ⟨kind, -, rfl⟩ := List.mem_map.mp hrow
    exact .lane snapshot hlast kind rfl rfl rfl rfl
  · rw [hresult]
    exact h.sources

end Closed

end Added

/-- The latest snapshot of a session with a generation is its current one. -/
theorem Wellformed.latest {db : Database} (h : Wellformed db) {s : TalkSession}
    (hs : s ∈ db.other.talkSessions) (hepoch : s.generationEpoch ≠ 0) {p : GenerationSnapshot}
    (hp : latestSnapshot db s.id = some p) :
    p ∈ db.other.generationSnapshots ∧ p.sessionId = s.id ∧ p.generationEpoch = s.generationEpoch := by
  obtain ⟨hmem, hid⟩ := selectLast_mem hp
  have hid : p.sessionId = s.id := of_decide_eq_true hid
  obtain ⟨q, hq, hqid, hqepoch⟩ := h.current s hs hepoch
  have hge : q.generationEpoch ≤ p.generationEpoch :=
    selectLast_ge hp hq (decide_eq_true hqid)
  obtain ⟨s', hs', hsid, hle⟩ := h.epoch p hmem
  rw [eq_of_key_eq h.sessions hs' hs (hsid.trans hid)] at hle
  exact ⟨hmem, hid, le_antisymm hle (hqepoch ▸ hge)⟩

/-- A session that is not open has a generation. -/
theorem Wellformed.epoch_ne_zero {db : Database} (h : Wellformed db) {s : TalkSession}
    (hs : s ∈ db.other.talkSessions) (hopen : s.state ≠ .open) : s.generationEpoch ≠ 0 := by
  rcases h.states s hs with hstate | ⟨-, hepoch⟩
  · exact absurd hstate hopen
  · exact hepoch

/-! ## Runs -/

variable {db db' : Database} {clock : StatementClock} {call : SystemCall}

/-- **The step lemma.** -/
theorem Wellformed.step (h : Wellformed db) (hstep : SystemStep clock call db db') :
    Wellformed db' := by
  cases hstep with
  | background hb => exact h.background hb
  | created session actorId roomId topic hcall hc => exact h.created hc
  | closed session request draws included schema hcall hc => exact h.closed hc
  | reopened session actorId hcall hr => exact h.reopened hr
  | retried session snapshot actorId hcall hr => exact h.retried hr
  | laneCompleted claimed outcome resultId reportJobId e snapshot session aggregate hcall hexec hl =>
    exact h.laneCompleted hl
  | comparisonFailed claimed outcome resultId snapshotId hcall hterminal hc =>
    exact h.comparisonFailed hc

/-- Every step moves the queue. -/
theorem SystemStep.moves (hstep : SystemStep clock call db db') : ∃ rows, QueueMoves rows db db' := by
  cases hstep with
  | background hb => exact hb.queue.imp fun _ h ↦ h.1
  | created session actorId roomId topic hcall hc =>
    obtain ⟨-, -, -, activity, e, rfl, -⟩ := hc
    exact ⟨[], QueueMoves.of_other _⟩
  | closed session request draws included schema hcall hc => exact ⟨_, QueueMoves.inserted hc.inserted⟩
  | reopened session actorId hcall hr => exact ⟨[], hr.result ▸ QueueMoves.of_other _⟩
  | retried session snapshot actorId hcall hr =>
    exact ⟨[], hr.result ▸
      QueueMoves.trans (requeuedLanes_moves hr.nodup hr.lanes) (QueueMoves.of_other _)⟩
  | laneCompleted claimed outcome resultId reportJobId e snapshot session aggregate hcall hexec hl =>
    exact hl.queue.imp fun _ h ↦ h.1
  | comparisonFailed claimed outcome resultId snapshotId hcall hterminal hc => exact ⟨[], hc.queue⟩

/-- Every lease that was granted is the lease of a job, with its kind and its payload. -/
def Issued (db : Database) (issued : List (ClaimedJob JobDocument)) : Prop :=
  ∀ c ∈ issued, ∃ j ∈ db.jobs, j.id = c.id ∧ j.kind = c.kind ∧ j.payload = c.payload

theorem Issued.step {issued : List (ClaimedJob JobDocument)} (h : Issued db issued)
    (hgrows : ∃ rows, Grows rows db.jobs db'.jobs) : Issued db' issued := by
  intro c hc
  obtain ⟨j, hj, hid, hkind, hpayload⟩ := h c hc
  obtain ⟨rows, hgrows⟩ := hgrows
  obtain ⟨j', hj', hident, -⟩ := hgrows.kept j hj
  exact ⟨j', hj', (congrArg JobIdentity.id hident).trans hid,
    (congrArg JobIdentity.kind hident).trans hkind,
    (congrArg JobIdentity.payload hident).trans hpayload⟩

/-- A state in which every invariant holds. -/
structure SystemState.Sound (s : SystemState) : Prop where
  db : Wellformed s.db
  issued : Issued s.db s.issued

theorem sound_empty (now : Timestamp) : (emptySystem now).Sound :=
  ⟨wellformed_empty, List.forall_mem_nil _⟩

/-- A step of the machine commits a system step or rolls back. -/
theorem systemMachine_step {s : SystemState} (hs : s.Sound) (i : SystemInput) :
    SystemStep i.clock i.call s.db (systemMachine.step s i).2.db :=
  transaction_snd_of (.background (Background.refl s.db))
    fun _ _ h ↦ i.call.body_step hs.db.queue.ids hs.db.sessions h

theorem SystemState.Sound.step {s : SystemState} (hs : s.Sound) (i : SystemInput) :
    (systemMachine.step s i).2.Sound := by
  have hstep := systemMachine_step hs i
  have hgrows : ∃ rows, Grows rows s.db.jobs (systemMachine.step s i).2.db.jobs :=
    hstep.moves.imp fun _ h ↦ (h hs.db.queue).2
  refine ⟨hs.db.step hstep, ?_⟩
  have hold := hs.issued.step hgrows
  intro c hc
  have hissued : (systemMachine.step s i).2.issued =
      recordClaim (systemMachine.step s i).1 s.issued := rfl
  rw [hissued] at hc
  unfold recordClaim at hc
  split at hc
  · next claimed hreply =>
    rcases List.mem_append.mp hc with hc | hc
    · exact hold c hc
    · -- The claim that was just returned is the lease of the job it was granted on.
      rw [List.mem_singleton.mp hc]
      obtain ⟨row, leaseUntil, hgrant⟩ := i.call.body_claimed (systemMachine_eq_ok.mp hreply)
      obtain ⟨rows, hgrows⟩ := hgrows
      obtain ⟨j', hj', hident, -⟩ := hgrows.kept row hgrant.mem
      have hclaim := hgrant.claim
      refine ⟨j', hj', ?_, ?_, ?_⟩
      · rw [hclaim]
        exact congrArg JobIdentity.id hident
      · rw [hclaim]
        exact congrArg JobIdentity.kind hident
      · rw [hclaim]
        exact congrArg JobIdentity.payload hident
  · exact hold c hc

/-- Every step of a run from the empty system is taken in a sound state. -/
theorem legal_sound {C : SystemState → SystemInput → Prop} {now : Timestamp}
    {is : List SystemInput} (h : systemMachine.Along C (emptySystem now) is) :
    systemMachine.Along (fun s i ↦ s.Sound ∧ C s i) (emptySystem now) is :=
  h.with_invariant (sound_empty now) fun _ i hs _ ↦ hs.step i

theorem reachable_sound {now : Timestamp} {s : SystemState}
    (h : systemMachine.Reachable (emptySystem now) s) : s.Sound :=
  h.invariant (sound_empty now) fun _ i hs _ ↦ hs.step i

end MeetingRag
