import MeetingRag.System.Transitions

/-!
# Generations of a session

Every close of an open session adds one generation: a snapshot of the next epoch, and for each kind
one run and one job under the key of its lane. Nothing is ever taken back. The snapshots, what they
pin and what their closes excluded stay as they are, however sessions are reopened, closed again and
retried afterwards.
-/

open Outcome Table Text

namespace MeetingRag

/-- The revisions that a snapshot pins, in the order in which they were pinned. -/
def pinsOf (db : Database) (snapshotId : UUID) : List SnapshotRevision :=
  db.other.snapshotRevisions.filter (·.snapshotId = snapshotId)

/-- The job of one lane of a snapshot. -/
def LaneJob (p : GenerationSnapshot) (kind : GenerationKind) (j : Job JobDocument) : Prop :=
  j.logicalKey = generationKey p.id kind p.pipelineVersion ∧ j.kind = kind.jobKind ∧
    j.snapshotId = some p.id

/-- Every lane of every snapshot has a job. -/
def LaneJobs (db : Database) : Prop :=
  ∀ p ∈ db.other.generationSnapshots, ∀ kind, ∃ j ∈ db.jobs, LaneJob p kind j

/-- Nothing of the earlier generations has changed: the snapshots, the excluded revisions, and what
each snapshot pins. -/
structure Retained (db db' : Database) : Prop where
  snapshots : db.other.generationSnapshots <+: db'.other.generationSnapshots
  exclusions : db.other.snapshotExclusions <+: db'.other.snapshotExclusions
  pins : ∀ p ∈ db.other.generationSnapshots, pinsOf db' p.id = pinsOf db p.id

/-- One generation was added for a session: one snapshot of its next epoch, and for each kind one
queued run and one pending job under the key of the lane. -/
structure GenerationAdded (t : TalkSession) (p : GenerationSnapshot) (db db' : Database) : Prop where
  snapshots : db'.other.generationSnapshots = db.other.generationSnapshots ++ [p]
  session : p.sessionId = t.id
  epoch : p.generationEpoch = t.generationEpoch + 1
  runs : db'.other.generationRuns = db.other.generationRuns ++ runsOf db' p.id
  run : ∀ kind, ∃ r, (runsOf db' p.id).filter (·.kind = kind) = [r] ∧
    laneOf r = (kind, p.pipelineVersion) ∧ r.state = .queued
  jobs : ∃ rows, db'.jobs = db.jobs ++ rows ∧ ∀ j ∈ rows, ∃ kind, LaneJob p kind j
  job : ∀ kind, ∃ j,
    db'.jobs.filter (·.logicalKey = generationKey p.id kind p.pipelineVersion) = [j] ∧
      LaneJob p kind j ∧ j.state = .pending

namespace Retained

theorem refl (db : Database) : Retained db db :=
  ⟨List.prefix_rfl, List.prefix_rfl, fun _ _ ↦ rfl⟩

theorem trans {a b c : Database} (h : Retained a b) (h' : Retained b c) : Retained a c where
  snapshots := h.snapshots.trans h'.snapshots
  exclusions := h.exclusions.trans h'.exclusions
  pins p hp := (h'.pins p (h.snapshots.subset hp)).trans (h.pins p hp)

theorem of_eq {db db' : Database}
    (hsnapshots : db'.other.generationSnapshots = db.other.generationSnapshots)
    (hexclusions : db'.other.snapshotExclusions = db.other.snapshotExclusions)
    (hpins : db'.other.snapshotRevisions = db.other.snapshotRevisions) : Retained db db' := by
  refine ⟨hsnapshots ▸ List.prefix_rfl, hexclusions ▸ List.prefix_rfl, fun p _ ↦ ?_⟩
  rw [pinsOf, hpins, pinsOf]

end Retained

variable {db db' : Database} {clock : StatementClock} {call : SystemCall}

/-! ## The steps -/

section Closed

variable {session : TalkSession} {request : CloseRequest} {draws : CloseDraws}
  {included : List CurrentRevision} {schema : String} {createdAt : Timestamp}

theorem Closed.retained (hc : Closed session request draws included schema createdAt db db') :
    Retained db db' := by
  have hnew := hc.free.newSnapshot
  have hresult := hc.result
  set snapshot := closeSnapshot session request draws schema
  have hpins : db'.other.snapshotRevisions = db.other.snapshotRevisions ++
      snapshotPins snapshot.id included := by
    rw [hresult]
    rfl
  refine ⟨?_, ?_, fun p hp ↦ ?_⟩
  · rw [hresult]
    exact List.prefix_append _ _
  · rw [hresult]
    exact List.prefix_append _ _
  · -- The revisions that are pinned now belong to the new snapshot.
    have hnone : (snapshotPins snapshot.id included).filter (·.snapshotId = p.id) = [] := by
      rw [List.filter_eq_nil_iff]
      intro r hr heq
      obtain ⟨row, -, hrow⟩ := List.mem_filterMap.mp hr
      obtain ⟨run, -, rfl⟩ := Option.map_eq_some_iff.mp hrow
      exact hnew p hp (Or.inl (of_decide_eq_true heq).symm)
    rw [pinsOf, hpins, List.filter_append, hnone, List.append_nil, pinsOf]

theorem Closed.jobs_eq (hc : Closed session request draws included schema createdAt db db') :
    db'.jobs = db.jobs ++ laneJobs draws (closeSnapshot session request draws schema) createdAt
      canonicalGenerationKinds := by
  rw [hc.result]
  rfl

/-- The job of each lane is among those that a close appends. -/
theorem Closed.laneJob (hc : Closed session request draws included schema createdAt db db')
    (kind : GenerationKind) :
    ∃ j ∈ db'.jobs, LaneJob (closeSnapshot session request draws schema) kind j ∧
      j.state = .pending := by
  refine ⟨generationJob (draws.jobId kind) (closeSnapshot session request draws schema) createdAt
    kind, ?_, ⟨rfl, rfl, rfl⟩, rfl⟩
  rw [hc.jobs_eq]
  refine List.mem_append_right _ (List.mem_map_of_mem ?_)
  cases kind <;> simp [canonicalGenerationKinds]

theorem Closed.added (hw : Wellformed db)
    (hc : Closed session request draws included schema createdAt db db') :
    GenerationAdded session (closeSnapshot session request draws schema) db db' := by
  have hruns := hc.runsOf_new hw
  refine ⟨?_, rfl, rfl, ?_, fun kind ↦ ?_, ⟨_, hc.jobs_eq, fun j hj ↦ ?_⟩, fun kind ↦ ?_⟩
  · rw [hc.result]
    rfl
  · rw [hruns, hc.result]
    rfl
  · rw [hruns]
    cases kind <;> exact ⟨_, rfl, rfl, rfl⟩
  · obtain ⟨kind, -, rfl⟩ := List.mem_map.mp hj
    exact ⟨kind, rfl, rfl, rfl⟩
  · obtain ⟨j, hj, hlane, hstate⟩ := hc.laneJob kind
    refine ⟨j, ?_, hlane, hstate⟩
    rw [← hlane.1]
    exact filter_key_eq_singleton (hw.closed hc).queue.keys hj

end Closed

/-- Closing is the one step that writes the tables of generations. -/
theorem SystemStep.generations (hstep : SystemStep clock call db db') :
    (db'.other.generationSnapshots = db.other.generationSnapshots ∧ Retained db db') ∨
      ∃ session request draws included schema,
        Closed session request draws included schema clock.seen db db' := by
  cases hstep with
  | background hb =>
    have hsame := hb.writes.same
    exact Or.inl ⟨hsame.generationSnapshots, Retained.of_eq hsame.generationSnapshots
      hsame.snapshotExclusions hsame.snapshotRevisions⟩
  | created session actorId roomId topic hcall hc =>
    obtain ⟨-, -, -, activity, e, rfl, -⟩ := hc
    exact Or.inl ⟨rfl, Retained.of_eq rfl rfl rfl⟩
  | closed session request draws included schema hcall hc =>
    exact Or.inr ⟨session, request, draws, included, schema, hc⟩
  | reopened session actorId hcall hr =>
    rw [hr.result]
    exact Or.inl ⟨rfl, Retained.of_eq rfl rfl rfl⟩
  | retried session snapshot actorId hcall hr =>
    rw [hr.result]
    exact Or.inl ⟨rfl, Retained.of_eq rfl rfl rfl⟩
  | laneCompleted claimed outcome resultId reportJobId e snapshot session aggregate hcall hexec hl =>
    exact Or.inl ⟨hl.snapshots, Retained.of_eq hl.snapshots hl.exclusions hl.pins⟩
  | comparisonFailed claimed outcome resultId snapshotId hcall hterminal hc =>
    exact Or.inl ⟨hc.snapshots, Retained.of_eq hc.snapshots hc.exclusions hc.pins⟩

theorem SystemStep.retained (hstep : SystemStep clock call db db') : Retained db db' := by
  rcases hstep.generations with ⟨-, h⟩ | ⟨_, _, _, _, _, hc⟩
  · exact h
  · exact hc.retained

theorem laneJobs_empty : LaneJobs (emptyStore emptyTables) := List.forall_mem_nil _

theorem LaneJobs.step (h : LaneJobs db) (hw : Wellformed db)
    (hstep : SystemStep clock call db db') : LaneJobs db' := by
  obtain ⟨rows, hmoves⟩ := hstep.moves
  have hgrows := (hmoves hw.queue).2
  have hold : ∀ p ∈ db.other.generationSnapshots, ∀ kind, ∃ j ∈ db'.jobs, LaneJob p kind j := by
    intro p hp kind
    obtain ⟨j, hj, hkey, hkind, hid⟩ := h p hp kind
    obtain ⟨j', hj', hident, -⟩ := hgrows.kept j hj
    exact ⟨j', hj', (congrArg JobIdentity.logicalKey hident).trans hkey,
      (congrArg JobIdentity.kind hident).trans hkind,
      (congrArg JobIdentity.snapshotId hident).trans hid⟩
  rcases hstep.generations with ⟨hsame, -⟩ | ⟨session, request, draws, included, schema, hc⟩
  · intro p hp
    rw [hsame] at hp
    exact hold p hp
  · intro p hp kind
    rw [(hc.added hw).snapshots] at hp
    rcases List.mem_append.mp hp with hp | hp
    · exact hold p hp kind
    · rw [List.mem_singleton.mp hp]
      exact (hc.laneJob kind).imp fun j hj ↦ ⟨hj.1, hj.2.1⟩

theorem reachable_laneJobs {now : Timestamp} {s : SystemState}
    (h : systemMachine.Reachable (emptySystem now) s) : LaneJobs s.db := by
  refine (h.invariant (P := fun s ↦ s.Sound ∧ LaneJobs s.db)
    ⟨sound_empty now, laneJobs_empty⟩ ?_).2
  rintro s i ⟨hs, hjobs⟩ -
  exact ⟨hs.step i, hjobs.step hs.db (systemMachine_step hs i)⟩

/-! ## Closing again -/

/-- A valid close by the host of a session that is not open returns the latest snapshot. -/
theorem close_repeated (hw : Wellformed db) {t : TalkSession} (ht : t ∈ db.other.talkSessions)
    {request : CloseRequest} (hid : t.id = request.sessionId)
    (hstate : t.state ∈ [TalkSessionState.processing, .ready, .needsAttention])
    {exclusions : List CloseExclusion} (hvalid : requireCloseArguments request = .ok exclusions)
    (hhost : t.hostId = request.actorId) (hmember : ActiveMember db t.roomId request.actorId)
    (draws : CloseDraws) (createdAt : Timestamp) :
    ∃ p, latestSnapshot db t.id = some p ∧
      close request draws createdAt db = .ok (⟨p.id, p.generationEpoch, t.state, true⟩, db) := by
  have hopen : t.state ≠ .open := by
    intro heq
    rw [heq] at hstate
    simp at hstate
  -- The session has a snapshot of its epoch, so it has a latest one.
  obtain ⟨q, hq, hqid, -⟩ := hw.current t ht (hw.epoch_ne_zero ht hopen)
  obtain ⟨p, hlatest⟩ : ∃ p, latestSnapshot db t.id = some p :=
    selectLast_isSome hq (decide_eq_true hqid)
  refine ⟨p, hlatest, ?_⟩
  have hsession : requireHostedSession (.sessionAccess "session is unavailable")
      (.sessionHostRequired "only the session host may close") db request.sessionId
      request.actorId = .ok t :=
    requireHostedSession_eq_ok.mpr ⟨(lockSession_eq_some hw.sessions).mpr ⟨ht, hid, hmember⟩, hhost⟩
  have hclosed : t.state ∈ [TalkSessionState.closed, .processing, .ready, .needsAttention] :=
    List.mem_cons_of_mem _ hstate
  simp only [close, bind_eq_ok]
  refine ⟨exclusions, hvalid, t, hsession, ?_⟩
  rw [if_neg hopen, existingSnapshotOrRaise, require_of hclosed, ← hid, hlatest]
  rfl

/-- A close that takes a session from `open` to `processing` adds one generation. -/
def AddsGeneration (db db' : Database) : Prop :=
  ∀ t ∈ db.other.talkSessions, ∀ t' ∈ db'.other.talkSessions, t'.id = t.id → t.state = .open →
    t'.state = .processing →
      t'.generationEpoch = t.generationEpoch + 1 ∧ ∃ p, GenerationAdded t p db db'

/-- A close of a session that has been closed leaves the database alone, and a valid one by the host
returns the snapshot of the highest epoch. -/
def RepeatsGeneration (request : CloseRequest) (db : Database)
    (reply : Except Error SystemReply) (db' : Database) : Prop :=
  ∀ t ∈ db.other.talkSessions, t.id = request.sessionId →
    t.state ∈ [TalkSessionState.processing, .ready, .needsAttention] →
      db' = db ∧ ((∃ exclusions, requireCloseArguments request = .ok exclusions) →
        t.hostId = request.actorId → ActiveMember db t.roomId request.actorId →
          ∃ p ∈ db.other.generationSnapshots, p.sessionId = t.id ∧
            (∀ q ∈ db.other.generationSnapshots, q.sessionId = t.id →
              q.generationEpoch ≤ p.generationEpoch) ∧
            reply = .ok (.closed ⟨p.id, p.generationEpoch, t.state, true⟩))

theorem addsGeneration_step {s : SystemState} (hs : s.Sound) {i : SystemInput}
    {request : CloseRequest} {draws : CloseDraws} (hcall : i.call = .close request draws) :
    AddsGeneration s.db (systemMachine.step s i).2.db := by
  intro t ht t' ht' hid hopen hprocessing
  cases (systemMachine_step hs i).session hs.db ht ht' hid with
  | kept h =>
    rw [h, hopen] at hprocessing
    exact nomatch hprocessing
  | closed request draws included schema hcall hc hrow =>
    rw [hrow]
    exact ⟨rfl, _, hc.added hs.db⟩
  | reopened actorId hreopen hr hrow => exact nomatch hcall.symm.trans hreopen
  | retried snapshot actorId hretry hr hrow => exact nomatch hcall.symm.trans hretry
  | projected claimed outcome resultId reportJobId e snapshot aggregate hlane _ _ _ _ =>
    exact nomatch hcall.symm.trans hlane
  | attention claimed outcome resultId snapshotId hcomparison _ _ _ _ =>
    exact nomatch hcall.symm.trans hcomparison

theorem repeatsGeneration_step {s : SystemState} (hs : s.Sound) {i : SystemInput}
    {request : CloseRequest} {draws : CloseDraws} (hcall : i.call = .close request draws) :
    RepeatsGeneration request s.db (systemMachine.step s i).1 (systemMachine.step s i).2.db := by
  intro t ht hid hstate
  have hbody : i.call.body i.clock s.db =
      (SystemCall.close request draws).body i.clock s.db := by rw [hcall]
  constructor
  · -- The transaction returned from the branch for a session that is not open, or it raised.
    refine transaction_snd_of (P := fun db' ↦ db' = s.db) rfl fun reply db' h ↦ ?_
    rw [hbody] at h
    obtain ⟨r, hr, hdb'⟩ := bind_eq_ok.mp h
    cases hdb'
    rcases close_eq_ok hs.db.sessions hr with hsame | ⟨session, included, schema, hc⟩
    · exact hsame
    · obtain rfl : session = t := eq_of_key_eq hs.db.sessions hc.mem ht (hc.id.trans hid.symm)
      rw [hc.isOpen] at hstate
      simp at hstate
  · rintro ⟨exclusions, hvalid⟩ hhost hmember
    obtain ⟨p, hlatest, hclose⟩ :=
      close_repeated hs.db ht hid hstate hvalid hhost hmember draws i.clock.seen
    obtain ⟨hmem, hsession⟩ := selectLast_mem hlatest
    refine ⟨p, hmem, of_decide_eq_true hsession, fun q hq hqid ↦ ?_, ?_⟩
    · exact selectLast_ge hlatest hq (decide_eq_true hqid)
    · refine (@systemMachine_of_ok _ _ _ s.db ?_).1
      rw [hbody]
      exact bind_eq_ok.mpr ⟨_, hclose, rfl⟩

/-- **Generations accumulate.** Along every legal run, a close that moves a session from `open` to
`processing` adds one generation of the next epoch, every later close returns the latest one, and
nothing of an earlier generation changes. -/
theorem generations_accumulate (now : Timestamp) (is : List SystemInput)
    (h : systemMachine.Legal (emptySystem now) is) :
    systemMachine.Along (fun s i ↦ ∀ request draws, i.call = .close request draws →
      AddsGeneration s.db (systemMachine.step s i).2.db ∧
        RepeatsGeneration request s.db (systemMachine.step s i).1 (systemMachine.step s i).2.db)
      (emptySystem now) is ∧
    ∀ before after, is = before ++ after →
      Retained (systemMachine.exec (emptySystem now) before).db
        (systemMachine.exec (emptySystem now) is).db := by
  have hsound := legal_sound h
  refine ⟨hsound.mono fun s i hs request draws hcall ↦
    ⟨addsGeneration_step hs.1 hcall, repeatsGeneration_step hs.1 hcall⟩, ?_⟩
  rintro before after rfl
  rw [Machine.exec_append]
  refine (Machine.along_append.mp hsound).2.relates (R := fun s s' ↦ Retained s.db s'.db)
    (fun s ↦ Retained.refl s.db) Retained.trans ?_
  exact fun s i hs ↦ (systemMachine_step hs.1 i).retained

/-- A session is closed, reopened, closed twice more and retried. -/
def secondGeneration : List SystemInput :=
  researchPutBack ++
    [ callAt 9 (.reopen 3 1),
      callAt 10 (closeCall 200),
      callAt 11 (closeCall 300),
      callAt 12 (.retry 3 1) ]

theorem generations_accumulate_secondGeneration :
    systemMachine.Along (fun s i ↦ ∀ request draws, i.call = .close request draws →
      AddsGeneration s.db (systemMachine.step s i).2.db ∧
        RepeatsGeneration request s.db (systemMachine.step s i).1 (systemMachine.step s i).2.db)
      (emptySystem 0) secondGeneration ∧
    ∀ before after, secondGeneration = before ++ after →
      Retained (systemMachine.exec (emptySystem 0) before).db
        (systemMachine.exec (emptySystem 0) secondGeneration).db :=
  generations_accumulate 0 secondGeneration (by decide +kernel)

end MeetingRag
