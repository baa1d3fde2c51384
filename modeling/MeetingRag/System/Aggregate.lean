import MeetingRag.System.Interference

/-!
# The state of a session mirrors its generation

The state of a session is a copy of something computed: the projection of the two runs of its current
snapshot. Five transactions write one side or the other. Along every quiet run they keep the two
equal, with one exception that is meant: a comparison that failed for good shows as
`needs_attention` although both lanes succeeded.
-/

open Outcome Table Text

namespace MeetingRag

/-- The comparison of a snapshot failed for good. -/
def ReportFailed (db : Database) (snapshotId : UUID) : Prop :=
  ∃ j ∈ db.jobs, j.kind = .reportSuggestions ∧ j.snapshotId = some snapshotId ∧
    j.state = .failedTerminal

instance (db : Database) (snapshotId : UUID) : Decidable (ReportFailed db snapshotId) :=
  inferInstanceAs (Decidable (∃ j ∈ db.jobs, j.kind = .reportSuggestions ∧
    j.snapshotId = some snapshotId ∧ j.state = .failedTerminal))

/-- A session shows what its snapshot projects, or that the comparison of the snapshot failed. -/
def Mirrors (db : Database) (s : TalkSession) (p : GenerationSnapshot) : Prop :=
  let projected := projectedState (laneState db p.id .summary) (laneState db p.id .research)
  s.state = projected ∨
    (s.state = .needsAttention ∧ projected = .ready ∧ ReportFailed db p.id)

/-- Every session that is not open mirrors its current snapshot. -/
def Mirrored (db : Database) : Prop :=
  ∀ s ∈ db.other.talkSessions, s.state ≠ .open → ∀ p ∈ db.other.generationSnapshots,
    p.sessionId = s.id → p.generationEpoch = s.generationEpoch → Mirrors db s p

theorem mirrored_empty : Mirrored (emptyStore emptyTables) := List.forall_mem_nil _

variable {db db' : Database}

theorem ReportFailed.grows {snapshotId : UUID} {rows : List (Job JobDocument)}
    (h : ReportFailed db snapshotId) (hgrows : Grows rows db.jobs db'.jobs) :
    ReportFailed db' snapshotId := by
  obtain ⟨j, hj, hkind, hid, hstate⟩ := h
  obtain ⟨j', hj', -, hkept⟩ := hgrows.kept j hj
  have hsame : j' = j := hkept (Or.inr hstate)
  subst hsame
  exact ⟨j', hj', hkind, hid, hstate⟩

/-- A step that leaves the runs of a snapshot alone keeps what a session mirrors. -/
theorem Mirrors.of_runs {s : TalkSession} {p : GenerationSnapshot} {rows : List (Job JobDocument)}
    (h : Mirrors db s p) (hruns : runsOf db' p.id = runsOf db p.id)
    (hgrows : Grows rows db.jobs db'.jobs) : Mirrors db' s p := by
  rw [Mirrors, laneState_congr hruns, laneState_congr hruns]
  rcases h with h | ⟨hstate, hready, hfailed⟩
  · exact Or.inl h
  · exact Or.inr ⟨hstate, hready, hfailed.grows hgrows⟩

theorem runsOf_congr {snapshotId : UUID} (h : db'.other.generationRuns = db.other.generationRuns) :
    runsOf db' snapshotId = runsOf db snapshotId := by
  rw [runsOf, runsOf, h]

/-- A step that changes neither snapshots nor runs and opens or keeps every session. -/
theorem Mirrored.of_same {rows : List (Job JobDocument)} (h : Mirrored db)
    (hsessions : ∀ s ∈ db'.other.talkSessions, s ∈ db.other.talkSessions ∨ s.state = .open)
    (hsnapshots : db'.other.generationSnapshots = db.other.generationSnapshots)
    (hruns : db'.other.generationRuns = db.other.generationRuns)
    (hgrows : Grows rows db.jobs db'.jobs) : Mirrored db' := by
  intro s hs hopen p hp hid hepoch
  rw [hsnapshots] at hp
  rcases hsessions s hs with hs | hs
  · exact (h s hs hopen p hp hid hepoch).of_runs (runsOf_congr hruns) hgrows
  · exact absurd hs hopen

/-! ## The steps -/

section Steps

theorem Mirrored.closed (hw : Wellformed db) (h : Mirrored db) {session : TalkSession}
    {request : CloseRequest} {draws : CloseDraws} {included : List CurrentRevision}
    {schema : String} {createdAt : Timestamp}
    (hc : Closed session request draws included schema createdAt db db') : Mirrored db' := by
  have hw' := hw.closed hc
  obtain ⟨-, hgrows⟩ := QueueMoves.inserted hc.inserted hw.queue
  have hresult := hc.result
  set snapshot := closeSnapshot session request draws schema with hsnapshot
  have hlast : snapshot ∈ db'.other.generationSnapshots := by
    rw [hresult]
    exact List.mem_append_right _ (List.mem_singleton_self snapshot)
  intro s hs hopen p hp hid hepoch
  rw [hc.sessions] at hs
  rcases mem_updateWhere.mp hs with ⟨s₀, hs₀, heq, rfl⟩ | ⟨hs₀, hne⟩
  · -- The closed session shows its new snapshot, whose lanes are queued.
    have hpnew : p = snapshot := by
      refine hw'.epochs p hp snapshot hlast (hid.trans heq) ?_
      rw [hepoch]
      rfl
    rw [hpnew]
    have hpair : runsOf db' snapshot.id =
        [queuedRun (draws.runId .summary) snapshot .summary,
          queuedRun (draws.runId .research) snapshot .research] := hc.runsOf_new hw
    obtain ⟨hsummary, hresearch⟩ := laneState_pair hpair rfl rfl
    refine Or.inl ?_
    rw [hsummary, hresearch]
    rfl
  · -- Another session keeps its snapshot, which is not the new one.
    have hpold : p ∈ db.other.generationSnapshots := by
      rw [hresult] at hp
      rcases List.mem_append.mp hp with hp | hp
      · exact hp
      · rw [List.mem_singleton.mp hp] at hid
        exact absurd hid.symm hne
    exact (h s hs₀ hopen p hpold hid hepoch).of_runs (hc.runsOf_old hpold) hgrows

theorem Mirrored.retried (hw : Wellformed db) (h : Mirrored db) {session : TalkSession}
    {snapshot : GenerationSnapshot} {actorId : UUID} (hr : Retried session snapshot actorId db db') :
    Mirrored db' := by
  have hresult := hr.result
  obtain ⟨-, hgrows⟩ := QueueMoves.trans (requeuedLanes_moves hr.nodup hr.lanes)
    (QueueMoves.of_other db'.other) hw.queue
  have hgrows : Grows ([] ++ []) db.jobs db'.jobs := by
    rw [hresult] at hgrows ⊢
    exact hgrows
  have hepoch0 : session.generationEpoch ≠ 0 :=
    hw.epoch_ne_zero hr.mem (by rw [hr.attention]; exact nofun)
  obtain ⟨hsnapshot, hsid, hsepoch⟩ := hw.latest hr.mem hepoch0 hr.latest
  have hruns : ∀ id, runsOf db' id =
      runsOf (requeuedLanes snapshot.id (retryableKinds (runsOf db snapshot.id)) db) id := by
    intro id
    rw [hresult]
    rfl
  intro s hs hopen p hp hid hepoch
  have hp : p ∈ db.other.generationSnapshots := by
    rw [hresult] at hp
    exact hp
  rw [hr.sessions] at hs
  rcases mem_updateWhere.mp hs with ⟨s₀, hs₀, heq, rfl⟩ | ⟨hs₀, hne⟩
  · have hsame : s₀ = session := eq_of_key_eq hw.sessions hs₀ hr.mem heq
    subst hsame
    have hcurrent : p = snapshot := hw.epochs p hp snapshot hsnapshot (hid.trans hsid.symm)
      (hepoch.trans hsepoch.symm)
    subst hcurrent
    have hlanes := hw.lanes p hp
    refine Or.inl ?_
    rw [laneState_congr (hruns p.id), laneState_congr (hruns p.id), laneState_requeued hlanes,
      laneState_requeued hlanes, projectedState_requeued (exists_failed_lane hlanes hr.nonempty)]
    rfl
  · have hother : p.id ≠ snapshot.id := by
      intro heq
      have hsame : p = snapshot := eq_of_key_eq hw.snapshots hp hsnapshot heq
      rw [hsame] at hid
      exact hne (hid.symm.trans hsid)
    refine (h s hs₀ hopen p hp hid hepoch).of_runs ?_ hgrows
    rw [hruns, runsOf_requeued_of_ne hother]

theorem Mirrored.laneCompleted (hw : Wellformed db) (h : Mirrored db)
    {claimed : ClaimedJob JobDocument} {e : GenerationExecution} {snapshot : GenerationSnapshot}
    {session : TalkSession} {aggregate : GenerationAggregate} {clock : StatementClock}
    (hl : LaneCompleted claimed e snapshot session aggregate clock db db')
    (hquiet : ¬LaneInterferes Stale db clock claimed e) : Mirrored db' := by
  obtain ⟨rows, hmoves, -⟩ := hl.queue
  obtain ⟨-, hgrows⟩ := hmoves hw.queue
  obtain ⟨f, hf, hruns⟩ := hl.runs
  -- Only the runs of the completed snapshot are written.
  have hother : ∀ p ∈ db.other.generationSnapshots, p ≠ snapshot →
      runsOf db' p.id = runsOf db p.id := by
    intro p hp hne
    refine runsOf_written_of_ne hf hruns fun heq ↦ hne ?_
    exact eq_of_key_eq hw.snapshots hp hl.snapshot_mem (heq.trans hl.snapshot_id.symm)
  intro s hs hopen p hp hid hepoch
  rw [hl.snapshots] at hp
  -- A session that was written, or that has the completed snapshot as its current one, shows the
  -- projection; every other session is as it was.
  have hcases : (s.state = aggregate.state ∧ p = snapshot) ∨
      (s ∈ db.other.talkSessions ∧ p ≠ snapshot) := by
    by_cases hsession : s.id = session.id
    · by_cases hstale : Stale snapshot session
      · have hsame := hl.quiet hw hquiet hstale
        rw [hl.sessions, writtenSessions, if_pos hsame] at hs
        have hseq : s = session := eq_of_key_eq hw.sessions hs hl.session_mem hsession
        refine Or.inr ⟨hs, fun heq ↦ hstale ?_⟩
        rw [← heq, hepoch, hseq]
      · have hcurrent : snapshot.generationEpoch = session.generationEpoch := not_not.mp hstale
        have hrow : s.state = aggregate.state ∧ s.generationEpoch = session.generationEpoch := by
          rw [hl.sessions, writtenSessions] at hs
          split at hs
          · next hsame =>
            rw [eq_of_key_eq hw.sessions hs hl.session_mem hsession]
            exact ⟨hsame, rfl⟩
          · rcases mem_updateWhere.mp hs with ⟨s₀, hs₀, heq, rfl⟩ | ⟨-, hne⟩
            · rw [eq_of_key_eq hw.sessions hs₀ hl.session_mem heq]
              exact ⟨rfl, rfl⟩
            · exact absurd hsession hne
        refine Or.inl ⟨hrow.1, hw.epochs p hp snapshot hl.snapshot_mem ?_ ?_⟩
        · exact hid.trans (hsession.trans hl.session_id)
        · rw [hepoch, hrow.2, hcurrent]
    · refine Or.inr ⟨?_, fun heq ↦ hsession ?_⟩
      · rw [hl.sessions, writtenSessions] at hs
        split at hs
        · exact hs
        · rcases mem_updateWhere.mp hs with ⟨s₀, -, heq, rfl⟩ | ⟨hs, -⟩
          · exact absurd heq hsession
          · exact hs
      · rw [← hid, heq]
        exact hl.session_id.symm
  rcases hcases with ⟨hstate, rfl⟩ | ⟨hs, hne⟩
  · exact Or.inl (hstate.trans (hl.state_eq hw))
  · exact (h s hs hopen p hp hid hepoch).of_runs (hother p hp hne) hgrows

theorem Mirrored.comparisonFailed {s : SystemState} (hs : s.Sound) (h : Mirrored s.db)
    {claimed : ClaimedJob JobDocument} (hissued : claimed ∈ s.issued) {snapshotId : UUID}
    {clock : StatementClock} (hc : ComparisonFailed claimed snapshotId clock s.db db')
    (hquiet : ¬ReportInterferes Stale s.db clock claimed snapshotId) : Mirrored db' := by
  obtain ⟨-, hgrows⟩ := hc.queue hs.db.queue
  intro t ht hopen p hp hid hepoch
  rw [hc.snapshots] at hp
  rw [hc.sessions] at ht
  rcases mem_updateWhere.mp ht with ⟨t₀, ht₀, ⟨⟨q, hq, hqid, htq⟩, hready⟩, rfl⟩ | ⟨ht, -⟩
  · -- The session was ready and the failed comparison is that of its current snapshot.
    obtain ⟨row, hrow, hfenced, row', hrow', hident, hstate⟩ := hc.job
    obtain ⟨pipelineVersion, hidentity⟩ := hc.identity
    obtain ⟨j, hj, hjid, hjkind, hjsnapshot⟩ := report_of_issued hs hissued hidentity
    have hsame : row = j :=
      eq_of_key_eq hs.db.queue.ids hrow hj (hfenced.1.trans hjid.symm)
    have hcurrent : q.generationEpoch = t₀.generationEpoch := by
      by_contra hne
      exact hquiet ⟨⟨row, hrow, hfenced⟩, q, hq, hqid, t₀, ht₀, htq, hne, hready⟩
    have hpq : p = q :=
      hs.db.epochs p hp q hq (hid.trans htq) (hepoch.trans hcurrent.symm)
    have hmirrors := h t₀ ht₀ (by rw [hready]; exact nofun) p hp hid hepoch
    rw [Mirrors, laneState_congr (runsOf_congr hc.runs), laneState_congr (runsOf_congr hc.runs)]
    have hprojected : projectedState (laneState s.db p.id .summary)
        (laneState s.db p.id .research) = .ready := by
      rcases hmirrors with hstate | ⟨hstate, hprojected, -⟩
      · exact hstate.symm.trans hready
      · exact hprojected
    refine Or.inr ⟨rfl, hprojected, row', hrow', ?_, ?_, hstate⟩
    · exact (congrArg JobIdentity.kind hident).trans (hsame ▸ hjkind)
    · have hrowsnapshot : row'.snapshotId = row.snapshotId :=
        congrArg JobIdentity.snapshotId hident
      rw [hrowsnapshot, hsame, hjsnapshot, hpq, hqid]
  · exact (h t ht hopen p hp hid hepoch).of_runs (runsOf_congr hc.runs) hgrows

end Steps

/-- **The step lemma**, for a step that does not interfere. -/
theorem mirrored_step {s : SystemState} (hs : s.Sound) (h : Mirrored s.db) {i : SystemInput}
    (henabled : systemMachine.enabled s i) (hquiet : Quiet Stale s i) :
    Mirrored (systemMachine.step s i).2.db := by
  have hissued := fun claimed ↦ @issued_of_enabled _ _ henabled claimed
  have hstep := systemMachine_step hs i
  obtain ⟨clock, call⟩ := i
  cases hstep with
  | background hb =>
    obtain ⟨rows, hmoves, -⟩ := hb.queue
    have hsame := hb.writes.same
    refine h.of_same (fun t ht ↦ Or.inl (hsame.talkSessions ▸ ht)) hsame.generationSnapshots
      hsame.generationRuns (hmoves hs.db.queue).2
  | created session actorId roomId topic hcall hc =>
    obtain ⟨-, hopen, -, activity, e, hframe, -⟩ := hc
    rw [hframe]
    refine h.of_same (fun t ht ↦ ?_) rfl rfl (Grows.refl _)
    exact (List.mem_append.mp ht).imp_right fun ht ↦ by rw [List.mem_singleton.mp ht, hopen]
  | closed session request draws included schema hcall hc => exact Mirrored.closed hs.db h hc
  | reopened session actorId hcall hr =>
    rw [hr.result]
    refine h.of_same (fun t ht ↦ ?_) rfl rfl (Grows.refl _)
    rcases mem_updateWhere.mp ht with ⟨t₀, -, -, rfl⟩ | ⟨ht, -⟩
    · exact Or.inr rfl
    · exact Or.inl ht
  | retried session snapshot actorId hcall hr => exact Mirrored.retried hs.db h hr
  | laneCompleted claimed outcome resultId reportJobId e snapshot session aggregate hcall hexec hl =>
    subst hcall
    refine Mirrored.laneCompleted hs.db h hl ?_
    rw [Quiet, Interferes, hexec] at hquiet
    exact hquiet
  | comparisonFailed claimed outcome resultId snapshotId hcall hterminal hc =>
    subst hcall
    obtain ⟨pipelineVersion, hident⟩ := hc.identity
    refine Mirrored.comparisonFailed hs h (hissued claimed rfl) hc ?_
    rw [Quiet, Interferes, hident] at hquiet
    exact fun hinterferes ↦ hquiet ⟨hterminal, hinterferes⟩

/-- The current snapshot of a session. -/
def CurrentOf (s : TalkSession) (p : GenerationSnapshot) : Prop :=
  p.sessionId = s.id ∧ p.generationEpoch = s.generationEpoch

/-- A session shows the projection of the runs of a snapshot, or `needs_attention` for a comparison
of that snapshot that failed for good after both lanes had succeeded. -/
def Shows (db : Database) (s : TalkSession) (p : GenerationSnapshot) : Prop :=
  match projectRuns db p.id with
  | .ok aggregate => s.state = aggregate.state ∨
      (s.state = .needsAttention ∧ aggregate.state = .ready ∧ ReportFailed db p.id)
  | .error _ => False

/-- A session that is not open has one current snapshot, and shows it. -/
def ShowsCurrent (db : Database) (s : TalkSession) : Prop :=
  s.state ∈ [TalkSessionState.processing, .ready, .needsAttention] →
    ∃ p ∈ db.other.generationSnapshots, CurrentOf s p ∧
      (∀ q ∈ db.other.generationSnapshots, CurrentOf s q → q = p) ∧ Shows db s p

instance (s : TalkSession) : DecidablePred (CurrentOf s) := fun p ↦
  inferInstanceAs (Decidable (p.sessionId = s.id ∧ p.generationEpoch = s.generationEpoch))

instance (db : Database) (s : TalkSession) (p : GenerationSnapshot) : Decidable (Shows db s p) := by
  unfold Shows
  split <;> infer_instance

instance (db : Database) (s : TalkSession) : Decidable (ShowsCurrent db s) :=
  inferInstanceAs (Decidable (s.state ∈ [TalkSessionState.processing, .ready, .needsAttention] →
    ∃ p ∈ db.other.generationSnapshots, CurrentOf s p ∧
      (∀ q ∈ db.other.generationSnapshots, CurrentOf s q → q = p) ∧ Shows db s p))

theorem Mirrored.showsCurrent (hw : Wellformed db) (h : Mirrored db) {s : TalkSession}
    (hs : s ∈ db.other.talkSessions) : ShowsCurrent db s := by
  intro hstate
  have hopen : s.state ≠ .open := by
    intro heq
    rw [heq] at hstate
    simp at hstate
  obtain ⟨p, hp, hid, hepoch⟩ := hw.current s hs (hw.epoch_ne_zero hs hopen)
  refine ⟨p, hp, ⟨hid, hepoch⟩, fun q hq hcurrent ↦ ?_, ?_⟩
  · exact hw.epochs q hq p hp (hcurrent.1.trans hid.symm) (hcurrent.2.trans hepoch.symm)
  · obtain ⟨aggregate, hprojected, haggregate⟩ := projectRuns_eq (hw.lanes p hp) hw.coded
    have hmirrors := h s hs hopen p hp hid hepoch
    rw [Mirrors, ← haggregate] at hmirrors
    rw [Shows, hprojected]
    exact hmirrors

/-- **Sessions show their generations.** In every state of a run along which no completion of an
earlier generation interferes, a session that is processing, ready or in need of attention shows the
projection of the runs of its current snapshot, or the failed comparison of that snapshot. -/
theorem sessions_show_current_projection (now : Timestamp) (is : List SystemInput)
    (h : systemMachine.Along (fun s i ↦ systemMachine.enabled s i ∧ Quiet Stale s i)
      (emptySystem now) is) :
    ∀ s ∈ (systemMachine.exec (emptySystem now) is).db.other.talkSessions,
      ShowsCurrent (systemMachine.exec (emptySystem now) is).db s := by
  have hboth := h.invariant (P := fun s ↦ s.Sound ∧ Mirrored s.db) ⟨sound_empty now, mirrored_empty⟩
    fun s i ⟨hs, hm⟩ ⟨henabled, hquiet⟩ ↦ ⟨hs.step i, mirrored_step hs hm henabled hquiet⟩
  exact fun s hs ↦ hboth.2.showsCurrent hboth.1.db hs

/-! ## A completion after the next close -/

/-- The host reopens the session and closes it again while the second attempt is running, and that
attempt succeeds. -/
def staleResearch : List SystemInput :=
  researchPutBack ++
    [ callAt 9 (.reopen 3 1),
      callAt 10 (closeCall 200),
      callAt 11 (.completeLane (laneLease 100 .research 2 55) (resultFor 62) 75 76) ]

/-- The lease of the comparison of the first generation. -/
def reportLease : ClaimedJob JobDocument where
  id := 76
  logicalKey := reportKey (drawsFrom 100).snapshotId "p1"
  kind := .reportSuggestions
  payload := .generation (drawsFrom 100).snapshotId .reportSuggestions "p1"
  owner := "worker"
  leaseGeneration := 1
  leaseToken := 57
  attemptId := 58

/-- Both lanes succeed in time, and their comparison fails for good. -/
def failedComparison : List SystemInput :=
  researchPutBack ++
    [ callAt 9 (.completeLane (laneLease 100 .research 2 55) (resultFor 62) 75 76),
      callAt 10 (claimCall "report_suggestions" 57),
      callAt 11 (.completeSuggestions reportLease (.providerFailure "quota" false) 77) ]

/-- Without the condition, a session shows the result of a generation it has left behind. -/
theorem stale_completion_shows_other_projection :
    ¬∀ now is, systemMachine.Legal (emptySystem now) is →
      ∀ s ∈ (systemMachine.exec (emptySystem now) is).db.other.talkSessions,
        ShowsCurrent (systemMachine.exec (emptySystem now) is).db s :=
  fun h ↦ absurd (h 0 staleResearch (by decide +kernel)) (by decide +kernel)

theorem sessions_show_current_projection_failedComparison :
    ∃ s ∈ (systemMachine.exec (emptySystem 0) failedComparison).db.other.talkSessions,
      ShowsCurrent (systemMachine.exec (emptySystem 0) failedComparison).db s := by
  have hsessions :
      (systemMachine.exec (emptySystem 0) failedComparison).db.other.talkSessions ≠ [] := by
    decide +kernel
  obtain ⟨s, hs⟩ := List.exists_mem_of_ne_nil _ hsessions
  exact ⟨s, hs, sessions_show_current_projection 0 failedComparison (by decide +kernel) s hs⟩

end MeetingRag
