import MeetingRag.System.Wellformed

/-!
# Late completions

A host may reopen a session and close it again while a job of the earlier generation is still held by
a worker, or has been put back for another attempt. When that job ends, its transaction reads the
snapshot of the job and writes the session of the snapshot. It compares neither the epoch of the
snapshot with the epoch of the session nor the state of the session with `open`.

`MovedOn` is the situation, `Interferes` is exactly the completion that goes wrong in it: one whose
lane projects to another state than the session shows, or a comparison that fails for good while the
session is ready. Along every run without such a completion the sessions
that have moved on are left alone.
-/

open Outcome Table Text

namespace MeetingRag

/-- The snapshot is not that of the current generation of its session. -/
def Stale (p : GenerationSnapshot) (s : TalkSession) : Prop :=
  p.generationEpoch ≠ s.generationEpoch

instance : ∀ p s, Decidable (Stale p s) := fun p s ↦
  inferInstanceAs (Decidable (p.generationEpoch ≠ s.generationEpoch))

/-- The session of a snapshot has a later generation, or is open for more input. -/
def MovedOn (p : GenerationSnapshot) (s : TalkSession) : Prop := Stale p s ∨ s.state = .open

instance : ∀ p s, Decidable (MovedOn p s) := fun p s ↦
  inferInstanceAs (Decidable (Stale p s ∨ s.state = .open))

section Interferes

variable (moved : GenerationSnapshot → TalkSession → Prop)

/-- A worker completes a lane of a session that has moved on: its lease is live, its run can be
written, and the two lanes then show another state than the session. -/
def LaneInterferes (db : Database) (clock : StatementClock) (claimed : ClaimedJob JobDocument)
    (e : GenerationExecution) : Prop :=
  (∃ j ∈ db.jobs, Fenced claimed clock.seen j) ∧
    (∃ run ∈ db.other.generationRuns, WritableRun e.snapshotId e.kind e.pipelineVersion run) ∧
    ∃ p ∈ db.other.generationSnapshots, p.id = e.snapshotId ∧
      ∃ s ∈ db.other.talkSessions, s.id = p.sessionId ∧ moved p s ∧
        s.state ≠ laneProjection db p.id e.kind e.runState

/-- The comparison of a session that has moved on fails for good while the session is ready. -/
def ReportInterferes (db : Database) (clock : StatementClock) (claimed : ClaimedJob JobDocument)
    (snapshotId : UUID) : Prop :=
  (∃ j ∈ db.jobs, Fenced claimed clock.seen j) ∧
    ∃ p ∈ db.other.generationSnapshots, p.id = snapshotId ∧
      ∃ s ∈ db.other.talkSessions, s.id = p.sessionId ∧ moved p s ∧ s.state = .ready

/-- A completion that writes a session that has moved on. -/
def Interferes (db : Database) (clock : StatementClock) : SystemCall → Prop
  | .completeLane claimed outcome _ _ =>
    match laneExecution claimed outcome with
    | .ok (some e) => LaneInterferes moved db clock claimed e
    | .ok none | .error _ => False
  | .completeSuggestions claimed outcome _ =>
    match claimedReportIdentity claimed with
    | .ok (snapshotId, _) =>
      outcome.Terminal claimed ∧ ReportInterferes moved db clock claimed snapshotId
    | .error _ => False
  | _ => False

/-- A call whose completion, if it is one, does not interfere. -/
def Quiet (s : SystemState) (i : SystemInput) : Prop := ¬Interferes moved s.db i.clock i.call

variable [∀ p s, Decidable (moved p s)]

instance (db : Database) (clock : StatementClock) (claimed : ClaimedJob JobDocument)
    (e : GenerationExecution) : Decidable (LaneInterferes moved db clock claimed e) :=
  inferInstanceAs (Decidable ((∃ j ∈ db.jobs, Fenced claimed clock.seen j) ∧
    (∃ run ∈ db.other.generationRuns, WritableRun e.snapshotId e.kind e.pipelineVersion run) ∧
    ∃ p ∈ db.other.generationSnapshots, p.id = e.snapshotId ∧
      ∃ s ∈ db.other.talkSessions, s.id = p.sessionId ∧ moved p s ∧
        s.state ≠ laneProjection db p.id e.kind e.runState))

instance (db : Database) (clock : StatementClock) (claimed : ClaimedJob JobDocument)
    (snapshotId : UUID) : Decidable (ReportInterferes moved db clock claimed snapshotId) :=
  inferInstanceAs (Decidable ((∃ j ∈ db.jobs, Fenced claimed clock.seen j) ∧
    ∃ p ∈ db.other.generationSnapshots, p.id = snapshotId ∧
      ∃ s ∈ db.other.talkSessions, s.id = p.sessionId ∧ moved p s ∧ s.state = .ready))

instance (db : Database) (clock : StatementClock) : DecidablePred (Interferes moved db clock) :=
  fun call ↦ by
    unfold Interferes
    split
    · split <;> infer_instance
    · split <;> infer_instance
    · infer_instance

instance (s : SystemState) (i : SystemInput) : Decidable (Quiet moved s i) :=
  inferInstanceAs (Decidable ¬Interferes moved s.db i.clock i.call)

end Interferes

/-- The lease that a completion ends. -/
def SystemCall.completed : SystemCall → Option (ClaimedJob JobDocument)
  | completeLane claimed .. => some claimed
  | completeSuggestions claimed .. => some claimed
  | _ => none

/-- A completion of a job leaves the session of its snapshot as it was, if that has moved on. -/
def LeavesMovedOn (call : SystemCall) (db db' : Database) : Prop :=
  ∀ claimed ∈ call.completed, ∀ j ∈ db.jobs, j.id = claimed.id →
    ∀ p ∈ db.other.generationSnapshots, j.snapshotId = some p.id →
      ∀ s ∈ db.other.talkSessions, s.id = p.sessionId → MovedOn p s → s ∈ db'.other.talkSessions

instance (call : SystemCall) (db db' : Database) : Decidable (LeavesMovedOn call db db') :=
  inferInstanceAs (Decidable (∀ claimed ∈ call.completed, ∀ j ∈ db.jobs, j.id = claimed.id →
    ∀ p ∈ db.other.generationSnapshots, j.snapshotId = some p.id →
      ∀ s ∈ db.other.talkSessions, s.id = p.sessionId → MovedOn p s →
        s ∈ db'.other.talkSessions))

/-! ## What a claim names -/

section Named

variable {s : SystemState} {claimed : ClaimedJob JobDocument}

/-- The job of a lane claim is a lane of the snapshot that the execution persists. -/
theorem lane_of_issued (hs : s.Sound) (hissued : claimed ∈ s.issued) {outcome : ProviderOutcome}
    {e : GenerationExecution} (hexec : laneExecution claimed outcome = .ok (some e)) :
    ∃ j ∈ s.db.jobs, j.id = claimed.id ∧ j.snapshotId = some e.snapshotId := by
  obtain ⟨snapshotId, kind, pipelineVersion, hident, ⟨rfl, rfl, rfl⟩, -⟩ :=
    laneExecution_isFor hexec
  obtain ⟨hkind, hpayload⟩ := claimedGenerationIdentity_eq_some hident
  obtain ⟨j, hj, hid, hjkind, hjpayload⟩ := hs.issued claimed hissued
  refine ⟨j, hj, hid, ?_⟩
  have hshape := hs.db.jobs j hj
  have hpay : j.identity.payload = .generation e.snapshotId e.kind.jobKind e.pipelineVersion :=
    hjpayload.trans hpayload
  have hk : j.identity.kind = e.kind.jobKind := hjkind.trans hkind
  cases hshape with
  | extraction revisionId key kind =>
    rw [hk] at kind
    cases hek : e.kind <;> rw [hek] at kind <;> exact nomatch kind
  | lane p mem kind key jobKind snapshotId payload =>
    rw [hpay] at payload
    rw [JobDocument.generation.injEq] at payload
    exact payload.1 ▸ snapshotId
  | report p mem key jobKind snapshotId payload =>
    rw [hk] at jobKind
    cases hek : e.kind <;> rw [hek] at jobKind <;> exact nomatch jobKind

theorem claimedReportIdentity_eq_ok {snapshotId : UUID} {pipelineVersion : String}
    (h : claimedReportIdentity claimed = .ok (snapshotId, pipelineVersion)) :
    claimed.kind = .reportSuggestions ∧
      claimed.payload = .generation snapshotId .reportSuggestions pipelineVersion := by
  rw [claimedReportIdentity] at h
  split at h
  · next hkind hpayload =>
    obtain ⟨-, heq⟩ := require_bind_eq_ok.mp h
    cases heq
    exact ⟨hkind, hpayload⟩
  · exact nomatch h

/-- The job of a report claim is the report of the snapshot it names. -/
theorem report_of_issued (hs : s.Sound) (hissued : claimed ∈ s.issued) {snapshotId : UUID}
    {pipelineVersion : String}
    (hident : claimedReportIdentity claimed = .ok (snapshotId, pipelineVersion)) :
    ∃ j ∈ s.db.jobs, j.id = claimed.id ∧ j.kind = .reportSuggestions ∧
      j.snapshotId = some snapshotId := by
  obtain ⟨hkind, hpayload⟩ := claimedReportIdentity_eq_ok hident
  obtain ⟨j, hj, hid, hjkind, hjpayload⟩ := hs.issued claimed hissued
  refine ⟨j, hj, hid, hjkind.trans hkind, ?_⟩
  have hshape := hs.db.jobs j hj
  have hpay : j.identity.payload = .generation snapshotId .reportSuggestions pipelineVersion :=
    hjpayload.trans hpayload
  have hk : j.identity.kind = .reportSuggestions := hjkind.trans hkind
  cases hshape with
  | extraction revisionId key kind => exact nomatch hk.symm.trans kind
  | lane p mem kind key jobKind snapshotId payload =>
    rw [hk] at jobKind
    cases kind <;> exact nomatch jobKind
  | report p mem key jobKind snapshotId payload =>
    rw [hpay] at payload
    rw [JobDocument.generation.injEq] at payload
    exact payload.1 ▸ snapshotId

end Named

/-! ## Quiet runs -/

/-- A run that is quiet about more sessions is quiet about fewer. -/
theorem Quiet.mono {moved moved' : GenerationSnapshot → TalkSession → Prop} {s : SystemState}
    {i : SystemInput} (h : Quiet moved' s i) (hmoved : ∀ p t, moved p t → moved' p t) :
    Quiet moved s i := by
  intro hinterferes
  apply h
  unfold Interferes at hinterferes ⊢
  split at hinterferes
  · split at hinterferes
    · obtain ⟨hfenced, hrun, p, hp, hid, t, ht, htp, hmovedt, hstate⟩ := hinterferes
      exact ⟨hfenced, hrun, p, hp, hid, t, ht, htp, hmoved p t hmovedt, hstate⟩
    all_goals exact hinterferes
  · split at hinterferes
    · obtain ⟨hterminal, hfenced, p, hp, hid, t, ht, htp, hmovedt, hready⟩ := hinterferes
      exact ⟨hterminal, hfenced, p, hp, hid, t, ht, htp, hmoved p t hmovedt, hready⟩
    · exact hinterferes
  · exact hinterferes

theorem issued_of_enabled {s : SystemState} {i : SystemInput} (h : systemMachine.enabled s i)
    {claimed : ClaimedJob JobDocument} (hc : claimed ∈ i.call.completed) : claimed ∈ s.issued := by
  have hpresented := h.2
  obtain ⟨clock, call⟩ := i
  cases call with
  | completeLane c outcome resultId reportJobId =>
    rw [← Option.some.inj hc]
    exact (hpresented _ rfl).1
  | completeSuggestions c outcome resultId =>
    rw [← Option.some.inj hc]
    exact (hpresented _ rfl).1
  | _ => exact nomatch hc

/-- What the completion of a lane does not interfere with stays: the projection agrees with the
session, and nothing is written. -/
theorem LaneCompleted.quiet {moved : GenerationSnapshot → TalkSession → Prop} {db db' : Database}
    (h : Wellformed db)
    {claimed : ClaimedJob JobDocument} {e : GenerationExecution} {snapshot : GenerationSnapshot}
    {session : TalkSession} {aggregate : GenerationAggregate} {clock : StatementClock}
    (hl : LaneCompleted claimed e snapshot session aggregate clock db db')
    (hquiet : ¬LaneInterferes moved db clock claimed e) (hmoved : moved snapshot session) :
    session.state = aggregate.state := by
  rw [hl.projection h]
  by_contra hne
  exact hquiet ⟨hl.fenced, hl.writable, snapshot, hl.snapshot_mem, hl.snapshot_id, session,
    hl.session_mem, hl.session_id, hmoved, hne⟩

/-- One step that does not interfere leaves the sessions that have moved on. -/
theorem leavesMovedOn_step {s : SystemState} (hs : s.Sound) {i : SystemInput}
    (henabled : systemMachine.enabled s i) (hquiet : Quiet MovedOn s i) :
    LeavesMovedOn i.call s.db (systemMachine.step s i).2.db := by
  have hissued := fun claimed ↦ @issued_of_enabled _ _ henabled claimed
  have hstep := systemMachine_step hs i
  obtain ⟨clock, call⟩ := i
  intro claimed hclaimed j hj hid p hp hjp t ht htp hmoved
  have hissued := hissued claimed hclaimed
  cases hstep with
  | background hb =>
    rw [hb.writes.same.talkSessions]
    exact ht
  | created session actorId roomId topic hcall hc => exact absurd (hcall ▸ hclaimed) nofun
  | closed session request draws included schema hcall hc => exact absurd (hcall ▸ hclaimed) nofun
  | reopened session actorId hcall hr => exact absurd (hcall ▸ hclaimed) nofun
  | retried session snapshot actorId hcall hr => exact absurd (hcall ▸ hclaimed) nofun
  | laneCompleted c outcome resultId reportJobId e snapshot session aggregate hcall hexec hl =>
    subst hcall
    obtain rfl : c = claimed := Option.some.inj hclaimed
    obtain ⟨j', hj', hid', hsnapshot⟩ := lane_of_issued hs hissued hexec
    obtain rfl : j' = j := eq_of_key_eq hs.db.queue.ids hj' hj (hid'.trans hid.symm)
    have hpid : p.id = e.snapshotId := Option.some.inj (hjp.symm.trans hsnapshot)
    obtain rfl : p = snapshot :=
      eq_of_key_eq hs.db.snapshots hp hl.snapshot_mem (hpid.trans hl.snapshot_id.symm)
    obtain rfl : t = session :=
      eq_of_key_eq hs.db.sessions ht hl.session_mem (htp.trans hl.session_id.symm)
    have hquiet' : ¬LaneInterferes MovedOn s.db clock c e := by
      rw [Quiet, Interferes, hexec] at hquiet
      exact hquiet
    rw [hl.sessions, writtenSessions, if_pos (hl.quiet hs.db hquiet' hmoved)]
    exact ht
  | comparisonFailed c outcome resultId snapshotId hcall hterminal hc =>
    subst hcall
    obtain rfl : c = claimed := Option.some.inj hclaimed
    obtain ⟨pipelineVersion, hident⟩ := hc.identity
    obtain ⟨j', hj', hid', -, hsnapshot⟩ := report_of_issued hs hissued hident
    obtain rfl : j' = j := eq_of_key_eq hs.db.queue.ids hj' hj (hid'.trans hid.symm)
    have hpid : p.id = snapshotId := Option.some.inj (hjp.symm.trans hsnapshot)
    have hquiet' : ¬ReportInterferes MovedOn s.db clock c snapshotId := by
      rw [Quiet, Interferes, hident] at hquiet
      exact fun h ↦ hquiet ⟨hterminal, h⟩
    rw [hc.sessions]
    refine mem_updateWhere_of_not ht fun hready ↦ hquiet' ?_
    obtain ⟨row, hrow, hfenced, -⟩ := hc.job
    exact ⟨⟨row, hrow, hfenced⟩, p, hp, hpid, t, ht, htp, hmoved, hready.2⟩

/-- **Quiet runs leave moved-on sessions alone.** However people and workers interleave, as long as
no completion interferes, a completion of a job whose snapshot is not the current one of its
session, or whose session is open, does not change the session. -/
theorem quiet_completions_leave_sessions (now : Timestamp) (is : List SystemInput)
    (h : systemMachine.Along (fun s i ↦ systemMachine.enabled s i ∧ Quiet MovedOn s i) (emptySystem now)
      is) :
    systemMachine.Along
      (fun s i ↦ LeavesMovedOn i.call s.db (systemMachine.step s i).2.db) (emptySystem now) is :=
  (legal_sound h).mono fun _ _ ⟨hs, henabled, hquiet⟩ ↦ leavesMovedOn_step hs henabled hquiet

/-! ## A late research completion -/

/-- A call at an instant. -/
def callAt (n : ℕ) (call : SystemCall) : SystemInput := ⟨⟨n, n, instant_le n⟩, call⟩

/-- One member, who is the host of the room, and one revision that is ready. -/
def oneReadyRevision : OutsideWrites where
  sources :=
    { roomMemberships := [⟨2, 1, true, false⟩]
      submissions := [⟨4, 3, false⟩]
      sourceRevisions := [⟨6, 4, .ready, some 8, true⟩]
      extractionRuns := [⟨8, 6, "1", .succeeded⟩] }
  notificationPreferences := []
  mergedDocumentStates := []
  events := []
  notifications := []
  valid := by decide +kernel
  other := List.forall_mem_nil _
  others := List.forall_mem_nil _

/-- The identifiers of a generation, drawn from `n` on. -/
def drawsFrom (n : ℕ) : CloseDraws where
  snapshotId := ⟨n⟩
  runId := fun | .summary => ⟨n + 1⟩ | .research => ⟨n + 2⟩
  jobId := fun | .summary => ⟨n + 3⟩ | .research => ⟨n + 4⟩

/-- The lease of a lane of that generation. -/
def laneLease (n : ℕ) (kind : GenerationKind) (leaseGeneration token : ℕ) :
    ClaimedJob JobDocument where
  id := (drawsFrom n).jobId kind
  logicalKey := generationKey (drawsFrom n).snapshotId kind "p1"
  kind := kind.jobKind
  payload := .generation (drawsFrom n).snapshotId kind.jobKind "p1"
  owner := "worker"
  leaseGeneration := leaseGeneration
  leaseToken := ⟨token⟩
  attemptId := ⟨token + 1⟩

/-- A provider result for a document. -/
def resultFor (document : ℕ) : ProviderOutcome :=
  .generated ⟨document⟩ "{}" "provider" "model" "v1" (.ok ())

def closeCall (n : ℕ) : SystemCall := .close ⟨3, 1, [], "p1", none⟩ (drawsFrom n)

def claimCall (kind : String) (token : ℕ) : SystemCall :=
  .claimNext "worker" 60 (some [kind]) ⟨token⟩ ⟨token + 1⟩ []

/-- A generation whose research fails once and is put back at once. -/
def researchPutBack : List SystemInput :=
  [ callAt 0 (.elsewhere oneReadyRevision),
    callAt 1 (.createTalkSession 3 1 2 "topic"),
    callAt 2 (closeCall 100),
    callAt 3 (claimCall "summary" 51),
    callAt 4 (.completeLane (laneLease 100 .summary 1 51) (resultFor 61) 71 72),
    callAt 5 (claimCall "research" 53),
    callAt 6 (.completeLane (laneLease 100 .research 1 53) (.providerFailure "timeout" true) 73 74),
    callAt 7 (.requeue (laneLease 100 .research 1 53)),
    callAt 8 (claimCall "research" 55) ]

/-- The host reopens the session while the second attempt is running, and that attempt succeeds. -/
def lateResearch : List SystemInput :=
  researchPutBack ++
    [ callAt 9 (.reopen 3 1),
      callAt 10 (.completeLane (laneLease 100 .research 2 55) (resultFor 62) 75 76) ]

/-- The same calls, with the attempt ending before the host reopens. -/
def promptResearch : List SystemInput :=
  researchPutBack ++
    [ callAt 9 (.completeLane (laneLease 100 .research 2 55) (resultFor 62) 75 76),
      callAt 10 (.reopen 3 1) ]

/-- Without the condition, a late completion closes a session that its host has reopened. -/
theorem late_completion_writes_session :
    ¬∀ now is, systemMachine.Legal (emptySystem now) is → systemMachine.Along
      (fun s i ↦ LeavesMovedOn i.call s.db (systemMachine.step s i).2.db) (emptySystem now) is :=
  fun h ↦ absurd (h 0 lateResearch (by decide +kernel)) (by decide +kernel)

theorem quiet_completions_leave_sessions_promptResearch :
    systemMachine.Along (fun s i ↦ LeavesMovedOn i.call s.db (systemMachine.step s i).2.db)
      (emptySystem 0) promptResearch :=
  quiet_completions_leave_sessions 0 promptResearch (by decide +kernel)

end MeetingRag
