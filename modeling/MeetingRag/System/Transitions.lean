import MeetingRag.System.Aggregate

/-!
# Transitions of a session

What one committed transaction makes of one session row: it keeps it, or one of five writers has
rewritten it, each from a state of its own. `SessionStep` says so once, for the statements about the
states a session goes through and for those about its versions.

The policy has a table of the state changes it allows, and none of the writers asks it. Along quiet
runs they stay within the table, apart from reopening and from two edges that are meant: a lane that
was put back by its worker may still end a generation well, and a failed comparison takes a ready
session back to the attention of its host.
-/

open Outcome Table Text

namespace MeetingRag

/-! ## One session -/

/-- What one committed transaction has made of the session `t`. -/
inductive SessionStep (clock : StatementClock) (call : SystemCall) (db db' : Database)
    (t t' : TalkSession) : Prop
  | kept (h : t' = t)
  | closed (request : CloseRequest) (draws : CloseDraws) (included : List CurrentRevision)
      (schema : String) (hcall : call = .close request draws)
      (h : Closed t request draws included schema clock.seen db db')
      (row : t' = processingSession (t.generationEpoch + 1) (closedSession t))
  | reopened (actorId : UUID) (hcall : call = .reopen t.id actorId) (h : Reopened t actorId db db')
      (row : t' = reopenedSession t)
  | retried (snapshot : GenerationSnapshot) (actorId : UUID) (hcall : call = .retry t.id actorId)
      (h : Retried t snapshot actorId db db') (row : t' = retriedSession t)
  | projected (claimed : ClaimedJob JobDocument) (outcome : ProviderOutcome)
      (resultId reportJobId : UUID) (e : GenerationExecution) (snapshot : GenerationSnapshot)
      (aggregate : GenerationAggregate)
      (hcall : call = .completeLane claimed outcome resultId reportJobId)
      (hexecution : laneExecution claimed outcome = .ok (some e))
      (h : LaneCompleted claimed e snapshot t aggregate clock db db')
      (changed : t.state ≠ aggregate.state)
      (row : t' = projectedSession aggregate.state (t.stateVersion + 1) t)
  | attention (claimed : ClaimedJob JobDocument) (outcome : SuggestionOutcome)
      (resultId snapshotId : UUID) (hcall : call = .completeSuggestions claimed outcome resultId)
      (hterminal : outcome.Terminal claimed) (h : ComparisonFailed claimed snapshotId clock db db')
      (ready : ReadyOwner db.other.generationSnapshots snapshotId t) (row : t' = attentionSession t)

variable {db db' : Database} {clock : StatementClock} {call : SystemCall}

/-- What a write to one session makes of another row, told by their ids. -/
theorem setSession_cases (hids : UniqueSessions db) {id : UUID} {f : TalkSession → TalkSession}
    {t t' : TalkSession} (ht : t ∈ db.other.talkSessions)
    (ht' : t' ∈ setSession id f db.other.talkSessions) (hid : t'.id = t.id)
    (hf : ∀ s, (f s).id = s.id) : (t.id = id ∧ t' = f t) ∨ t' = t :=
  (updateWhere_of_key_eq hids ht ht' hid hf).imp_right And.right

theorem SystemStep.session (hw : Wellformed db) (hstep : SystemStep clock call db db')
    {t t' : TalkSession} (ht : t ∈ db.other.talkSessions) (ht' : t' ∈ db'.other.talkSessions)
    (hid : t'.id = t.id) : SessionStep clock call db db' t t' := by
  have hids := hw.sessions
  cases hstep with
  | background hb =>
    rw [hb.writes.same.talkSessions] at ht'
    exact .kept (eq_of_key_eq hids ht' ht hid)
  | created session actorId roomId topic hcall hc =>
    obtain ⟨hfresh, -, -, activity, e, hframe, -⟩ := hc
    rw [hframe] at ht'
    rcases List.mem_append.mp ht' with ht' | ht'
    · exact .kept (eq_of_key_eq hids ht' ht hid)
    · rw [List.mem_singleton.mp ht'] at hid
      exact absurd hid.symm (hfresh t ht)
  | closed session request draws included schema hcall hc =>
    rw [hc.sessions] at ht'
    rcases setSession_cases hids ht ht' hid (fun _ ↦ rfl) with ⟨hsame, hrow⟩ | hkept
    · obtain rfl : t = session := eq_of_key_eq hids ht hc.mem hsame
      exact .closed request draws included schema hcall hc hrow
    · exact .kept hkept
  | reopened session actorId hcall hr =>
    rw [hr.sessions] at ht'
    rcases setSession_cases hids ht ht' hid (fun _ ↦ rfl) with ⟨hsame, hrow⟩ | hkept
    · obtain rfl : t = session := eq_of_key_eq hids ht hr.mem hsame
      exact .reopened actorId hcall hr hrow
    · exact .kept hkept
  | retried session snapshot actorId hcall hr =>
    rw [hr.sessions] at ht'
    rcases setSession_cases hids ht ht' hid (fun _ ↦ rfl) with ⟨hsame, hrow⟩ | hkept
    · obtain rfl : t = session := eq_of_key_eq hids ht hr.mem hsame
      exact .retried snapshot actorId hcall hr hrow
    · exact .kept hkept
  | laneCompleted claimed outcome resultId reportJobId e snapshot session aggregate hcall hexec hl =>
    rw [hl.sessions, writtenSessions] at ht'
    split at ht'
    · exact .kept (eq_of_key_eq hids ht' ht hid)
    · next hchanged =>
      rcases setSession_cases hids ht ht' hid (fun _ ↦ rfl) with ⟨hsame, hrow⟩ | hkept
      · obtain rfl : t = session := eq_of_key_eq hids ht hl.session_mem hsame
        exact .projected claimed outcome resultId reportJobId e snapshot aggregate hcall hexec hl
          hchanged hrow
      · exact .kept hkept
  | comparisonFailed claimed outcome resultId snapshotId hcall hterminal hc =>
    rw [hc.sessions] at ht'
    rcases updateWhere_of_key_eq hids ht ht' hid (fun _ ↦ rfl) with ⟨hready, hrow⟩ | ⟨-, hkept⟩
    · exact .attention claimed outcome resultId snapshotId hcall hterminal hc hready hrow
    · exact .kept hkept

/-! ## Changes of state -/

/-- The edges that the table and the reopening of an analyzed session give. A close passes through
`closed`. -/
def TableEdge (call : SystemCall) (source target : TalkSessionState) : Prop :=
  target ∈ allowedSessionTargets source ∨
    match call with
    | .close .. => source = .open ∧ target = .processing ∧
        .closed ∈ allowedSessionTargets source ∧ target ∈ allowedSessionTargets .closed
    | .reopen .. => (source = .ready ∨ source = .needsAttention) ∧ target = .open
    | _ => False

/-- The edges that the two workers add. -/
def WorkerEdge (call : SystemCall) (source target : TalkSessionState) : Prop :=
  match call with
  | .completeLane .. => source = .needsAttention ∧ target = .ready
  | .completeSuggestions .. => source = .ready ∧ target = .needsAttention
  | _ => False

/-- Every session whose state differs after a step has taken an edge of `E`. -/
def ChangesBy (E : SystemCall → TalkSessionState → TalkSessionState → Prop) (call : SystemCall)
    (db db' : Database) : Prop :=
  ∀ t ∈ db.other.talkSessions, ∀ t' ∈ db'.other.talkSessions, t'.id = t.id →
    t'.state ≠ t.state → E call t.state t'.state

instance (call : SystemCall) (source target : TalkSessionState) :
    Decidable (TableEdge call source target) := by
  unfold TableEdge
  split <;> infer_instance

instance (E : SystemCall → TalkSessionState → TalkSessionState → Prop)
    [∀ call source target, Decidable (E call source target)] (call : SystemCall)
    (db db' : Database) : Decidable (ChangesBy E call db db') :=
  inferInstanceAs (Decidable (∀ t ∈ db.other.talkSessions, ∀ t' ∈ db'.other.talkSessions,
    t'.id = t.id → t'.state ≠ t.state → E call t.state t'.state))

/-- A lane completion of a session that has not moved on takes an edge of the table, or recovers a
session that needed attention. -/
theorem LaneCompleted.edge (hw : Wellformed db) (hm : Mirrored db) {claimed : ClaimedJob JobDocument}
    {e : GenerationExecution} {snapshot : GenerationSnapshot} {t : TalkSession}
    {aggregate : GenerationAggregate}
    (hl : LaneCompleted claimed e snapshot t aggregate clock db db')
    (hmoved : ¬MovedOn snapshot t) (hchanged : t.state ≠ aggregate.state) :
    aggregate.state ∈ allowedSessionTargets t.state ∨
      (t.state = .needsAttention ∧ aggregate.state = .ready) := by
  rw [MovedOn, not_or, Stale, not_not] at hmoved
  obtain ⟨hcurrent, hopen⟩ := hmoved
  have htarget : aggregate.state ∈ [TalkSessionState.processing, .ready, .needsAttention] := by
    rw [hl.state_eq hw]
    exact projectedState_mem _ _
  have hsource : t.state ∈ [TalkSessionState.processing, .ready, .needsAttention] := by
    rcases hw.states t hl.session_mem with h | ⟨h, -⟩
    · exact absurd h hopen
    · exact h
  -- A ready session has two finished lanes, but the lane of this completion could be written.
  have hunfinished : t.state ≠ .ready := by
    intro hready
    have hwritable := hl.writable
    rw [← hl.snapshot_id] at hwritable
    have hlane := laneState_of_writable (hw.lanes snapshot hl.snapshot_mem) hwritable
    have hprojected := hm t hl.session_mem hopen snapshot hl.snapshot_mem hl.session_id.symm hcurrent
    rcases hprojected with h | ⟨h, -⟩
    · obtain ⟨hsummary, hresearch⟩ := projectedState_ready (h.symm.trans hready)
      cases hkind : e.kind with
      | summary => simp [hkind, hsummary] at hlane
      | research => simp [hkind, hresearch] at hlane
    · exact nomatch hready.symm.trans h
  generalize t.state = source at hsource hunfinished hchanged
  generalize aggregate.state = target at htarget hchanged
  revert source target
  decide

/-- **The step lemma**, for a step that does not interfere. -/
theorem changesBy_step {s : SystemState} (hs : s.Sound) (hm : Mirrored s.db) {i : SystemInput}
    (hquiet : Quiet MovedOn s i) :
    ChangesBy (fun call source target ↦ TableEdge call source target ∨ WorkerEdge call source target)
      i.call s.db (systemMachine.step s i).2.db := by
  intro t ht t' ht' hid hchanged
  have hstep := (systemMachine_step hs i).session hs.db ht ht' hid
  obtain ⟨clock, call⟩ := i
  cases hstep with
  | kept h => exact absurd (congrArg TalkSession.state h) hchanged
  | closed request draws included schema hcall hc hrow =>
    subst hcall hrow
    rw [hc.isOpen]
    have hthrough : TalkSessionState.processing ∈ allowedSessionTargets .closed := by decide
    exact Or.inl (Or.inr ⟨rfl, rfl, by decide, hthrough⟩)
  | reopened actorId hcall hr hrow =>
    subst hcall hrow
    have hanalyzed := hr.analyzed
    exact Or.inl (Or.inr ⟨List.mem_pair.mp hanalyzed, rfl⟩)
  | retried snapshot actorId hcall hr hrow =>
    subst hrow
    have hedge : TalkSessionState.processing ∈ allowedSessionTargets .needsAttention := by decide
    rw [hr.attention]
    exact Or.inl (Or.inl hedge)
  | projected claimed outcome resultId reportJobId e snapshot aggregate hcall hexec hl hne hrow =>
    subst hcall hrow
    have hmoved : ¬MovedOn snapshot t := by
      rw [Quiet, Interferes, hexec] at hquiet
      exact fun h ↦ hne (hl.quiet hs.db hquiet h)
    exact (hl.edge hs.db hm hmoved hne).imp Or.inl id
  | attention claimed outcome resultId snapshotId hcall hterminal hc hready hrow =>
    subst hcall hrow
    exact Or.inr ⟨hready.2, rfl⟩

end MeetingRag
