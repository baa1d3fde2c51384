import MeetingRag.System.Transitions

/-!
# The ledger of state versions

A session counts its changes in `state_version`, and every writer is meant to leave an event whose key
is built from the new version, so that the ledger has no gap. The ledger takes each key once and drops
the rest without a word. That no real change is dropped is an invariant: the keys in the ledger never
run ahead of the versions and the retries of the sessions.

One writer leaves no event. A comparison that fails for good raises the version of a ready session and
records nothing.
-/

open Outcome Table Text

namespace MeetingRag

/-! ## Appending -/

section Append

variable {events t : List AuditEvent} {e : AuditEvent}

theorem appendEvents_cons : appendEvents (e :: events) t = appendEvents events (appendEvent e t) := rfl

theorem mem_appendEvents (h : e ∈ appendEvents events t) : e ∈ t ∨ e ∈ events := by
  rcases mem_foldl_insertIgnore h with h | ⟨a, ha, rfl⟩
  · exact Or.inl h
  · exact Or.inr ha

theorem prefix_appendEvents : t <+: appendEvents events t := prefix_foldl_insertIgnore

/-- Every key of the ledger stays unique. -/
theorem nodup_appendEvents (h : (t.map (·.eventKey)).Nodup) :
    ((appendEvents events t).map (·.eventKey)).Nodup :=
  nodup_map_foldl_insertIgnore (fun _ _ hkey ↦ hkey) h

/-- An event that was appended is in the ledger, unless its key was there before. -/
theorem exists_mem_appendEvents (he : e ∈ events) :
    ∃ r ∈ appendEvents events t, r.event = e.event := by
  induction events generalizing t with
  | nil => exact absurd he List.not_mem_nil
  | cons a events ih =>
    rw [appendEvents_cons]
    rcases List.mem_cons.mp he with rfl | he
    · have hmem : ∃ r ∈ appendEvent e t, r.event = e.event := by
        by_cases hclash : ∃ r ∈ t, auditClash r e
        · obtain ⟨r, hr, hkey⟩ := hclash
          exact ⟨r, prefix_insertIgnore.subset hr, buildEventKey_injective hkey⟩
        · refine ⟨e, ?_, rfl⟩
          rw [appendEvent, insertIgnore_of_fresh fun r hr h ↦ hclash ⟨r, hr, h⟩]
          exact List.mem_append_right _ (List.mem_singleton_self e)
      obtain ⟨r, hr, hevent⟩ := hmem
      exact ⟨r, prefix_appendEvents.subset hr, hevent⟩
    · exact ih he

end Append

/-! ## Keys and versions -/

/-- The event of a change of state to a version of a session. -/
def NamesVersion (sessionId : UUID) (stateVersion : ℕ) : EventIdentity → Prop
  | .session _ id version => id = sessionId ∧ version = stateVersion
  | _ => False

/-- The event of a retry of a generation of a session. -/
def NamesRetry (sessionId : UUID) (generationEpoch retryOrdinal : ℕ) : EventIdentity → Prop
  | .sessionRetryRequested id epoch ordinal =>
    id = sessionId ∧ epoch = generationEpoch ∧ ordinal = retryOrdinal
  | _ => False

instance (sessionId : UUID) (stateVersion : ℕ) :
    DecidablePred (NamesVersion sessionId stateVersion) := fun event ↦ by
  unfold NamesVersion
  split <;> infer_instance

instance (sessionId : UUID) (generationEpoch retryOrdinal : ℕ) :
    DecidablePred (NamesRetry sessionId generationEpoch retryOrdinal) := fun event ↦ by
  unfold NamesRetry
  split <;> infer_instance

/-- The key of an event is not in the ledger yet. -/
def FreshKey (db : Database) (e : AuditEvent) : Prop := ∀ r ∈ auditLog db, r.eventKey ≠ e.eventKey

/-- Every version that a session has passed in a step, and every retry, has left an event under a key
that was new to the ledger. -/
def AuditedChange (db db' : Database) (t t' : TalkSession) : Prop :=
  t.stateVersion ≤ t'.stateVersion ∧
    (∀ v, v ≤ t'.stateVersion → t.stateVersion < v →
      ∃ e ∈ auditLog db', NamesVersion t.id v e.event ∧ FreshKey db e) ∧
    (t.retryOrdinal < t'.retryOrdinal →
      ∃ e ∈ auditLog db', NamesRetry t.id t.generationEpoch t'.retryOrdinal e.event ∧ FreshKey db e)

/-- A step whose changes are all in the ledger. -/
def Audited (db db' : Database) : Prop :=
  ∀ t ∈ db.other.talkSessions, ∀ t' ∈ db'.other.talkSessions, t'.id = t.id →
    AuditedChange db db' t t'

instance (db db' : Database) : Decidable (Audited db db') :=
  have (e : AuditEvent) : Decidable (FreshKey db e) :=
    inferInstanceAs (Decidable (∀ r ∈ auditLog db, r.eventKey ≠ e.eventKey))
  have (t t' : TalkSession) : Decidable (AuditedChange db db' t t') := by
    unfold AuditedChange
    infer_instance
  inferInstanceAs (Decidable (∀ t ∈ db.other.talkSessions, ∀ t' ∈ db'.other.talkSessions,
    t'.id = t.id → AuditedChange db db' t t'))

/-- The event does not run ahead of the session it names. -/
def Below (sessions : List TalkSession) : EventIdentity → Prop
  | .session _ id version => ∃ s ∈ sessions, s.id = id ∧ version ≤ s.stateVersion
  | .sessionRetryRequested id epoch ordinal => ∃ s ∈ sessions, s.id = id ∧
      (epoch < s.generationEpoch ∨ (epoch = s.generationEpoch ∧ ordinal ≤ s.retryOrdinal))
  | _ => True

/-- **The ledger invariant.** -/
def LedgerBounded (db : Database) : Prop :=
  ∀ e ∈ auditLog db, Below db.other.talkSessions e.event

theorem ledgerBounded_empty : LedgerBounded (emptyStore emptyTables) := List.forall_mem_nil _

/-- A session counts on: its version, and its retries within a generation. -/
def CountsOn (t t' : TalkSession) : Prop :=
  t.stateVersion ≤ t'.stateVersion ∧ (t.generationEpoch < t'.generationEpoch ∨
    (t.generationEpoch = t'.generationEpoch ∧ t.retryOrdinal ≤ t'.retryOrdinal))

theorem Below.mono {sessions sessions' : List TalkSession} {event : EventIdentity}
    (h : Below sessions event)
    (hcounts : ∀ t ∈ sessions, ∃ t' ∈ sessions', t'.id = t.id ∧ CountsOn t t') :
    Below sessions' event := by
  unfold Below at h ⊢
  split at h
  · obtain ⟨t, ht, hid, hle⟩ := h
    obtain ⟨t', ht', hid', hversion, -⟩ := hcounts t ht
    exact ⟨t', ht', hid'.trans hid, hle.trans hversion⟩
  · obtain ⟨t, ht, hid, hle⟩ := h
    obtain ⟨t', ht', hid', -, hretry⟩ := hcounts t ht
    refine ⟨t', ht', hid'.trans hid, ?_⟩
    omega
  · trivial

section Steps

variable {db db' : Database} {clock : StatementClock} {call : SystemCall}

theorem SessionStep.countsOn {t t' : TalkSession} (h : SessionStep clock call db db' t t') :
    CountsOn t t' := by
  cases h with
  | kept h =>
    subst h
    exact ⟨le_rfl, Or.inr ⟨rfl, le_rfl⟩⟩
  | closed request draws included schema hcall hc hrow =>
    subst hrow
    exact ⟨Nat.le_add_right _ 2, Or.inl (Nat.lt_succ_self _)⟩
  | reopened actorId hcall hr hrow =>
    subst hrow
    exact ⟨Nat.le_succ _, Or.inr ⟨rfl, le_rfl⟩⟩
  | retried snapshot actorId hcall hr hrow =>
    subst hrow
    exact ⟨Nat.le_succ _, Or.inr ⟨rfl, Nat.le_succ _⟩⟩
  | projected claimed outcome resultId reportJobId e snapshot aggregate hcall hexec hl hne hrow =>
    subst hrow
    exact ⟨Nat.le_succ _, Or.inr ⟨rfl, le_rfl⟩⟩
  | attention claimed outcome resultId snapshotId hcall hterminal hc hready hrow =>
    subst hrow
    exact ⟨Nat.le_succ _, Or.inr ⟨rfl, le_rfl⟩⟩

/-- No step forgets a session. -/
theorem SystemStep.session_exists (hstep : SystemStep clock call db db') {t : TalkSession}
    (ht : t ∈ db.other.talkSessions) : ∃ t' ∈ db'.other.talkSessions, t'.id = t.id := by
  cases hstep with
  | background hb => exact ⟨t, hb.writes.same.talkSessions ▸ ht, rfl⟩
  | created session actorId roomId topic hcall hc =>
    obtain ⟨-, -, -, activity, e, rfl, -⟩ := hc
    exact ⟨t, List.mem_append_left _ ht, rfl⟩
  | closed session request draws included schema hcall hc =>
    rw [hc.sessions]
    exact exists_mem_updateWhere ht fun _ ↦ rfl
  | reopened session actorId hcall hr =>
    rw [hr.sessions]
    exact exists_mem_updateWhere ht fun _ ↦ rfl
  | retried session snapshot actorId hcall hr =>
    rw [hr.sessions]
    exact exists_mem_updateWhere ht fun _ ↦ rfl
  | laneCompleted claimed outcome resultId reportJobId e snapshot session aggregate hcall hexec hl =>
    rw [hl.sessions, writtenSessions]
    split
    · exact ⟨t, ht, rfl⟩
    · exact exists_mem_updateWhere ht fun _ ↦ rfl
  | comparisonFailed claimed outcome resultId snapshotId hcall hterminal hc =>
    rw [hc.sessions]
    exact exists_mem_updateWhere ht fun _ ↦ rfl

theorem SystemStep.countsOn (hw : Wellformed db) (hstep : SystemStep clock call db db') :
    ∀ t ∈ db.other.talkSessions, ∃ t' ∈ db'.other.talkSessions, t'.id = t.id ∧ CountsOn t t' := by
  intro t ht
  obtain ⟨t', ht', hid⟩ := hstep.session_exists ht
  exact ⟨t', ht', hid, (hstep.session hw ht ht' hid).countsOn⟩

/-! ## What a step appends -/

theorem Closed.auditLog {session : TalkSession} {request : CloseRequest} {draws : CloseDraws}
    {included : List CurrentRevision} {schema : String} {createdAt : Timestamp}
    (h : Closed session request draws included schema createdAt db db') :
    MeetingRag.auditLog db' = appendEvents
      [stateChange ⟨.closed, by decide⟩ (some request.actorId) session (session.stateVersion + 1),
        stateChange ⟨.processing, by decide⟩ (some request.actorId) session
          (session.stateVersion + 2)] (MeetingRag.auditLog db) := by
  rw [h.result]
  rfl

theorem Reopened.auditLog {session : TalkSession} {actorId : UUID}
    (h : Reopened session actorId db db') :
    MeetingRag.auditLog db' = appendEvents
      [stateChange ⟨.reopened, by decide⟩ (some actorId) session (session.stateVersion + 1)]
      (MeetingRag.auditLog db) := by
  rw [h.result]
  rfl

/-- The event of a retry. -/
def retryRequest (session : TalkSession) (actorId : UUID) : AuditEvent :=
  ⟨.sessionRetryRequested session.id session.generationEpoch (session.retryOrdinal + 1),
    some actorId, some session.roomId, some session.id⟩

theorem Retried.auditLog {session : TalkSession} {snapshot : GenerationSnapshot} {actorId : UUID}
    (h : Retried session snapshot actorId db db') :
    MeetingRag.auditLog db' = appendEvents
      [retryRequest session actorId,
        stateChange ⟨.processing, by decide⟩ (some actorId) session (session.stateVersion + 1)]
      (MeetingRag.auditLog db) := by
  rw [h.result]
  rfl

/-- What a step appends is not ahead of the sessions that it leaves. -/
theorem SystemStep.events (hstep : SystemStep clock call db db') :
    ∃ events, MeetingRag.auditLog db' = appendEvents events (MeetingRag.auditLog db) ∧
      ∀ e ∈ events, Below db'.other.talkSessions e.event := by
  cases hstep with
  | background hb =>
    obtain ⟨events, hother, hlog⟩ := hb.writes.ledger
    refine ⟨events, hlog, fun e he ↦ ?_⟩
    have hactivity := hother e he
    unfold OtherActivity at hactivity
    split at hactivity
    · exact hactivity.elim
    · exact hactivity.elim
    · unfold Below
      split <;> simp_all
  | created session actorId roomId topic hcall hc =>
    obtain ⟨-, -, -, activity, e, rfl, hlog, hevent, -⟩ := hc
    refine ⟨[e], hlog, List.forall_mem_singleton.mpr ?_⟩
    rw [hevent]
    trivial
  | closed session request draws included schema hcall hc =>
    have hrow : processingSession (session.generationEpoch + 1) (closedSession session) ∈
        db'.other.talkSessions := by
      rw [hc.sessions]
      exact mem_setSession hc.mem rfl
    refine ⟨_, hc.auditLog, fun e he ↦ ?_⟩
    rcases List.mem_pair.mp he with rfl | rfl
    · exact ⟨_, hrow, rfl, Nat.le_succ _⟩
    · exact ⟨_, hrow, rfl, le_rfl⟩
  | reopened session actorId hcall hr =>
    have hrow : reopenedSession session ∈ db'.other.talkSessions := by
      rw [hr.sessions]
      exact mem_setSession hr.mem rfl
    exact ⟨_, hr.auditLog, List.forall_mem_singleton.mpr ⟨_, hrow, rfl, le_rfl⟩⟩
  | retried session snapshot actorId hcall hr =>
    have hrow : retriedSession session ∈ db'.other.talkSessions := by
      rw [hr.sessions]
      exact mem_setSession hr.mem rfl
    refine ⟨_, hr.auditLog, fun e he ↦ ?_⟩
    rcases List.mem_pair.mp he with rfl | rfl
    · exact ⟨_, hrow, rfl, Or.inr ⟨rfl, le_rfl⟩⟩
    · exact ⟨_, hrow, rfl, le_rfl⟩
  | laneCompleted claimed outcome resultId reportJobId e snapshot session aggregate hcall hexec hl =>
    rcases hl.ledger with ⟨-, hlog⟩ | ⟨hne, change, hlog⟩
    · exact ⟨[], hlog, List.forall_mem_nil _⟩
    · have hrow : projectedSession aggregate.state (session.stateVersion + 1) session ∈
          db'.other.talkSessions := by
        rw [hl.sessions, writtenSessions, if_neg hne]
        exact mem_setSession hl.session_mem rfl
      exact ⟨[_], hlog, List.forall_mem_singleton.mpr ⟨_, hrow, rfl, le_rfl⟩⟩
  | comparisonFailed claimed outcome resultId snapshotId hcall hterminal hc =>
    exact ⟨[], hc.ledger, List.forall_mem_nil _⟩

theorem LedgerBounded.step (h : LedgerBounded db) (hw : Wellformed db)
    (hstep : SystemStep clock call db db') : LedgerBounded db' := by
  obtain ⟨events, hlog, hevents⟩ := hstep.events
  intro e he
  rw [hlog] at he
  rcases mem_appendEvents he with he | he
  · exact (h e he).mono (hstep.countsOn hw)
  · exact hevents e he

/-! ## Every version has its event -/

/-- The key of a version that a session has not reached is not in the ledger. -/
theorem LedgerBounded.fresh_version (h : LedgerBounded db) (hw : Wellformed db) {t : TalkSession}
    (ht : t ∈ db.other.talkSessions) {e : AuditEvent} {change : SessionChange} {v : ℕ}
    (hevent : e.event = .session change t.id v) (hv : t.stateVersion < v) : FreshKey db e := by
  intro r hr hkey
  have hbelow := h r hr
  rw [buildEventKey_injective hkey, hevent] at hbelow
  obtain ⟨s, hs, hid, hle⟩ := hbelow
  rw [eq_of_key_eq hw.sessions hs ht hid] at hle
  omega

/-- The key of a retry that a session has not made is not in the ledger. -/
theorem LedgerBounded.fresh_retry (h : LedgerBounded db) (hw : Wellformed db) {t : TalkSession}
    (ht : t ∈ db.other.talkSessions) (actorId : UUID) : FreshKey db (retryRequest t actorId) := by
  intro r hr hkey
  have hbelow := h r hr
  rw [buildEventKey_injective hkey] at hbelow
  obtain ⟨s, hs, hid, hle⟩ := hbelow
  rw [eq_of_key_eq hw.sessions hs ht hid] at hle
  omega

/-- A step of one version that appends the event of it. -/
theorem AuditedChange.of_version (h : LedgerBounded db) (hw : Wellformed db) {t t' : TalkSession}
    (ht : t ∈ db.other.talkSessions) {events : List AuditEvent}
    (hlog : MeetingRag.auditLog db' = appendEvents events (MeetingRag.auditLog db))
    (hversions : t.stateVersion ≤ t'.stateVersion)
    (hevents : ∀ v, v ≤ t'.stateVersion → t.stateVersion < v →
      ∃ e ∈ events, ∃ change, e.event = .session change t.id v)
    (hretry : t.retryOrdinal < t'.retryOrdinal → ∃ actorId, retryRequest t actorId ∈ events ∧
      t'.retryOrdinal = t.retryOrdinal + 1) : AuditedChange db db' t t' := by
  refine ⟨hversions, fun v hle hlt ↦ ?_, fun hlt ↦ ?_⟩
  · obtain ⟨e, he, change, hevent⟩ := hevents v hle hlt
    obtain ⟨r, hr, hre⟩ := exists_mem_appendEvents (t := MeetingRag.auditLog db) he
    have hr' : r.event = .session change t.id v := hre.trans hevent
    refine ⟨r, hlog ▸ hr, ?_, h.fresh_version hw ht hr' hlt⟩
    rw [hr']
    exact ⟨rfl, rfl⟩
  · obtain ⟨actorId, he, hordinal⟩ := hretry hlt
    obtain ⟨r, hr, hre⟩ := exists_mem_appendEvents (t := MeetingRag.auditLog db) he
    have hkey : r.eventKey = (retryRequest t actorId).eventKey := congrArg buildEventKey hre
    refine ⟨r, hlog ▸ hr, ?_, fun a ha hak ↦ h.fresh_retry hw ht actorId a ha (hak.trans hkey)⟩
    rw [hre]
    exact ⟨rfl, rfl, hordinal.symm⟩

/-- A comparison fails for good while its session is ready. -/
def AttentionFailure (db : Database) (clock : StatementClock) : SystemCall → Prop
  | .completeSuggestions claimed outcome _ =>
    match claimedReportIdentity claimed with
    | .ok (snapshotId, _) => outcome.Terminal claimed ∧ (∃ j ∈ db.jobs, Fenced claimed clock.seen j) ∧
        ∃ t ∈ db.other.talkSessions, ReadyOwner db.other.generationSnapshots snapshotId t
    | .error _ => False
  | _ => False

instance (db : Database) (clock : StatementClock) : DecidablePred (AttentionFailure db clock) :=
  fun
  | .completeSuggestions claimed outcome _ =>
    show Decidable (match claimedReportIdentity claimed with
      | .ok (snapshotId, _) => outcome.Terminal claimed ∧
          (∃ j ∈ db.jobs, Fenced claimed clock.seen j) ∧
          ∃ t ∈ db.other.talkSessions, ReadyOwner db.other.generationSnapshots snapshotId t
      | .error _ => False) from
    match claimedReportIdentity claimed with
    | .ok (snapshotId, _) => inferInstanceAs (Decidable (outcome.Terminal claimed ∧
        (∃ j ∈ db.jobs, Fenced claimed clock.seen j) ∧
        ∃ t ∈ db.other.talkSessions, ReadyOwner db.other.generationSnapshots snapshotId t))
    | .error _ => .isFalse id
  | .createTalkSession .. | .close .. | .reopen .. | .retry .. | .claimNext .. | .heartbeat ..
  | .completeLane .. | .enqueueExtraction .. | .completeExtraction .. | .requeue ..
  | .elsewhere .. => .isFalse id

/-- **The step lemma.** -/
theorem audited_step (h : LedgerBounded db) (hw : Wellformed db)
    (hstep : SystemStep clock call db db') (hquiet : ¬AttentionFailure db clock call) :
    Audited db db' := by
  intro t ht t' ht' hid
  cases hstep.session hw ht ht' hid with
  | kept hkept =>
    subst hkept
    obtain ⟨events, hlog, -⟩ := hstep.events
    exact AuditedChange.of_version h hw ht hlog le_rfl (by omega) (by omega)
  | closed request draws included schema hcall hc hrow =>
    subst hrow
    refine AuditedChange.of_version h hw ht hc.auditLog (Nat.le_add_right _ 2) ?_ ?_
    · intro v hle hlt
      have hv : v = t.stateVersion + 1 ∨ v = t.stateVersion + 2 := by
        have hle : v ≤ t.stateVersion + 2 := hle
        omega
      rcases hv with rfl | rfl
      · exact ⟨_, List.mem_cons_self, _, rfl⟩
      · exact ⟨_, List.mem_cons_of_mem _ List.mem_cons_self, _, rfl⟩
    · exact fun hlt ↦ absurd hlt (Nat.not_lt_zero _)
  | reopened actorId hcall hr hrow =>
    subst hrow
    refine AuditedChange.of_version h hw ht hr.auditLog (Nat.le_succ _) ?_ ?_
    · intro v hle hlt
      obtain rfl : v = t.stateVersion + 1 := le_antisymm hle hlt
      exact ⟨_, List.mem_cons_self, _, rfl⟩
    · exact fun hlt ↦ absurd hlt (lt_irrefl _)
  | retried snapshot actorId hcall hr hrow =>
    subst hrow
    refine AuditedChange.of_version h hw ht hr.auditLog (Nat.le_succ _) ?_ ?_
    · intro v hle hlt
      obtain rfl : v = t.stateVersion + 1 := le_antisymm hle hlt
      exact ⟨_, List.mem_cons_of_mem _ List.mem_cons_self, _, rfl⟩
    · exact fun _ ↦ ⟨actorId, List.mem_cons_self, rfl⟩
  | projected claimed outcome resultId reportJobId e snapshot aggregate hcall hexec hl hne hrow =>
    subst hrow
    rcases hl.ledger with ⟨hsame, -⟩ | ⟨-, change, hlog⟩
    · exact absurd hsame hne
    · have hone : MeetingRag.auditLog db' = appendEvents [_] (MeetingRag.auditLog db) := hlog
      refine AuditedChange.of_version h hw ht hone (Nat.le_succ _) ?_ ?_
      · intro v hle hlt
        obtain rfl : v = t.stateVersion + 1 := le_antisymm hle hlt
        exact ⟨_, List.mem_cons_self, change, rfl⟩
      · exact fun hlt ↦ absurd hlt (lt_irrefl _)
  | attention claimed outcome resultId snapshotId hcall hterminal hc hready hrow =>
    -- This is the writer that records nothing.
    subst hcall
    obtain ⟨pipelineVersion, hident⟩ := hc.identity
    obtain ⟨row, hmem, hfenced, -⟩ := hc.job
    refine absurd ?_ hquiet
    rw [AttentionFailure, hident]
    exact ⟨hterminal, ⟨row, hmem, hfenced⟩, t, ht, hready⟩

end Steps

/-- **No gap in the ledger.** Along every legal run the keys of the ledger are unique, and every step
that is not a comparison failing for good while its session is ready leaves, under a key that was
new, an event for each version that a session has passed and for each retry. -/
theorem versions_are_audited (now : Timestamp) (is : List SystemInput)
    (h : systemMachine.Legal (emptySystem now) is) :
    systemMachine.Along (fun s i ↦ ¬AttentionFailure s.db i.clock i.call →
        Audited s.db (systemMachine.step s i).2.db) (emptySystem now) is ∧
      ((auditLog (systemMachine.exec (emptySystem now) is).db).map (·.eventKey)).Nodup := by
  constructor
  · refine (h.with_invariant (P := fun s ↦ s.Sound ∧ LedgerBounded s.db)
      ⟨sound_empty now, ledgerBounded_empty⟩ ?_).mono ?_
    · rintro s i ⟨hs, hbounded⟩ -
      exact ⟨hs.step i, hbounded.step hs.db (systemMachine_step hs i)⟩
    · rintro s i ⟨⟨hs, hbounded⟩, -⟩ hquiet
      exact audited_step hbounded hs.db (systemMachine_step hs i) hquiet
  · have hempty : ((auditLog (emptySystem now).db).map (·.eventKey)).Nodup := List.nodup_nil
    refine (h.invariant (P := fun s ↦ s.Sound ∧ ((auditLog s.db).map (·.eventKey)).Nodup)
      ⟨sound_empty now, hempty⟩ ?_).2
    rintro s i ⟨hs, hnodup⟩ -
    obtain ⟨events, hlog, -⟩ := (systemMachine_step hs i).events
    exact ⟨hs.step i, hlog ▸ nodup_appendEvents hnodup⟩

/-- A comparison that fails for good leaves a version without an event. -/
theorem failed_comparison_is_not_audited :
    ¬∀ now is, systemMachine.Legal (emptySystem now) is → systemMachine.Along
      (fun s i ↦ Audited s.db (systemMachine.step s i).2.db) (emptySystem now) is :=
  fun h ↦ absurd (h 0 failedComparison (by decide +kernel)) (by decide +kernel)

theorem versions_are_audited_failedComparison :
    systemMachine.Along (fun s i ↦ ¬AttentionFailure s.db i.clock i.call →
        Audited s.db (systemMachine.step s i).2.db) (emptySystem 0) failedComparison ∧
      ((auditLog (systemMachine.exec (emptySystem 0) failedComparison).db).map
        (·.eventKey)).Nodup :=
  versions_are_audited 0 failedComparison (by decide +kernel)

end MeetingRag
