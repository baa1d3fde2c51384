import MeetingRag.System.Calls

/-!
# What a system step can do

A committed transaction of the system either left every session and every generation alone, or it is
one of six kinds of step: a session was created, closed, reopened or retried, a lane was completed,
or a comparison failed for good. `SystemStep` says so once, with the call that took the step, and
every invariant of the system is proved by cases on it.

A lane completion and a failed comparison are the two steps that a worker takes on a session. Each
carries what the worker presented, so that a condition on the call can be used against the step.
-/

open Outcome Table Text

namespace MeetingRag

/-! ## Steps that touch no session -/

/-- The sessions and their generations are what they were. -/
structure SameSessions (db db' : Database) : Prop where
  talkSessions : db'.other.talkSessions = db.other.talkSessions
  snapshotExclusions : db'.other.snapshotExclusions = db.other.snapshotExclusions
  generationSnapshots : db'.other.generationSnapshots = db.other.generationSnapshots
  snapshotRevisions : db'.other.snapshotRevisions = db.other.snapshotRevisions
  generationRuns : db'.other.generationRuns = db.other.generationRuns
  generatedDocuments : db'.other.generatedDocuments = db.other.generatedDocuments

/-- Events appended one after the other. -/
def appendEvents (events : List AuditEvent) (t : List AuditEvent) : List AuditEvent :=
  events.foldl (fun t e ↦ appendEvent e t) t

/-- Notifications that are not about an analysis were added. -/
structure OtherNotices (old new : List Notification) : Prop where
  kept : old <+: new
  unique : (old.map noticeKey).Nodup → (new.map noticeKey).Nodup
  added : ∀ n ∈ new, n ∈ old ∨ OtherNotice n

theorem OtherNotices.refl (old : List Notification) : OtherNotices old old :=
  ⟨List.prefix_rfl, id, fun _ ↦ Or.inl⟩

theorem OtherNotices.trans {a b c : List Notification} (h : OtherNotices a b)
    (h' : OtherNotices b c) : OtherNotices a c := by
  refine ⟨h.kept.trans h'.kept, h'.unique ∘ h.unique, fun n hn ↦ ?_⟩
  rcases h'.added n hn with hn | hn
  · exact h.added n hn
  · exact Or.inr hn

/-- Writes beside the sessions, the queue not counted. -/
structure OtherWrites (db db' : Database) : Prop where
  same : SameSessions db db'
  sources : SourcesValid db.other.sources → SourcesValid db'.other.sources
  ledger : ∃ events, (∀ e ∈ events, OtherActivity e) ∧
    auditLog db' = appendEvents events (auditLog db)
  notices : OtherNotices (notices db) (notices db')

theorem OtherWrites.refl (db : Database) : OtherWrites db db :=
  ⟨⟨rfl, rfl, rfl, rfl, rfl, rfl⟩, id, ⟨[], List.forall_mem_nil _, rfl⟩, OtherNotices.refl _⟩

theorem OtherWrites.trans {a b c : Database} (h : OtherWrites a b) (h' : OtherWrites b c) :
    OtherWrites a c := by
  obtain ⟨events, hother, hlog⟩ := h.ledger
  obtain ⟨events', hother', hlog'⟩ := h'.ledger
  refine ⟨⟨h'.same.1.trans h.same.1, h'.same.2.trans h.same.2, h'.same.3.trans h.same.3,
    h'.same.4.trans h.same.4, h'.same.5.trans h.same.5, h'.same.6.trans h.same.6⟩, h'.sources ∘ h.sources,
    ⟨events ++ events', ?_, ?_⟩, h.notices.trans h'.notices⟩
  · exact List.forall_mem_append.mpr ⟨hother, hother'⟩
  · rw [hlog', hlog, appendEvents, appendEvents, appendEvents, List.foldl_append]

/-- The writes of one part of a transaction are those of the other tables it ends with. -/
theorem OtherWrites.congr {a b c : Database} (h : OtherWrites a b) (hother : c.other = b.other) :
    OtherWrites a c := by
  obtain ⟨_, _, _, other⟩ := b
  obtain ⟨_, _, _, other'⟩ := c
  have hsame : other' = other := hother
  subst hsame
  exact ⟨⟨h.same.1, h.same.2, h.same.3, h.same.4, h.same.5, h.same.6⟩, h.sources, h.ledger, h.notices⟩

/-- A row of an extraction job. -/
def IsExtraction (j : Job JobDocument) : Prop :=
  ∃ revisionId, j.logicalKey = extractionKey revisionId ∧ j.kind = .extraction ∧
    j.snapshotId = none ∧ j.payload = .extraction revisionId

/-- A transaction that touches no session. -/
structure Background (db db' : Database) : Prop where
  writes : OtherWrites db db'
  queue : ∃ rows, QueueMoves rows db db' ∧ ∀ row ∈ rows, IsExtraction row

theorem Background.refl (db : Database) : Background db db :=
  ⟨OtherWrites.refl db, [], QueueMoves.of_other db.other, List.forall_mem_nil _⟩

/-- A queue operation without an effect. -/
theorem Background.of_queue {db db' : Database} {rows : List (Job JobDocument)}
    (hother : db'.other = db.other) (hqueue : QueueMoves rows db db')
    (hrows : ∀ row ∈ rows, IsExtraction row) : Background db db' :=
  ⟨(OtherWrites.refl db).congr hother, rows, hqueue, hrows⟩

theorem OutsideWrites.apply_notices (w : OutsideWrites) (db : Database) :
    OtherNotices (notices db) (notices (w.apply db)) := by
  refine ⟨prefix_foldl_insertIgnore, nodup_map_foldl_insertIgnore fun _ _ hkey ↦ hkey, fun n hn ↦ ?_⟩
  rcases mem_foldl_insertIgnore hn with hn | ⟨a, ha, rfl⟩
  · exact Or.inl hn
  · exact Or.inr (w.others n ha)

theorem OutsideWrites.apply_writes (w : OutsideWrites) (db : Database) :
    OtherWrites db (w.apply db) :=
  ⟨⟨rfl, rfl, rfl, rfl, rfl, rfl⟩, fun _ ↦ w.valid, ⟨w.events, w.other, rfl⟩, w.apply_notices db⟩

/-! ## Steps of a worker on a session -/

/-- A lane was completed: its run took an outcome, and the runs of its snapshot were projected into
the session of the snapshot. -/
structure LaneCompleted (claimed : ClaimedJob JobDocument) (e : GenerationExecution)
    (snapshot : GenerationSnapshot) (session : TalkSession) (aggregate : GenerationAggregate)
    (clock : StatementClock) (db db' : Database) : Prop where
  fenced : ∃ row ∈ db.jobs, Fenced claimed clock.seen row
  snapshot_mem : snapshot ∈ db.other.generationSnapshots
  snapshot_id : snapshot.id = e.snapshotId
  session_mem : session ∈ db.other.talkSessions
  session_id : session.id = snapshot.sessionId
  writable : ∃ run ∈ db.other.generationRuns, WritableRun e.snapshotId e.kind e.pipelineVersion run
  runs : ∃ f, RunOutcome e.runState f ∧ db'.other.generationRuns =
    writtenRuns e.snapshotId e.kind e.pipelineVersion f db.other.generationRuns
  documents : DocumentWritten e.snapshotId e.kind e.pipelineVersion db.other
    db'.other.generatedDocuments e.runState
  projected : projectRuns db' snapshot.id = .ok aggregate
  sessions : db'.other.talkSessions =
    writtenSessions session aggregate.state db.other.talkSessions
  snapshots : db'.other.generationSnapshots = db.other.generationSnapshots
  exclusions : db'.other.snapshotExclusions = db.other.snapshotExclusions
  pins : db'.other.snapshotRevisions = db.other.snapshotRevisions
  sources : db'.other.sources = db.other.sources
  ledger : LedgerOfProjection session aggregate.state (auditLog db) (auditLog db')
  delivered : ∃ key recipients, Delivered key
    (effectsOfProjection recipients session aggregate.state) (notices db) (notices db')
  reported : aggregate.state = .ready →
    ∃ j ∈ db'.jobs, j.logicalKey = reportKey snapshot.id snapshot.pipelineVersion
  queue : ∃ rows, QueueMoves rows db db' ∧ ∀ row ∈ rows, aggregate.state = .ready ∧
    ∃ id createdAt, row = reportJob id snapshot.id snapshot.pipelineVersion createdAt

/-- A comparison failed for good: its job ended, and the session of its snapshot left `ready`. -/
structure ComparisonFailed (claimed : ClaimedJob JobDocument) (snapshotId : UUID)
    (clock : StatementClock) (db db' : Database) : Prop where
  identity : ∃ pipelineVersion, claimedReportIdentity claimed = .ok (snapshotId, pipelineVersion)
  job : ∃ row ∈ db.jobs, Fenced claimed clock.seen row ∧
    ∃ row' ∈ db'.jobs, row'.identity = row.identity ∧ row'.state = .failedTerminal
  sessions : db'.other.talkSessions = updateWhere (ReadyOwner db.other.generationSnapshots snapshotId)
    attentionSession db.other.talkSessions
  snapshots : db'.other.generationSnapshots = db.other.generationSnapshots
  exclusions : db'.other.snapshotExclusions = db.other.snapshotExclusions
  pins : db'.other.snapshotRevisions = db.other.snapshotRevisions
  runs : db'.other.generationRuns = db.other.generationRuns
  documents : db'.other.generatedDocuments = db.other.generatedDocuments
  sources : db'.other.sources = db.other.sources
  ledger : auditLog db' = auditLog db
  notices : notices db' = notices db
  queue : QueueMoves [] db db'

/-- Whether the outcome of a comparison ends its job for good. -/
def SuggestionOutcome.Terminal (claimed : ClaimedJob JobDocument) : SuggestionOutcome → Prop
  | .executed .. => False
  | .runnerError => True
  | .providerFailure _ retryable => ¬SuggestionRetryable claimed retryable

instance (claimed : ClaimedJob JobDocument) :
    DecidablePred (SuggestionOutcome.Terminal claimed) := fun outcome ↦ by
  unfold SuggestionOutcome.Terminal
  split <;> infer_instance

/-- What one committed transaction has done. -/
inductive SystemStep (clock : StatementClock) (call : SystemCall) (db db' : Database) : Prop
  | background (h : Background db db')
  | created (session : TalkSession) (actorId roomId : UUID) (topic : String)
      (hcall : call = .createTalkSession session.id actorId roomId topic)
      (h : Created session db db')
  | closed (session : TalkSession) (request : CloseRequest) (draws : CloseDraws)
      (included : List CurrentRevision) (schema : String) (hcall : call = .close request draws)
      (h : Closed session request draws included schema clock.seen db db')
  | reopened (session : TalkSession) (actorId : UUID) (hcall : call = .reopen session.id actorId)
      (h : Reopened session actorId db db')
  | retried (session : TalkSession) (snapshot : GenerationSnapshot) (actorId : UUID)
      (hcall : call = .retry session.id actorId) (h : Retried session snapshot actorId db db')
  | laneCompleted (claimed : ClaimedJob JobDocument) (outcome : ProviderOutcome)
      (resultId reportJobId : UUID) (e : GenerationExecution) (snapshot : GenerationSnapshot)
      (session : TalkSession) (aggregate : GenerationAggregate)
      (hcall : call = .completeLane claimed outcome resultId reportJobId)
      (hexecution : laneExecution claimed outcome = .ok (some e))
      (h : LaneCompleted claimed e snapshot session aggregate clock db db')
  | comparisonFailed (claimed : ClaimedJob JobDocument) (outcome : SuggestionOutcome)
      (resultId snapshotId : UUID)
      (hcall : call = .completeSuggestions claimed outcome resultId)
      (hterminal : outcome.Terminal claimed)
      (h : ComparisonFailed claimed snapshotId clock db db')

/-! ## From calls to steps -/

section Completions

variable {db db' : Database} {claimed : ClaimedJob JobDocument} {clock : StatementClock}
  {resultId : UUID} {u : Unit}

theorem projectRuns_congr {snapshotId : UUID}
    (h : db'.other.generationRuns = db.other.generationRuns) :
    projectRuns db' snapshotId = projectRuns db snapshotId := by
  rw [projectRuns, projectRuns, runsOf, runsOf, h]

/-- A completion without an effect. -/
theorem complete_background (hids : UniqueIds db) {targetState : JobState} {result : JobDocument}
    {errorCode : Option String}
    (h : completeWithEffects claimed targetState result errorCode none resultId clock db
      = .ok (u, db')) : Background db db' := by
  obtain ⟨row, -, -, s₂, heffect, hother, hcompleted⟩ := completeWithEffects_eq_ok hids h
  cases heffect
  refine Background.of_queue hother (QueueMoves.completed (hcompleted [] ?_)) (List.forall_mem_nil _)
  exact Inserted.refl _ db.other

/-- A completion whose effect writes other tables only. -/
theorem complete_other (hids : UniqueIds db) {targetState : JobState} {result : JobDocument}
    {errorCode : Option String} {effect : Database → Except Error Database}
    (heffect : ∀ d d', effect d = .ok d' → OtherWrites d d' ∧ d' = { d with other := d'.other })
    (h : completeWithEffects claimed targetState result errorCode (some effect) resultId clock db
      = .ok (u, db')) : Background db db' := by
  obtain ⟨row, -, -, s₂, heff, hother, hcompleted⟩ := completeWithEffects_eq_ok hids h
  obtain ⟨hwrites, hframe⟩ := heffect _ _ heff
  have hdb : OtherWrites db s₂ := ⟨⟨hwrites.same.1, hwrites.same.2, hwrites.same.3, hwrites.same.4,
    hwrites.same.5, hwrites.same.6⟩, hwrites.sources, hwrites.ledger, hwrites.notices⟩
  refine ⟨hdb.congr hother, [], QueueMoves.completed (hcompleted [] ?_), List.forall_mem_nil _⟩
  rw [hframe]
  exact Inserted.refl _ s₂.other

/-- **A lane that is completed.** Its job takes the target state, and its run the outcome. -/
theorem completeExecution_step (hids : UniqueIds db) {outcome : ProviderOutcome}
    {reportJobId : UUID} {e : GenerationExecution}
    (hexecution : laneExecution claimed outcome = .ok (some e))
    (h : completeExecution claimed (some e) resultId reportJobId clock db = .ok (u, db')) :
    ∃ snapshot session aggregate,
      (∃ row rows, Completed row claimed e.targetState e.errorCode rows db db' ∧
        ∀ new ∈ rows, new.kind = .reportSuggestions) ∧
      LaneCompleted claimed e snapshot session aggregate clock db db' := by
  obtain ⟨row, hmem, hfenced, s₂, heffect, hother, hcompleted⟩ :=
    completeWithEffects_eq_ok hids h
  obtain ⟨⟨projection, s₃⟩, hpersist, hs₃⟩ := bind_eq_ok.mp heffect
  cases hs₃
  obtain ⟨snapshotId, kind, pipelineVersion, -, -, hident⟩ := laneExecution_isFor hexecution
  obtain ⟨⟨run, hrun, hwritable⟩, f, documents, snapshot, session, aggregate, rows, houtcome,
    hdocuments, hrec⟩ := e.persist_eq_ok hident hpersist
  obtain ⟨activity, hframe, hledger, key, hdelivered⟩ := hrec.frame
  have hins := hrec.inserted
  rw [hframe] at hother
  have hprojected : projectRuns db' snapshot.id = .ok aggregate := by
    rw [hrec.snapshot_id, ← hrec.projected]
    exact projectRuns_congr (by rw [hother])
  have hwritten : DocumentWritten e.snapshotId e.kind e.pipelineVersion db.other
      db'.other.generatedDocuments e.runState := by
    rw [hother]
    exact hdocuments
  have hlog : auditLog db' = activity.auditEvents := by rw [auditLog, hother]
  have hnotices : notices db' = activity.notifications := by rw [notices, hother]
  have hdone := hcompleted rows ⟨hins.fresh, hins.unique, hins.distinct, hins.jobs,
    hins.attempts, hins.results⟩
  have hreported : aggregate.state = .ready →
      ∃ j ∈ db'.jobs, j.logicalKey = reportKey snapshot.id snapshot.pipelineVersion := by
    intro hready
    obtain ⟨j, hj, hkey⟩ := hrec.reported hready
    rw [hins.jobs] at hj
    rw [hdone.jobs]
    exact ⟨j, hj, hkey⟩
  have hreports : ∀ new ∈ rows, new.kind = .reportSuggestions := by
    intro new hnew
    obtain ⟨-, id, createdAt, rfl⟩ := hrec.report new hnew
    rfl
  refine ⟨snapshot, session, aggregate, ⟨row, rows, hdone, hreports⟩, ⟨row, hmem, hfenced⟩,
    hrec.snapshot_mem, hrec.snapshot_id, hrec.session_mem, hrec.session_id,
    ⟨run, hrun, hwritable⟩, ⟨f, houtcome, ?_⟩, hwritten, hprojected, ?_, ?_, ?_, ?_, ?_,
    hlog ▸ hledger, ⟨key, _, hnotices ▸ hdelivered⟩, hreported, rows, QueueMoves.completed hdone,
    hrec.report⟩ <;> rw [hother]

theorem completeLane_step (hids : UniqueIds db) {outcome : ProviderOutcome} {reportJobId : UUID}
    (h : completeLane claimed outcome resultId reportJobId clock db = .ok (u, db')) :
    Background db db' ∨ ∃ e snapshot session aggregate,
      laneExecution claimed outcome = .ok (some e) ∧
        LaneCompleted claimed e snapshot session aggregate clock db db' := by
  obtain ⟨execution, hexecution, hcomplete⟩ := bind_eq_ok.mp h
  cases execution with
  | none => exact Or.inl (complete_background hids hcomplete)
  | some e =>
    obtain ⟨snapshot, session, aggregate, -, hl⟩ := completeExecution_step hids hexecution hcomplete
    exact Or.inr ⟨e, snapshot, session, aggregate, hexecution, hl⟩

theorem insertSuggestions_writes {e : AutomaticSuggestionExecution} {n : ℕ}
    (h : e.insertSuggestions db = .ok (n, db')) :
    OtherWrites db db' ∧ db' = { db with other := db'.other } := by
  refine foldlM_invariant
    (fun _ s ↦ OtherWrites db s.2 ∧ s.2 = { db with other := s.2.other }) h ?_ ?_
  · rw [AutomaticSuggestionExecution.insertMerged]
    split
    · exact ⟨OtherWrites.refl db, rfl⟩
    · exact ⟨⟨⟨rfl, rfl, rfl, rfl, rfl, rfl⟩, id, ⟨[], List.forall_mem_nil _, rfl⟩,
        OtherNotices.refl _⟩, rfl⟩
  · rintro - proposal ⟨n, d⟩ ⟨n', d'⟩ ⟨hwrites, hframe⟩ hstep
    rw [AutomaticSuggestionExecution.insertProposal] at hstep
    split at hstep
    · cases hstep
      exact ⟨hwrites, hframe⟩
    · simp only [bind_eq_ok] at hstep
      obtain ⟨-, -, rows, -, hd'⟩ := hstep
      cases hd'
      refine ⟨hwrites.trans ⟨⟨rfl, rfl, rfl, rfl, rfl, rfl⟩, id,
        ⟨[⟨.suggestionCreated proposal.suggestionId, none, some e.roomId, some e.sessionId⟩],
        ?_, rfl⟩, OtherNotices.refl _⟩, ?_⟩
      · exact List.forall_mem_singleton.mpr trivial
      · have hd : d = { db with other := d.other } := hframe
        rw [hd]

theorem failSuggestions_step (hids : UniqueIds db) {errorCode : String} {retryable : Bool}
    (h : failSuggestions claimed errorCode retryable resultId clock db = .ok (u, db')) :
    Background db db' ∨ (¬SuggestionRetryable claimed retryable ∧
      ∃ snapshotId, ComparisonFailed claimed snapshotId clock db db') := by
  rw [failSuggestions] at h
  split at h
  · exact Or.inl (complete_background hids h)
  · next hterminal =>
    obtain ⟨⟨snapshotId, pipelineVersion⟩, hidentity, hcomplete⟩ := bind_eq_ok.mp h
    obtain ⟨row, hmem, hfenced, s₂, heffect, hother, hcompleted⟩ :=
      completeWithEffects_eq_ok hids hcomplete
    cases heffect
    have hdone := hcompleted [] (Inserted.refl _ _)
    have hrow : completedJob .failedTerminal (some errorCode) row ∈ db'.jobs := by
      rw [hdone.jobs, List.append_nil]
      exact mem_updateWhere_of_mem hmem rfl
    have hlog : auditLog db' = auditLog db := by rw [auditLog, hother]; rfl
    have hnotices : notices db' = notices db := by rw [notices, hother]; rfl
    refine Or.inr ⟨hterminal, snapshotId, ⟨pipelineVersion, hidentity⟩,
      ⟨row, hmem, hfenced, _, hrow, rfl, rfl⟩, ?_, ?_, ?_, ?_, ?_, ?_, ?_, hlog, hnotices,
      QueueMoves.completed hdone⟩ <;> rw [hother]

theorem completeSuggestions_step (hids : UniqueIds db) {outcome : SuggestionOutcome}
    (h : completeSuggestions claimed outcome resultId clock db = .ok (u, db')) :
    Background db db' ∨ (outcome.Terminal claimed ∧
      ∃ snapshotId, ComparisonFailed claimed snapshotId clock db db') := by
  unfold completeSuggestions at h
  split at h
  · -- Without an identity, the failure path raises while it builds its effect.
    next error hidentity =>
    rw [failSuggestions] at h
    split at h
    · exact Or.inl (complete_background hids h)
    · rw [hidentity] at h
      exact nomatch h
  · refine Or.inl (complete_other hids ?_ h)
    intro d d' heffect
    obtain ⟨⟨n, d₁⟩, hinsert, hd₁⟩ := bind_eq_ok.mp heffect
    cases hd₁
    exact insertSuggestions_writes hinsert
  · rcases failSuggestions_step hids h with hback | ⟨-, hfailed⟩
    · exact Or.inl hback
    · exact Or.inr ⟨trivial, hfailed⟩
  · exact failSuggestions_step hids h

theorem requeueRetryable_background (hids : UniqueIds db) {jobId : UUID}
    {expectedLeaseGeneration : ℤ}
    (h : requeueRetryable jobId expectedLeaseGeneration db = .ok (u, db')) : Background db db' := by
  obtain ⟨row, -, hreq⟩ := requeueRetryable_step hids h
  have hother : db'.other = db.other := by rw [hreq.store]
  exact Background.of_queue hother (QueueMoves.requeued hreq) (List.forall_mem_nil _)

theorem requeueBody_background (hids : UniqueIds db)
    (h : SystemCall.requeueBody claimed db = .ok (u, db')) : Background db db' := by
  rw [SystemCall.requeueBody] at h
  split at h
  · rw [retryResearch] at h
    split at h
    · cases h
      exact Background.refl db
    · exact requeueRetryable_background hids h
  · rw [retryResearch] at h
    split at h
    · cases h
      exact Background.refl db
    · exact requeueRetryable_background hids h
  · exact requeueRetryable_background hids h
  · exact requeueRetryable_background hids h

theorem enqueueExtraction_background {jobId revisionId : UUID} {job : DurableJob}
    (h : enqueue jobId (extractionKey revisionId) JobKind.extraction.value (.extraction revisionId)
      none clock db = .ok (job, db')) : Background db db' := by
  obtain ⟨rows, hins, hother, hrows⟩ := enqueue_step h
  refine Background.of_queue hother (QueueMoves.inserted hins) fun row hrow ↦ ?_
  obtain ⟨k, hk, rfl⟩ := hrows row hrow
  have hkind : k = .extraction := by
    cases k <;> first | rfl | exact absurd hk (by decide)
  exact ⟨revisionId, rfl, hkind, rfl, rfl⟩

end Completions

variable {db db' : Database} {clock : StatementClock} {call : SystemCall} {reply : SystemReply}

/-- **Every committed transaction is one system step.** -/
theorem SystemCall.body_step (hids : UniqueIds db) (hsessions : UniqueSessions db)
    (h : call.body clock db = .ok (reply, db')) : SystemStep clock call db db' := by
  cases call with
  | createTalkSession sessionId actorId roomId topic =>
    obtain ⟨r, hr, hdb'⟩ := bind_eq_ok.mp h
    cases hdb'
    obtain ⟨hid, hcreated⟩ := createTalkSession_eq_ok hr
    exact .created r.1 actorId roomId topic (by rw [hid]) hcreated
  | close request draws =>
    obtain ⟨r, hr, hdb'⟩ := bind_eq_ok.mp h
    cases hdb'
    rcases close_eq_ok hsessions hr with hsame | ⟨session, included, schema, hclosed⟩
    · rw [hsame]
      exact .background (Background.refl db)
    · exact .closed session request draws included schema rfl hclosed
  | reopen sessionId actorId =>
    obtain ⟨r, hr, hdb'⟩ := bind_eq_ok.mp h
    cases hdb'
    rcases reopen_eq_ok hsessions hr with hsame | ⟨session, rfl, hreopened⟩
    · rw [hsame]
      exact .background (Background.refl db)
    · exact .reopened session actorId rfl hreopened
  | retry sessionId actorId =>
    obtain ⟨r, hr, hdb'⟩ := bind_eq_ok.mp h
    cases hdb'
    rcases retry_eq_ok hsessions hr with hsame | ⟨session, snapshot, rfl, hretried⟩
    · rw [hsame]
      exact .background (Background.refl db)
    · exact .retried session snapshot actorId rfl hretried
  | claimNext owner leaseSeconds kinds leaseToken attemptId locked =>
    obtain ⟨r, hr, hdb'⟩ := bind_eq_ok.mp h
    cases hdb'
    rcases claimNext_step hr with ⟨-, hsame⟩ | ⟨row, claimed, -, hgrant⟩
    · rw [hsame]
      exact .background (Background.refl db)
    · exact .background (Background.of_queue hgrant.other (QueueMoves.granted hgrant)
        (List.forall_mem_nil _))
  | heartbeat claimed leaseSeconds =>
    obtain ⟨r, hr, hdb'⟩ := bind_eq_ok.mp h
    cases hdb'
    obtain ⟨row, -, hext⟩ := heartbeat_step hids hr
    have hother : r.2.other = db.other := by rw [hext.store]
    exact .background (Background.of_queue hother (QueueMoves.extended hext) (List.forall_mem_nil _))
  | completeLane claimed outcome resultId reportJobId =>
    obtain ⟨r, hr, hdb'⟩ := bind_eq_ok.mp h
    cases hdb'
    rcases completeLane_step hids hr with hback | ⟨e, snapshot, session, aggregate, hexec, hlane⟩
    · exact .background hback
    · exact .laneCompleted claimed outcome resultId reportJobId e snapshot session aggregate rfl
        hexec hlane
  | completeSuggestions claimed outcome resultId =>
    obtain ⟨r, hr, hdb'⟩ := bind_eq_ok.mp h
    cases hdb'
    rcases completeSuggestions_step hids hr with hback | ⟨hterminal, snapshotId, hfailed⟩
    · exact .background hback
    · exact .comparisonFailed claimed outcome resultId snapshotId rfl hterminal hfailed
  | enqueueExtraction jobId revisionId =>
    obtain ⟨r, hr, hdb'⟩ := bind_eq_ok.mp h
    cases hdb'
    exact .background (enqueueExtraction_background hr)
  | completeExtraction claimed targetState result errorCode writes resultId =>
    obtain ⟨r, hr, hdb'⟩ := bind_eq_ok.mp h
    cases hdb'
    refine .background (complete_other hids ?_ hr)
    intro d d' heffect
    cases heffect
    exact ⟨writes.apply_writes d, rfl⟩
  | requeue claimed =>
    obtain ⟨r, hr, hdb'⟩ := bind_eq_ok.mp h
    cases hdb'
    exact .background (requeueBody_background hids hr)
  | elsewhere writes =>
    cases h
    exact .background ⟨writes.apply_writes db, [], QueueMoves.of_other _, List.forall_mem_nil _⟩

end MeetingRag
