import MeetingRag.Session.Steps

/-!
# Persisting a generation

What a completed generation job writes in the transaction of its completion: the outcome of its run,
the generated document, and the projection of the two canonical runs into the state of the session.

The projection is denormalized. `recomputeAggregate` reads the runs of *one* snapshot, the one the
job belongs to, and writes the session that owns it. It looks at neither the epoch of the snapshot
nor at whether the session is open.
-/

open Outcome Table Text

namespace MeetingRag

/-! ## Completions -/

/-- A provider result ready to be persisted. Its segments, citations, evidence and claims go to
tables that nothing here reads: `contents` is what their inserts answer. -/
structure GenerationCompletion where
  snapshotId : UUID
  kind : GenerationKind
  pipelineVersion : String
  documentId : UUID
  structuredContent : String
  provider : String
  model : String
  promptVersion : String
  contents : Except Error Unit

/-- The names that `GenerationCompletion.__post_init__` demands. -/
def GenerationCompletion.postInit (c : GenerationCompletion) : Except Error Unit := do
  require (¬Blank c.pipelineVersion) (.valueError "pipeline_version must not be blank")
  require (¬Blank c.provider) (.valueError "provider must not be blank")
  require (¬Blank c.model) (.valueError "model must not be blank")
  require (¬Blank c.promptVersion) (.valueError "prompt_version must not be blank")

structure GenerationAggregateProjection where
  sessionId : UUID
  state : TalkSessionState
  reasonCodes : List String
  transitionedToReady : Bool
deriving DecidableEq, Repr

/-- `^[a-z0-9][a-z0-9_]{0,127}$`. -/
def isErrorCode (code : String) : Bool :=
  let lowerOrDigit (c : Char) : Bool := ('a' ≤ c && c ≤ 'z') || ('0' ≤ c && c ≤ '9')
  match code.toList with
  | [] => false
  | first :: rest =>
    lowerOrDigit first && decide (rest.length ≤ 127) && rest.all fun c ↦ lowerOrDigit c || c = '_'

/-! ## The aggregate -/

/-- A run as the projection looks at it. -/
def runView (r : GenerationRun) : Except Error GenerationRunView := do
  require (∀ code ∈ r.errorCode, ¬Blank code)
    (.generationRepository "generation error must be null or non-empty text")
  GenerationRunView.new r.kind r.state r.errorCode

/-- Project the runs of a snapshot. The projection groups them by kind, so their order is left
out. -/
def projectRuns (db : Database) (snapshotId : UUID) : Except Error GenerationAggregate := do
  let views ← (runsOf db snapshotId).mapM runView
  projectGenerationAggregate views

/-- The event of a projected state, `f"session.{state}"`. -/
def stateEvent (state : TalkSessionState) (sessionId : UUID) (stateVersion : ℕ) :
    Except Error EventIdentity :=
  match state with
  | .closed => .ok (.session ⟨.closed, EventIdentity.closed_mem⟩ sessionId stateVersion)
  | .processing => .ok (.session ⟨.processing, EventIdentity.processing_mem⟩ sessionId stateVersion)
  | .ready => .ok (.session ⟨.ready, EventIdentity.ready_mem⟩ sessionId stateVersion)
  | .needsAttention => .ok (.session ⟨.needsAttention, EventIdentity.needsAttention_mem⟩ sessionId stateVersion)
  | .draft | .open => .error (.valueError "unsupported audit event type")

/-- The members who are told that an analysis is complete. -/
def analysisRecipients (db : Database) (roomId : UUID) : List UUID :=
  ((db.other.sources.roomMemberships.filter fun m ↦ m.roomId = roomId ∧ m.left = false).map
    (·.userId)).insertionSort fun a b ↦ a.toNat ≤ b.toNat

/-- The notification of a completed analysis. -/
def analysisCompleted (db : Database) (session : TalkSession) : NotificationEffect :=
  { recipientIds := analysisRecipients db session.roomId
    kind := "analysis_completed"
    resourceType := "session"
    resourceId := session.id
    actionKind := "open_session"
    title := "분석이 완료되었습니다"
    body := "회의 요약과 리서치 결과를 확인할 수 있습니다."
    templateKey := "analysis_completed"
    dedupeKey := some ("analysis:" ++ session.id.str ++ ":" ++ decimal session.generationEpoch) }

/-- `SET state = …, state_version = …`, with the version read under the lock. -/
def projectedSession (state : TalkSessionState) (stateVersion : ℕ) (s : TalkSession) : TalkSession :=
  { s with state := state, stateVersion := stateVersion }

/-- Write a projected state that differs from the state of the session. -/
def writeAggregate (session : TalkSession) (state : TalkSessionState) (db : Database) :
    Except Error Database :=
  if session.state = state then .ok db
  else do
    require (rowcount (·.id = session.id) db.other.talkSessions = 1)
      (.generationRepository "talk session aggregate update was lost")
    let event ← stateEvent state session.id (session.stateVersion + 1)
    recordSession event none session (if state = .ready then [analysisCompleted db session] else [])
      { db with other := { db.other with
          talkSessions := updateWhere (·.id = session.id)
            (projectedSession state (session.stateVersion + 1)) db.other.talkSessions } }

/-- The job that suggests edits to a finished report. -/
def reportJob (id snapshotId : UUID) (pipelineVersion : String) (createdAt : Timestamp) :
    Job JobDocument :=
  newJob id (reportKey snapshotId pipelineVersion) .reportSuggestions (some snapshotId)
    (.generation snapshotId .reportSuggestions pipelineVersion) createdAt

/-- Enqueue the report job of a snapshot whose runs are both successful, at most once. -/
def enqueueReport (reportJobId : UUID) (createdAt : Timestamp) (snapshot : GenerationSnapshot)
    (state : TalkSessionState) (db : Database) : Except Error Database :=
  if state = .ready then do
    let jobs ← insertJobOrIgnore
      (reportJob reportJobId snapshot.id snapshot.pipelineVersion createdAt) db.jobs
    .ok { db with jobs := jobs }
  else .ok db

/-- A snapshot joined with the session it belongs to. -/
def snapshotSession (db : Database) (snapshotId : UUID) :
    Option (GenerationSnapshot × TalkSession) := do
  let snapshot ← db.other.generationSnapshots.find? (·.id = snapshotId)
  let session ← db.other.talkSessions.find? (·.id = snapshot.sessionId)
  some (snapshot, session)

def requireSnapshotSession (db : Database) (snapshotId : UUID) :
    Except Error (GenerationSnapshot × TalkSession) :=
  match snapshotSession db snapshotId with
  | none => .error (.generationRepository "generation snapshot does not exist")
  | some pair => .ok pair

/-- Project two canonical run states into the owning session. -/
def recomputeAggregate (reportJobId : UUID) (createdAt : Timestamp) (snapshotId : UUID)
    (db : Database) : Except Error (GenerationAggregateProjection × Database) := do
  let (snapshot, session) ← requireSnapshotSession db snapshotId
  require (¬Blank snapshot.pipelineVersion)
    (.generationRepository "pipeline version must be non-empty text")
  let aggregate ← projectRuns db snapshotId
  let db ← writeAggregate session aggregate.state db
  let db ← enqueueReport reportJobId createdAt snapshot aggregate.state db
  .ok (⟨session.id, aggregate.state, aggregate.reasons.map (·.code),
    decide (session.state ≠ aggregate.state ∧ aggregate.state = .ready)⟩, db)

/-! ## Run outcomes -/

/-- A run that a completion may still write. -/
def WritableRun (snapshotId : UUID) (kind : GenerationKind) (pipelineVersion : String)
    (r : GenerationRun) : Prop :=
  r.snapshotId = snapshotId ∧ r.kind = kind ∧ r.pipelineVersion = pipelineVersion ∧
    r.state ∈ [GenerationRunState.queued, .running, .failedRetryable]

instance (snapshotId : UUID) (kind : GenerationKind) (pipelineVersion : String) :
    DecidablePred (WritableRun snapshotId kind pipelineVersion) :=
  fun r ↦ inferInstanceAs (Decidable (r.snapshotId = snapshotId ∧ r.kind = kind ∧
    r.pipelineVersion = pipelineVersion ∧
      r.state ∈ [GenerationRunState.queued, .running, .failedRetryable]))

def succeededRun (completion : GenerationCompletion) (r : GenerationRun) : GenerationRun :=
  { r with
    state := .succeeded
    provider := completion.provider
    model := completion.model
    promptVersion := completion.promptVersion
    errorCode := none }

def failedRun (errorCode : String) (retryable : Bool) (r : GenerationRun) : GenerationRun :=
  { r with
    state := if retryable then .failedRetryable else .failedTerminal
    errorCode := some errorCode }

/-- `_mark_run_succeeded`: the id of the run, and the runs. -/
def markRunSucceeded (completion : GenerationCompletion) (runs : List GenerationRun) :
    Except Error (UUID × List GenerationRun) :=
  let writable := WritableRun completion.snapshotId completion.kind completion.pipelineVersion
  match runs.find? writable with
  | none => .error (.generationRepository "canonical generation run is not writable")
  | some run => .ok (run.id, updateWhere writable (succeededRun completion) runs)

/-- Write an artifact and project the state. -/
def persistSuccess (completion : GenerationCompletion) (reportJobId : UUID) (createdAt : Timestamp)
    (db : Database) : Except Error (GenerationAggregateProjection × Database) := do
  let (runId, runs) ← markRunSucceeded completion db.other.generationRuns
  let documents ← insertUnique documentsClash (fun _ ↦ .database "generated_documents_key")
    ⟨completion.documentId, runId, completion.kind, completion.structuredContent⟩
    db.other.generatedDocuments
  completion.contents
  recomputeAggregate reportJobId createdAt completion.snapshotId
    { db with other := { db.other with
        generationRuns := runs
        generatedDocuments := documents } }

/-- Record a typed failure of a run and project the state. -/
def persistFailure (snapshotId : UUID) (kind : GenerationKind) (pipelineVersion errorCode : String)
    (retryable : Bool) (reportJobId : UUID) (createdAt : Timestamp) (db : Database) :
    Except Error (GenerationAggregateProjection × Database) := do
  require (¬Blank pipelineVersion) (.generationRepository "pipeline_version must not be blank")
  require (isErrorCode errorCode = true)
    (.generationRepository "error_code must be a typed lowercase token")
  let writable := WritableRun snapshotId kind pipelineVersion
  require (rowcount writable db.other.generationRuns = 1)
    (.generationRepository "canonical generation run is not writable")
  recomputeAggregate reportJobId createdAt snapshotId
    { db with other := { db.other with
        generationRuns := updateWhere writable (failedRun errorCode retryable)
          db.other.generationRuns } }

/-! ## What a completion writes -/

/-- The sessions after a projected state is written. -/
def writtenSessions (session : TalkSession) (state : TalkSessionState)
    (sessions : List TalkSession) : List TalkSession :=
  if session.state = state then sessions
  else setSession session.id (projectedSession state (session.stateVersion + 1)) sessions

/-- The ledger after a projected state is written: one event, keyed by the new version, exactly when
the state changed. -/
def LedgerOfProjection (session : TalkSession) (state : TalkSessionState)
    (events events' : List AuditEvent) : Prop :=
  (session.state = state ∧ events' = events) ∨
    (session.state ≠ state ∧ ∃ change, events' =
      appendEvent (stateChange change none session (session.stateVersion + 1)) events)

/-- The notifications a projected state gives rise to. -/
def effectsOfProjection (db : Database) (session : TalkSession) (state : TalkSessionState) :
    List NotificationEffect :=
  if state = .ready then [analysisCompleted db session] else []

theorem stateEvent_eq_ok {state : TalkSessionState} {sessionId : UUID} {stateVersion : ℕ}
    {event : EventIdentity} (h : stateEvent state sessionId stateVersion = .ok event) :
    ∃ change, event = .session change sessionId stateVersion := by
  cases state with
  | draft => exact nomatch h
  | «open» => exact nomatch h
  | closed => exact ⟨_, (Except.ok.inj h).symm⟩
  | processing => exact ⟨_, (Except.ok.inj h).symm⟩
  | ready => exact ⟨_, (Except.ok.inj h).symm⟩
  | needsAttention => exact ⟨_, (Except.ok.inj h).symm⟩

theorem writeAggregate_eq_ok {session : TalkSession} {state : TalkSessionState}
    {db db' : Database} (h : writeAggregate session state db = .ok db') :
    ∃ activity, db' = { db with other := { db.other with
        talkSessions := writtenSessions session state db.other.talkSessions
        activity := activity } } ∧
      LedgerOfProjection session state (auditLog db) activity.auditEvents ∧
      ∃ key, Delivered key (effectsOfProjection db session state) (notices db)
        activity.notifications := by
  rw [writeAggregate] at h
  split at h
  · next hsame =>
    cases h
    exact ⟨db.other.activity, by rw [writtenSessions, if_pos hsame], Or.inl ⟨hsame, rfl⟩, "",
      Delivered.refl _ _ _⟩
  · next hne =>
    simp only [bind_eq_ok] at h
    obtain ⟨_, -, event, hevent, hrecord⟩ := h
    obtain ⟨change, rfl⟩ := stateEvent_eq_ok hevent
    obtain ⟨activity, rfl, hledger, hdelivered⟩ := recordSession_eq_ok hrecord
    exact ⟨activity, by rw [writtenSessions, if_neg hne]; rfl, Or.inr ⟨hne, change, hledger⟩, _,
      hdelivered⟩

/-- What is left of a projection step: the pair it read, the state it projected, and the four
places it wrote. -/
structure Recomputed (snapshotId : UUID) (snapshot : GenerationSnapshot) (session : TalkSession)
    (aggregate : GenerationAggregate) (rows : List (Job JobDocument)) (db db' : Database) : Prop where
  snapshot_mem : snapshot ∈ db.other.generationSnapshots
  snapshot_id : snapshot.id = snapshotId
  session_mem : session ∈ db.other.talkSessions
  session_id : session.id = snapshot.sessionId
  projected : projectRuns db snapshotId = .ok aggregate
  report : ∀ row ∈ rows, aggregate.state = .ready ∧
    ∃ id createdAt, row = reportJob id snapshot.id snapshot.pipelineVersion createdAt
  reported : aggregate.state = .ready →
    ∃ j ∈ db'.jobs, j.logicalKey = reportKey snapshot.id snapshot.pipelineVersion
  inserted : Inserted rows db db'
  frame : ∃ activity, db'.other = { db.other with
      talkSessions := writtenSessions session aggregate.state db.other.talkSessions
      activity := activity } ∧
    LedgerOfProjection session aggregate.state (auditLog db) activity.auditEvents ∧
    ∃ key, Delivered key (effectsOfProjection db session aggregate.state) (notices db)
      activity.notifications

theorem requireSnapshotSession_eq_ok {db : Database} {snapshotId : UUID}
    {snapshot : GenerationSnapshot} {session : TalkSession}
    (h : requireSnapshotSession db snapshotId = .ok (snapshot, session)) :
    snapshot ∈ db.other.generationSnapshots ∧ snapshot.id = snapshotId ∧
      session ∈ db.other.talkSessions ∧ session.id = snapshot.sessionId := by
  rw [requireSnapshotSession] at h
  split at h
  · exact nomatch h
  · next pair hpair =>
    cases h
    simp only [snapshotSession, Option.bind_eq_bind, Option.bind_eq_some_iff] at hpair
    obtain ⟨p, hp, s, hs, heq⟩ := hpair
    cases heq
    have hid : snapshot.id = snapshotId := by simpa using List.find?_some hp
    have hsid : session.id = snapshot.sessionId := by simpa using List.find?_some hs
    exact ⟨List.mem_of_find?_eq_some hp, hid, List.mem_of_find?_eq_some hs, hsid⟩

theorem enqueueReport_eq_ok {reportJobId : UUID} {createdAt : Timestamp}
    {snapshot : GenerationSnapshot} {state : TalkSessionState} {db db' : Database}
    (h : enqueueReport reportJobId createdAt snapshot state db = .ok db') :
    ∃ rows, Inserted rows db db' ∧ db'.other = db.other ∧
      (∀ row ∈ rows, state = .ready ∧
        ∃ id createdAt, row = reportJob id snapshot.id snapshot.pipelineVersion createdAt) ∧
      (state = .ready →
        ∃ j ∈ db'.jobs, j.logicalKey = reportKey snapshot.id snapshot.pipelineVersion) := by
  rw [enqueueReport] at h
  split at h
  · next hready =>
    obtain ⟨jobs, hjobs, hdb'⟩ := bind_eq_ok.mp h
    cases hdb'
    -- The key is taken already, or the new row has taken it.
    rcases insertJobOrIgnore_eq_ok hjobs with ⟨htaken, rfl⟩ | ⟨hnew, rfl⟩
    · exact ⟨[], Inserted.refl db db.other, rfl, List.forall_mem_nil _, fun _ ↦ htaken⟩
    · refine ⟨_, inserted_singleton ⟨_, _, _, _, _, _, rfl⟩ hnew, rfl, ?_, fun _ ↦ ?_⟩
      · intro row hrow
        rw [List.mem_singleton.mp hrow]
        exact ⟨hready, _, _, rfl⟩
      · exact ⟨_, List.mem_append_right _ (List.mem_singleton_self _), rfl⟩
  · next hnotReady =>
    cases h
    exact ⟨[], Inserted.refl db db.other, rfl, List.forall_mem_nil _, fun h ↦ absurd h hnotReady⟩

theorem recomputeAggregate_eq_ok {reportJobId snapshotId : UUID} {createdAt : Timestamp}
    {db db' : Database} {projection : GenerationAggregateProjection}
    (h : recomputeAggregate reportJobId createdAt snapshotId db = .ok (projection, db')) :
    ∃ snapshot session aggregate rows,
      Recomputed snapshotId snapshot session aggregate rows db db' := by
  simp only [recomputeAggregate, bind_eq_ok] at h
  obtain ⟨⟨snapshot, session⟩, hpair, _, -, aggregate, hproj, db₁, hwrite, db₂, hreport, hdb'⟩ := h
  cases hdb'
  obtain ⟨hsnap, hid, hsess, hsid⟩ := requireSnapshotSession_eq_ok hpair
  obtain ⟨activity, rfl, hledger⟩ := writeAggregate_eq_ok hwrite
  obtain ⟨rows, hins, hother, hrows, hreported⟩ := enqueueReport_eq_ok hreport
  refine ⟨snapshot, session, aggregate, rows, hsnap, hid, hsess, hsid, hproj, hrows, hreported,
    ⟨hins.fresh, hins.unique, hins.distinct, hins.jobs, hins.attempts, hins.results⟩,
    activity, hother, hledger⟩

/-- The runs after a completion has written the run of one lane. -/
def writtenRuns (snapshotId : UUID) (kind : GenerationKind) (pipelineVersion : String)
    (f : GenerationRun → GenerationRun) (runs : List GenerationRun) : List GenerationRun :=
  updateWhere (WritableRun snapshotId kind pipelineVersion) f runs

/-- A run outcome: the state and the code it sets, and the identity it keeps. -/
structure RunOutcome (state : GenerationRunState) (f : GenerationRun → GenerationRun) : Prop where
  finished : state = .succeeded ∨ state = .failedRetryable ∨ state = .failedTerminal
  state_eq : ∀ r, (f r).state = state
  coded : ∀ r, ∀ code ∈ (f r).errorCode, ¬Blank code
  id : ∀ r, (f r).id = r.id
  snapshotId : ∀ r, (f r).snapshotId = r.snapshotId
  kind : ∀ r, (f r).kind = r.kind
  pipelineVersion : ∀ r, (f r).pipelineVersion = r.pipelineVersion

theorem not_blank_of_isErrorCode {code : String} (h : isErrorCode code = true) : ¬Blank code := by
  rw [isErrorCode] at h
  split at h
  · exact nomatch h
  · next first rest hlist =>
    refine not_blank_of_mem (c := first) (hlist ▸ List.mem_cons_self) ?_
    rw [Bool.and_eq_true, Bool.and_eq_true] at h
    have hfirst := h.1.1
    simp only [Bool.or_eq_true, Bool.and_eq_true, decide_eq_true_eq, Char.le_def,
      UInt32.le_iff_toNat_le] at hfirst
    -- A lower-case letter or a digit lies in no range of `isSpace`.
    have hrange : (97 ≤ first.toNat ∧ first.toNat ≤ 122) ∨ (48 ≤ first.toNat ∧ first.toNat ≤ 57) :=
      hfirst
    rw [isSpace]
    simp only [Bool.or_eq_false_iff, Bool.and_eq_false_iff, decide_eq_false_iff_not, beq_eq_false_iff_ne]
    omega

theorem succeededRun_outcome (completion : GenerationCompletion) :
    RunOutcome .succeeded (succeededRun completion) where
  finished := Or.inl rfl
  state_eq := fun _ ↦ rfl
  coded := fun _ _ h ↦ nomatch h
  id := fun _ ↦ rfl
  snapshotId := fun _ ↦ rfl
  kind := fun _ ↦ rfl
  pipelineVersion := fun _ ↦ rfl

theorem failedRun_outcome {errorCode : String} (hcode : isErrorCode errorCode = true)
    (retryable : Bool) :
    RunOutcome (if retryable then .failedRetryable else .failedTerminal)
      (failedRun errorCode retryable) where
  finished := by cases retryable <;> simp
  state_eq := fun _ ↦ rfl
  coded := fun _ code h ↦ by
    rw [← Option.some.inj h]
    exact not_blank_of_isErrorCode hcode
  id := fun _ ↦ rfl
  snapshotId := fun _ ↦ rfl
  kind := fun _ ↦ rfl
  pipelineVersion := fun _ ↦ rfl

/-- The documents after an outcome: a success adds the document of its run. -/
inductive DocumentWritten (snapshotId : UUID) (kind : GenerationKind) (pipelineVersion : String)
    (t : Tables) (documents : List GeneratedDocument) : GenerationRunState → Prop
  | success (run : GenerationRun) (document : GeneratedDocument)
      (mem : run ∈ t.generationRuns)
      (writable : WritableRun snapshotId kind pipelineVersion run) (runId : document.runId = run.id)
      (same : document.kind = kind)
      (fresh : ∀ d ∈ t.generatedDocuments, ¬documentsClash d document)
      (added : documents = t.generatedDocuments ++ [document]) :
      DocumentWritten snapshotId kind pipelineVersion t documents .succeeded
  | failure {state : GenerationRunState} (failed : state ≠ .succeeded)
      (kept : documents = t.generatedDocuments) :
      DocumentWritten snapshotId kind pipelineVersion t documents state

/-- **What persisting an outcome does**: one lane's run takes the outcome, and the aggregate is
recomputed over the runs so written. -/
structure Persisted (snapshotId : UUID) (kind : GenerationKind) (pipelineVersion : String)
    (state : GenerationRunState) (db db' : Database) : Prop where
  writable : ∃ run ∈ db.other.generationRuns, WritableRun snapshotId kind pipelineVersion run
  written : ∃ f documents snapshot session aggregate rows, RunOutcome state f ∧
    DocumentWritten snapshotId kind pipelineVersion db.other documents state ∧ Recomputed snapshotId snapshot session aggregate rows
      { db with other := { db.other with
          generationRuns := writtenRuns snapshotId kind pipelineVersion f db.other.generationRuns
          generatedDocuments := documents } } db'

theorem persistSuccess_eq_ok {completion : GenerationCompletion} {reportJobId : UUID}
    {createdAt : Timestamp} {db db' : Database} {projection : GenerationAggregateProjection}
    (h : persistSuccess completion reportJobId createdAt db = .ok (projection, db')) :
    Persisted completion.snapshotId completion.kind completion.pipelineVersion .succeeded db db' := by
  simp only [persistSuccess, bind_eq_ok] at h
  obtain ⟨⟨runId, runs⟩, hmark, documents, hinsert, _, -, hrecompute⟩ := h
  obtain ⟨snapshot, session, aggregate, rows, hrec⟩ := recomputeAggregate_eq_ok hrecompute
  simp only [markRunSucceeded] at hmark
  split at hmark
  · cases hmark
  · next run hrun =>
    cases hmark
    have hwritable : WritableRun completion.snapshotId completion.kind completion.pipelineVersion
        run := by simpa using List.find?_some hrun
    have hmem := List.mem_of_find?_eq_some hrun
    obtain ⟨hfresh, hadded⟩ := insertUnique_eq_ok.mp hinsert
    exact ⟨⟨run, hmem, hwritable⟩, _, documents, snapshot, session, aggregate, rows,
      succeededRun_outcome completion,
      .success run _ hmem hwritable rfl rfl hfresh hadded, hrec⟩

theorem persistFailure_eq_ok {snapshotId : UUID} {kind : GenerationKind}
    {pipelineVersion errorCode : String} {retryable : Bool} {reportJobId : UUID}
    {createdAt : Timestamp} {db db' : Database} {projection : GenerationAggregateProjection}
    (h : persistFailure snapshotId kind pipelineVersion errorCode retryable reportJobId createdAt db
      = .ok (projection, db')) :
    Persisted snapshotId kind pipelineVersion
      (if retryable then .failedRetryable else .failedTerminal) db db' := by
  simp only [persistFailure, bind_eq_ok, require_eq_ok] at h
  obtain ⟨_, -, _, hcode, _, hcount, hrecompute⟩ := h
  obtain ⟨snapshot, session, aggregate, rows, hrec⟩ := recomputeAggregate_eq_ok hrecompute
  have hpos : 0 < rowcount (WritableRun snapshotId kind pipelineVersion) db.other.generationRuns := by
    rw [hcount]
    exact Nat.one_pos
  exact ⟨rowcount_pos.mp hpos, _, db.other.generatedDocuments, snapshot, session, aggregate, rows,
    failedRun_outcome hcode retryable, .failure (by cases retryable <;> decide) rfl, hrec⟩

end MeetingRag
