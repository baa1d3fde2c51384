import MeetingRag.Queue.Progress
import MeetingRag.Session.Service

/-!
# What a session call can do

A call of the session service that returns either left the database alone or took one of four steps:
it created a session, closed an open one, reopened an analyzed one, or put the failed lanes of one
back. Each step is a structure with the guard it was taken under and the database it leaves, written
as the old one with the tables that were written.

Two loops run inside these transactions. Closing inserts a run and a job for each canonical kind,
and retrying updates a run and a job for each failed kind; for both loops there is one statement of
when they return and of what they leave, by induction on the kinds.
-/

open Outcome Table Text

namespace MeetingRag

/-! ## Shared statements -/

/-- Session ids are a primary key. -/
def UniqueSessions (db : Database) : Prop := (db.other.talkSessions.map (·.id)).Nodup

/-- Replace the row of one session. -/
def setSession (id : UUID) (f : TalkSession → TalkSession) (sessions : List TalkSession) :
    List TalkSession :=
  updateWhere (·.id = id) f sessions

/-- The audit ledger. -/
def auditLog (db : Database) : List AuditEvent := db.other.activity.auditEvents

/-- The notifications of a database. -/
def notices (db : Database) : List Notification := db.other.activity.notifications

/-- The states that a session event can name. -/
abbrev SessionChange :=
  OneOf [EventState.closed, .processing, .ready, .needsAttention, .reopened]

/-- The ledger row of a state change. -/
def stateChange (change : SessionChange) (actorId : Option UUID) (session : TalkSession)
    (stateVersion : ℕ) : AuditEvent :=
  ⟨.session change session.id stateVersion, actorId, some session.roomId, some session.id⟩

variable {db db' : Database}

theorem updateSession_eq_ok (hids : UniqueSessions db) {sessionId : UUID}
    {expected : TalkSessionState} {f : TalkSession → TalkSession} {e : Error} {row : TalkSession} :
    updateSession sessionId expected f e db = .ok (row, db') ↔
      ∃ s ∈ db.other.talkSessions, (s.id = sessionId ∧ s.state = expected) ∧ row = f s ∧
        db' = { db with other := { db.other with
          talkSessions := setSession sessionId f db.other.talkSessions } } := by
  simp only [updateSession, bind_eq_ok, Except.ok.injEq, Prod.mk.injEq, Prod.exists,
    updateOne_eq_ok hids (fun s (h : s.id = sessionId ∧ s.state = expected) ↦ h.1)]
  constructor
  · rintro ⟨_, _, ⟨s, hs, hguard, rfl, rfl⟩, rfl, rfl⟩
    exact ⟨s, hs, hguard, rfl, rfl⟩
  · rintro ⟨s, hs, hguard, rfl, rfl⟩
    exact ⟨_, _, ⟨s, hs, hguard, rfl, rfl⟩, rfl, rfl⟩

/-- The row that the caller has locked is the one that is updated. -/
theorem updateSession_locked (hids : UniqueSessions db) {session row : TalkSession}
    (hmem : session ∈ db.other.talkSessions) {sessionId : UUID} {expected : TalkSessionState}
    (hid : session.id = sessionId) (hstate : session.state = expected)
    {f : TalkSession → TalkSession} {e : Error} :
    updateSession sessionId expected f e db = .ok (row, db') ↔ row = f session ∧
      db' = { db with other := { db.other with
        talkSessions := setSession sessionId f db.other.talkSessions } } := by
  rw [updateSession_eq_ok hids]
  constructor
  · rintro ⟨s, hs, ⟨hsid, -⟩, rfl, rfl⟩
    rw [eq_of_key_eq hids hs hmem (hsid.trans hid.symm)]
    exact ⟨rfl, rfl⟩
  · rintro ⟨rfl, rfl⟩
    exact ⟨session, hmem, ⟨hid, hstate⟩, rfl, rfl⟩

theorem mem_setSession {id : UUID} {f : TalkSession → TalkSession} {sessions : List TalkSession}
    {s : TalkSession} (hs : s ∈ sessions) (hid : s.id = id) : f s ∈ setSession id f sessions :=
  mem_updateWhere_of_mem hs hid

theorem setSession_setSession {id : UUID} {f g : TalkSession → TalkSession}
    {sessions : List TalkSession} (hf : ∀ s, (f s).id = s.id) :
    setSession id g (setSession id f sessions) = setSession id (g ∘ f) sessions :=
  updateWhere_updateWhere fun s hs ↦ (hf s).trans hs

theorem uniqueSessions_setSession (hids : UniqueSessions db) {id : UUID}
    {f : TalkSession → TalkSession}
    (hsessions : db'.other.talkSessions = setSession id f db.other.talkSessions)
    (hf : ∀ s, (f s).id = s.id) : UniqueSessions db' := by
  rw [UniqueSessions, hsessions, setSession, map_updateWhere_of_forall hf]
  exact hids

theorem recordSession_eq_ok {event : EventIdentity} {actorId : Option UUID} {session : TalkSession}
    {effects : List NotificationEffect}
    (h : recordSession event actorId session effects db = .ok db') :
    ∃ activity, db' = { db with other := { db.other with activity := activity } } ∧
      activity.auditEvents = appendEvent ⟨event, actorId, some session.roomId, some session.id⟩
        (auditLog db) ∧
      Delivered (buildEventKey event) effects (notices db) activity.notifications := by
  obtain ⟨activity, hrecord, hdb'⟩ := bind_eq_ok.mp h
  cases hdb'
  exact ⟨activity, rfl, record_auditEvents hrecord, record_delivered hrecord⟩

/-- The database with an event appended. -/
def withEvent (e : AuditEvent) (db : Database) : Database :=
  { db with other := { db.other with activity := { db.other.activity with
    auditEvents := appendEvent e db.other.activity.auditEvents } } }

/-- Recording an event without notifications always returns. -/
theorem recordSession_nil (event : EventIdentity) (actorId : Option UUID) (session : TalkSession)
    (db : Database) : recordSession event actorId session [] db =
      .ok (withEvent ⟨event, actorId, some session.roomId, some session.id⟩ db) := by
  rw [recordSession, record_nil]
  rfl

theorem requireHostedSession_eq_ok {access host : Error} {sessionId actorId : UUID}
    {session : TalkSession} :
    requireHostedSession access host db sessionId actorId = .ok session ↔
      lockSession db sessionId actorId = some session ∧ session.hostId = actorId := by
  rw [requireHostedSession]
  split
  · next hnone => simp [hnone]
  · next s hs =>
    rw [hs, require_bind_eq_ok, Option.some.injEq, Except.ok.injEq]
    constructor
    · rintro ⟨hhost, rfl⟩
      exact ⟨rfl, hhost⟩
    · rintro ⟨rfl, hhost⟩
      exact ⟨hhost, rfl⟩

theorem lockSession_eq_some (hids : UniqueSessions db) {sessionId actorId : UUID}
    {session : TalkSession} : lockSession db sessionId actorId = some session ↔
      session ∈ db.other.talkSessions ∧ session.id = sessionId ∧
        ActiveMember db session.roomId actorId := by
  rw [lockSession, find?_eq_some_of_key hids (k := sessionId), decide_eq_true_eq]
  intro r hr
  exact (of_decide_eq_true hr).1

/-! ## Creating -/

/-- A session was created. -/
structure Created (session : TalkSession) (db db' : Database) : Prop where
  fresh : ∀ s ∈ db.other.talkSessions, s.id ≠ session.id
  isOpen : session.state = .open
  epoch : session.generationEpoch = 0
  frame : ∃ activity e, db' = { db with other := { db.other with
      talkSessions := db.other.talkSessions ++ [session]
      activity := activity } } ∧
    activity.auditEvents = appendEvent e (auditLog db) ∧ e.event = .sessionCreated session.id ∧
    activity.notifications = notices db

theorem createTalkSession_eq_ok {sessionId actorId roomId : UUID} {topic : String}
    {session : TalkSession}
    (h : createTalkSession sessionId actorId roomId topic db = .ok (session, db')) :
    session.id = sessionId ∧ Created session db db' := by
  simp only [createTalkSession, bind_eq_ok] at h
  obtain ⟨topic', -, _, -, _, -, sessions, hinsert, db₁, hrecord, hdb'⟩ := h
  cases hdb'
  obtain ⟨hfresh, rfl⟩ := insertUnique_eq_ok.mp hinsert
  rw [recordSession_nil] at hrecord
  cases hrecord
  exact ⟨rfl, hfresh, rfl, rfl, _, _, rfl, rfl, rfl, rfl⟩

/-! ## Closing -/

/-- The runs that a close queues. -/
def laneRuns (draws : CloseDraws) (snapshot : GenerationSnapshot) (kinds : List GenerationKind) :
    List GenerationRun :=
  kinds.map fun kind ↦ queuedRun (draws.runId kind) snapshot kind

/-- The jobs that a close queues. -/
def laneJobs (draws : CloseDraws) (snapshot : GenerationSnapshot) (createdAt : Timestamp)
    (kinds : List GenerationKind) : List (Job JobDocument) :=
  kinds.map fun kind ↦ generationJob (draws.jobId kind) snapshot createdAt kind

/-- **The lanes of a close.** The loop returns exactly when no run and no job clashes, and appends
them all. -/
theorem foldlM_insertLane_eq_ok {draws : CloseDraws} {snapshot : GenerationSnapshot}
    {createdAt : Timestamp} {kinds : List GenerationKind} :
    kinds.foldlM (insertLane draws snapshot createdAt) db = .ok db' ↔
      Appendable runsClash db.other.generationRuns (laneRuns draws snapshot kinds) ∧
        Appendable jobsClash db.jobs (laneJobs draws snapshot createdAt kinds) ∧
        db' = { db with
          jobs := db.jobs ++ laneJobs draws snapshot createdAt kinds
          other := { db.other with
            generationRuns := db.other.generationRuns ++ laneRuns draws snapshot kinds } } := by
  induction kinds generalizing db with
  | nil =>
    have hnil : ∀ {α : Type} {clash : α → α → Prop} {t : List α}, Appendable clash t [] :=
      ⟨fun _ _ ↦ List.forall_mem_nil _, List.Pairwise.nil⟩
    rw [List.foldlM_nil, pure_eq_ok, eq_comm]
    simp [laneRuns, laneJobs, hnil]
  | cons kind kinds ih =>
    rw [List.foldlM_cons, laneRuns, laneJobs, List.map_cons, List.map_cons, appendable_cons,
      appendable_cons]
    simp only [bind_eq_ok, insertLane, insertJob_eq_ok, insertUnique_eq_ok, Except.ok.injEq]
    constructor
    · rintro ⟨_, ⟨_, ⟨hrun, rfl⟩, _, ⟨hjob, rfl⟩, rfl⟩, hrest⟩
      obtain ⟨hruns, hjobs, rfl⟩ := ih.mp hrest
      refine ⟨⟨hrun, hruns⟩, ⟨hjob, hjobs⟩, ?_⟩
      simp [laneRuns, laneJobs]
    · rintro ⟨⟨hrun, hruns⟩, ⟨hjob, hjobs⟩, rfl⟩
      refine ⟨_, ⟨_, ⟨hrun, rfl⟩, _, ⟨hjob, rfl⟩, rfl⟩, ih.mpr ⟨hruns, hjobs, ?_⟩⟩
      simp [laneRuns, laneJobs]

/-- What has to be free for a generation to be inserted. -/
structure GenerationFree (draws : CloseDraws) (snapshot : GenerationSnapshot)
    (included : List CurrentRevision) (createdAt : Timestamp) (db : Database) : Prop where
  newSnapshot : ∀ p ∈ db.other.generationSnapshots, ¬snapshotsClash p snapshot
  pins : Appendable snapshotRevisionsClash db.other.snapshotRevisions
    (snapshotPins snapshot.id included)
  runs : Appendable runsClash db.other.generationRuns
    (laneRuns draws snapshot canonicalGenerationKinds)
  jobs : Appendable jobsClash db.jobs (laneJobs draws snapshot createdAt canonicalGenerationKinds)

theorem insertGeneration_eq_ok {draws : CloseDraws} {snapshot : GenerationSnapshot}
    {included : List CurrentRevision} {createdAt : Timestamp} :
    insertGeneration draws snapshot included createdAt db = .ok db' ↔
      GenerationFree draws snapshot included createdAt db ∧
        db' = { db with
          jobs := db.jobs ++ laneJobs draws snapshot createdAt canonicalGenerationKinds
          other := { db.other with
            generationSnapshots := db.other.generationSnapshots ++ [snapshot]
            snapshotRevisions := db.other.snapshotRevisions ++ snapshotPins snapshot.id included
            generationRuns := db.other.generationRuns ++
              laneRuns draws snapshot canonicalGenerationKinds } } := by
  simp only [insertGeneration, bind_eq_ok, insertUnique_eq_ok, foldlM_insertUnique,
    foldlM_insertLane_eq_ok]
  constructor
  · rintro ⟨_, ⟨hsnapshot, rfl⟩, _, ⟨hpins, rfl⟩, hruns, hjobs, rfl⟩
    exact ⟨⟨hsnapshot, hpins, hruns, hjobs⟩, rfl⟩
  · rintro ⟨hfree, rfl⟩
    exact ⟨_, ⟨hfree.newSnapshot, rfl⟩, _, ⟨hfree.pins, rfl⟩, hfree.runs, hfree.jobs, rfl⟩

/-- The row of a requested exclusion. -/
def exclusionRow (sessionId actorId : UUID) (x : CloseExclusionRequest) : SnapshotExclusion :=
  ⟨sessionId, x.revisionId, x.reason, actorId⟩

/-- **The exclusions of a close.** The loop returns exactly when every reason fits and no pair of
session and revision is there already. -/
theorem foldlM_insertExclusion_eq_ok {sessionId actorId : UUID}
    {exclusions : List CloseExclusionRequest} {t t' : List SnapshotExclusion} :
    exclusions.foldlM (insertExclusion sessionId actorId) t = .ok t' ↔
      (∀ x ∈ exclusions, 1 ≤ x.reason.length ∧ x.reason.length ≤ 1000) ∧
        Appendable exclusionsClash t (exclusions.map (exclusionRow sessionId actorId)) ∧
        t' = t ++ exclusions.map (exclusionRow sessionId actorId) := by
  induction exclusions generalizing t with
  | nil =>
    rw [List.foldlM_nil, pure_eq_ok, List.map_nil, List.append_nil, eq_comm, Appendable]
    simp
  | cons x exclusions ih =>
    rw [List.foldlM_cons, bind_eq_ok, List.map_cons, appendable_cons, List.forall_mem_cons]
    simp only [insertExclusion, require_bind_eq_ok, insertUnique_eq_ok, ih]
    constructor
    · rintro ⟨_, ⟨hlength, hrow, rfl⟩, hlengths, hrest, rfl⟩
      exact ⟨⟨hlength, hlengths⟩, ⟨hrow, hrest⟩, by rw [List.append_assoc]; rfl⟩
    · rintro ⟨⟨hlength, hlengths⟩, ⟨hrow, hrest⟩, rfl⟩
      exact ⟨_, ⟨hlength, hrow, rfl⟩, hlengths, hrest, by rw [List.append_assoc]; rfl⟩

/-- The database that a close of an open session leaves. -/
def closedDatabase (session : TalkSession) (request : CloseRequest) (draws : CloseDraws)
    (included : List CurrentRevision) (schema : String) (createdAt : Timestamp) (db : Database) :
    Database :=
  let snapshot := closeSnapshot session request draws schema
  let closed := stateChange ⟨.closed, EventIdentity.closed_mem⟩ (some request.actorId) session
    (session.stateVersion + 1)
  let processing := stateChange ⟨.processing, EventIdentity.processing_mem⟩ (some request.actorId) session
    (session.stateVersion + 2)
  { db with
    jobs := db.jobs ++ laneJobs draws snapshot createdAt canonicalGenerationKinds
    other := { db.other with
      talkSessions := setSession session.id
        (processingSession (session.generationEpoch + 1) ∘ closedSession) db.other.talkSessions
      snapshotExclusions := db.other.snapshotExclusions ++
        request.exclusions.map (exclusionRow session.id request.actorId)
      generationSnapshots := db.other.generationSnapshots ++ [snapshot]
      snapshotRevisions := db.other.snapshotRevisions ++ snapshotPins snapshot.id included
      generationRuns := db.other.generationRuns ++ laneRuns draws snapshot canonicalGenerationKinds
      activity := { db.other.activity with
        auditEvents := appendEvent processing (appendEvent closed (auditLog db)) } } }

/-- What a close of an open session goes through before it writes. -/
structure ClosePlan (session : TalkSession) (request : CloseRequest)
    (exclusions : List CloseExclusion) (statuses : List RevisionStatus)
    (decision : CloseEligibility) (schema : String) (draws : CloseDraws) (createdAt : Timestamp)
    (db : Database) : Prop where
  current : revisionStatuses (currentRevisions db session.id) = .ok statuses
  eligible : requireCloseEligibility statuses exclusions = .ok decision
  reasons : ∀ x ∈ request.exclusions, 1 ≤ x.reason.length ∧ x.reason.length ≤ 1000
  excluded : Appendable exclusionsClash db.other.snapshotExclusions
    (request.exclusions.map (exclusionRow session.id request.actorId))
  anchored : requireAnchorSchemas (currentRevisions db session.id) = .ok ⟨⟩
  pinned : pinnedAnchorSchema (includedRevisions (currentRevisions db session.id) decision)
    request.anchorSchemaVersion = .ok schema
  free : GenerationFree draws (closeSnapshot session request draws schema)
    (includedRevisions (currentRevisions db session.id) decision) createdAt db

/-- **Closing an open session** returns exactly when its plan holds, and leaves the database that
the plan describes. -/
theorem closeOpen_eq_ok (hids : UniqueSessions db) {session : TalkSession}
    (hmem : session ∈ db.other.talkSessions) (hopen : session.state = .open)
    {request : CloseRequest} {exclusions : List CloseExclusion} {draws : CloseDraws}
    {createdAt : Timestamp} {snapshot : ClosedSnapshot} :
    closeOpen session request exclusions draws createdAt db = .ok (snapshot, db') ↔
      ∃ statuses decision schema,
        ClosePlan session request exclusions statuses decision schema draws createdAt db ∧
        snapshot = ⟨draws.snapshotId, session.generationEpoch + 1, .processing, false⟩ ∧
        db' = closedDatabase session request draws
          (includedRevisions (currentRevisions db session.id) decision) schema createdAt db := by
  -- The second update finds the row that the first one wrote.
  have hclosed : ∀ d : Database,
      d.other.talkSessions = setSession session.id closedSession db.other.talkSessions →
      UniqueSessions d ∧ closedSession session ∈ d.other.talkSessions := by
    intro d hd
    refine ⟨uniqueSessions_setSession hids hd fun _ ↦ rfl, ?_⟩
    rw [hd]
    exact mem_setSession hmem rfl
  have hrow : (closedSession session).id = session.id := rfl
  have htwice : setSession session.id (processingSession (session.generationEpoch + 1))
      (setSession session.id closedSession db.other.talkSessions) =
        setSession session.id (processingSession (session.generationEpoch + 1) ∘ closedSession)
          db.other.talkSessions := setSession_setSession fun _ ↦ rfl
  constructor
  · intro h
    simp only [closeOpen, bind_eq_ok] at h
    obtain ⟨statuses, hstatuses, decision, hdecision, excluded, hexcluded, _, hanchored, schema,
      hschema, ⟨closed, db₁⟩, hupdate, db₂, hrecord, db₃, hgenerate, ⟨processing, db₄⟩, hupdate',
      db₅, hrecord', hresult⟩ := h
    obtain ⟨hreasons, hfree, rfl⟩ := foldlM_insertExclusion_eq_ok.mp hexcluded
    obtain ⟨rfl, rfl⟩ :=
      (updateSession_locked (by exact hids) (by exact hmem) rfl hopen).mp hupdate
    rw [recordSession_nil] at hrecord
    cases hrecord
    obtain ⟨hgen, rfl⟩ := insertGeneration_eq_ok.mp hgenerate
    obtain ⟨rfl, rfl⟩ := (updateSession_locked (by exact (hclosed _ rfl).1)
      (by exact (hclosed _ rfl).2) hrow rfl).mp hupdate'
    rw [recordSession_nil] at hrecord'
    cases hrecord'
    cases hresult
    refine ⟨statuses, decision, schema, ⟨hstatuses, hdecision, hreasons, hfree, hanchored, hschema,
      hgen.newSnapshot, hgen.pins, hgen.runs, hgen.jobs⟩, rfl, ?_⟩
    rw [closedDatabase, ← htwice]
    rfl
  · rintro ⟨statuses, decision, schema, hplan, rfl, rfl⟩
    have hfree := hplan.free
    simp only [closeOpen, bind_eq_ok]
    refine ⟨statuses, hplan.current, decision, hplan.eligible, _,
      foldlM_insertExclusion_eq_ok.mpr ⟨hplan.reasons, hplan.excluded, rfl⟩, ⟨⟩, hplan.anchored,
      schema, hplan.pinned, (_, _),
      (updateSession_locked (by exact hids) (by exact hmem) rfl hopen).mpr ⟨rfl, rfl⟩, _,
      recordSession_nil _ _ _ _, _, insertGeneration_eq_ok.mpr
        ⟨⟨hfree.newSnapshot, hfree.pins, hfree.runs, hfree.jobs⟩, rfl⟩, (_, _),
      (updateSession_locked (by exact (hclosed _ rfl).1) (by exact (hclosed _ rfl).2) hrow
        rfl).mpr ⟨rfl, rfl⟩, _, recordSession_nil _ _ _ _, ?_⟩
    rw [closedDatabase, ← htwice]
    rfl

/-- An open session was closed. -/
structure Closed (session : TalkSession) (request : CloseRequest) (draws : CloseDraws)
    (included : List CurrentRevision) (schema : String) (createdAt : Timestamp)
    (db db' : Database) : Prop where
  mem : session ∈ db.other.talkSessions
  id : session.id = request.sessionId
  isOpen : session.state = .open
  free : GenerationFree draws (closeSnapshot session request draws schema) included createdAt db
  result : db' = closedDatabase session request draws included schema createdAt db

theorem Closed.sessions {session : TalkSession} {request : CloseRequest} {draws : CloseDraws}
    {included : List CurrentRevision} {schema : String} {createdAt : Timestamp}
    (h : Closed session request draws included schema createdAt db db') :
    db'.other.talkSessions = setSession session.id
      (processingSession (session.generationEpoch + 1) ∘ closedSession) db.other.talkSessions := by
  rw [h.result]
  rfl

/-- **A close** of a session that is not open leaves the database alone. -/
theorem close_eq_ok (hids : UniqueSessions db) {request : CloseRequest} {draws : CloseDraws}
    {createdAt : Timestamp} {snapshot : ClosedSnapshot}
    (h : close request draws createdAt db = .ok (snapshot, db')) :
    db' = db ∨ ∃ session included schema,
      Closed session request draws included schema createdAt db db' := by
  simp only [close, bind_eq_ok, requireHostedSession_eq_ok, lockSession_eq_some hids] at h
  obtain ⟨exclusions, -, session, ⟨⟨hmem, hid, -⟩, -⟩, hbody⟩ := h
  split at hbody
  · next hopen =>
    obtain ⟨statuses, decision, schema, hplan, -, hdb'⟩ :=
      (closeOpen_eq_ok hids hmem hopen).mp hbody
    exact Or.inr ⟨session, _, schema, hmem, hid, hopen, hplan.free, hdb'⟩
  · obtain ⟨existing, -, hresult⟩ := bind_eq_ok.mp hbody
    cases hresult
    exact Or.inl rfl

/-! ## Reopening -/

/-- An analyzed session was reopened. -/
structure Reopened (session : TalkSession) (actorId : UUID) (db db' : Database) : Prop where
  mem : session ∈ db.other.talkSessions
  analyzed : session.state ∈ [TalkSessionState.ready, .needsAttention]
  result : db' = withEvent
    (stateChange ⟨.reopened, by decide⟩ (some actorId) session (session.stateVersion + 1))
    { db with other := { db.other with
      talkSessions := setSession session.id reopenedSession db.other.talkSessions } }

theorem Reopened.sessions {session : TalkSession} {actorId : UUID}
    (h : Reopened session actorId db db') :
    db'.other.talkSessions = setSession session.id reopenedSession db.other.talkSessions := by
  rw [h.result]
  rfl

theorem reopen_eq_ok (hids : UniqueSessions db) {sessionId actorId : UUID}
    {state : TalkSessionState} (h : reopen sessionId actorId db = .ok (state, db')) :
    db' = db ∨ ∃ session, session.id = sessionId ∧ Reopened session actorId db db' := by
  simp only [reopen, bind_eq_ok, requireHostedSession_eq_ok, lockSession_eq_some hids] at h
  obtain ⟨session, ⟨⟨hmem, hid, -⟩, -⟩, hbody⟩ := h
  split at hbody
  · cases hbody
    exact Or.inl rfl
  · simp only [reopenAnalyzed, bind_eq_ok, require_eq_ok] at hbody
    obtain ⟨-, hanalyzed, ⟨reopened, db₁⟩, hupdate, db₂, hrecord, hresult⟩ := hbody
    obtain ⟨rfl, rfl⟩ := (updateSession_locked hids hmem rfl rfl).mp hupdate
    rw [recordSession_nil] at hrecord
    cases hrecord
    cases hresult
    exact Or.inr ⟨session, hid, hmem, hanalyzed, rfl⟩

/-! ## Retrying -/

theorem jobKind_injective {a b : GenerationKind} (h : a.jobKind = b.jobKind) : a = b := by
  cases a <;> cases b <;> first | rfl | exact nomatch h

/-- The failed jobs of some lanes. -/
def RetryableJobs (snapshotId : UUID) (kinds : List GenerationKind) (j : Job JobDocument) : Prop :=
  ∃ kind ∈ kinds, RetryableJob snapshotId kind j

/-- The failed runs of some lanes. -/
def RetryableRuns (snapshotId : UUID) (kinds : List GenerationKind) (r : GenerationRun) : Prop :=
  ∃ kind ∈ kinds, RetryableRun snapshotId kind r

instance (snapshotId : UUID) (kinds : List GenerationKind) :
    DecidablePred (RetryableJobs snapshotId kinds) :=
  fun j ↦ inferInstanceAs (Decidable (∃ kind ∈ kinds, RetryableJob snapshotId kind j))

instance (snapshotId : UUID) (kinds : List GenerationKind) :
    DecidablePred (RetryableRuns snapshotId kinds) :=
  fun r ↦ inferInstanceAs (Decidable (∃ kind ∈ kinds, RetryableRun snapshotId kind r))

/-- One job and one run of a lane are there to be put back. -/
def LaneRetryable (db : Database) (snapshotId : UUID) (kind : GenerationKind) : Prop :=
  rowcount (RetryableJob snapshotId kind) db.jobs = 1 ∧
    rowcount (RetryableRun snapshotId kind) db.other.generationRuns = 1

/-- The database with the failed lanes of some kinds put back. -/
def requeuedLanes (snapshotId : UUID) (kinds : List GenerationKind) (db : Database) : Database :=
  { db with
    jobs := updateWhere (RetryableJobs snapshotId kinds) requeuedJob db.jobs
    other := { db.other with
      generationRuns := updateWhere (RetryableRuns snapshotId kinds) requeuedRun
        db.other.generationRuns } }

section RequeueLane

variable {snapshotId : UUID} {kind : GenerationKind} {kinds : List GenerationKind}

theorem not_retryableJobs_requeued (j : Job JobDocument) :
    ¬RetryableJobs snapshotId kinds (requeuedJob j) :=
  fun ⟨_, _, hretry⟩ ↦ nomatch hretry.2.2.1

theorem not_retryableRuns_requeued (r : GenerationRun) :
    ¬RetryableRuns snapshotId kinds (requeuedRun r) :=
  fun ⟨_, _, hretry⟩ ↦ nomatch hretry.2.2

theorem requeueLane_eq_ok : requeueLane snapshotId db kind = .ok db' ↔
    LaneRetryable db snapshotId kind ∧ db' = requeuedLanes snapshotId [kind] db := by
  have hjobs : updateWhere (RetryableJobs snapshotId [kind]) requeuedJob db.jobs =
      updateWhere (RetryableJob snapshotId kind) requeuedJob db.jobs :=
    updateWhere_congr fun j _ ↦ by simp [RetryableJobs]
  have hruns : updateWhere (RetryableRuns snapshotId [kind]) requeuedRun db.other.generationRuns =
      updateWhere (RetryableRun snapshotId kind) requeuedRun db.other.generationRuns :=
    updateWhere_congr fun r _ ↦ by simp [RetryableRuns]
  rw [requeueLane, require_bind_eq_ok, require_bind_eq_ok, Except.ok.injEq, LaneRetryable,
    requeuedLanes, hjobs, hruns, and_assoc, eq_comm (b := db')]

/-- Putting one lane back leaves the other lane as it was, and its own no longer failed. -/
theorem laneRetryable_requeued {other : GenerationKind} :
    LaneRetryable (requeuedLanes snapshotId [kind] db) snapshotId other ↔
      other ≠ kind ∧ LaneRetryable db snapshotId other := by
  by_cases heq : other = kind
  · subst heq
    have hnone : rowcount (RetryableJob snapshotId other)
        (requeuedLanes snapshotId [other] db).jobs = 0 := by
      refine rowcount_eq_zero.mpr fun j hj hretry ↦ ?_
      rcases mem_updateWhere.mp hj with ⟨j₀, -, -, rfl⟩ | ⟨-, hnot⟩
      · cases hretry.2.2.1
      · exact hnot ⟨other, List.mem_singleton_self other, hretry⟩
    rw [LaneRetryable, hnone]
    simp
  · have hjobs : ∀ j, RetryableJobs snapshotId [kind] j →
        ¬RetryableJob snapshotId other j ∧ ¬RetryableJob snapshotId other (requeuedJob j) := by
      rintro j ⟨k, hk, hretry⟩
      rw [List.mem_singleton.mp hk] at hretry
      exact ⟨fun h ↦ heq (jobKind_injective (h.2.1.symm.trans hretry.2.1)), (by intro h; cases h.2.2.1)⟩
    have hruns : ∀ r, RetryableRuns snapshotId [kind] r →
        ¬RetryableRun snapshotId other r ∧ ¬RetryableRun snapshotId other (requeuedRun r) := by
      rintro r ⟨k, hk, hretry⟩
      rw [List.mem_singleton.mp hk] at hretry
      exact ⟨fun h ↦ heq (h.2.1.symm.trans hretry.2.1), (by intro h; cases h.2.2)⟩
    rw [LaneRetryable, LaneRetryable, requeuedLanes, rowcount_updateWhere_of_disjoint hjobs,
      rowcount_updateWhere_of_disjoint hruns, and_iff_right heq]

theorem requeuedLanes_cons :
    requeuedLanes snapshotId kinds (requeuedLanes snapshotId [kind] db) =
      requeuedLanes snapshotId (kind :: kinds) db := by
  have hjobs : updateWhere (RetryableJobs snapshotId kinds) requeuedJob
      (updateWhere (RetryableJobs snapshotId [kind]) requeuedJob db.jobs) =
        updateWhere (RetryableJobs snapshotId (kind :: kinds)) requeuedJob db.jobs := by
    rw [updateWhere_updateWhere_of_disjoint fun j _ ↦ not_retryableJobs_requeued j]
    exact updateWhere_congr fun j _ ↦ by simp [RetryableJobs]
  have hruns : updateWhere (RetryableRuns snapshotId kinds) requeuedRun
      (updateWhere (RetryableRuns snapshotId [kind]) requeuedRun db.other.generationRuns) =
        updateWhere (RetryableRuns snapshotId (kind :: kinds)) requeuedRun
          db.other.generationRuns := by
    rw [updateWhere_updateWhere_of_disjoint fun r _ ↦ not_retryableRuns_requeued r]
    exact updateWhere_congr fun r _ ↦ by simp [RetryableRuns]
  simp only [requeuedLanes, hjobs, hruns]

/-- **The lanes of a retry.** The loop returns exactly when the kinds are distinct and each has one
failed job and one failed run, and then puts back exactly those. -/
theorem foldlM_requeueLane_eq_ok : kinds.foldlM (requeueLane snapshotId) db = .ok db' ↔
    kinds.Nodup ∧ (∀ kind ∈ kinds, LaneRetryable db snapshotId kind) ∧
      db' = requeuedLanes snapshotId kinds db := by
  induction kinds generalizing db with
  | nil =>
    have hnone : requeuedLanes snapshotId [] db = db := by
      rw [requeuedLanes, updateWhere_eq_self fun j _ ⟨_, hk, _⟩ ↦ List.not_mem_nil hk,
        updateWhere_eq_self fun r _ ⟨_, hk, _⟩ ↦ List.not_mem_nil hk]
    rw [List.foldlM_nil, pure_eq_ok, hnone, eq_comm]
    simp
  | cons kind kinds ih =>
    simp only [List.foldlM_cons, bind_eq_ok, requeueLane_eq_ok, List.nodup_cons,
      List.forall_mem_cons]
    constructor
    · rintro ⟨_, ⟨hlane, rfl⟩, hrest⟩
      obtain ⟨hnodup, hlanes, rfl⟩ := ih.mp hrest
      refine ⟨⟨fun hmem ↦ ?_, hnodup⟩, ⟨hlane, fun k hk ↦ ?_⟩, requeuedLanes_cons⟩
      · exact (laneRetryable_requeued.mp (hlanes kind hmem)).1 rfl
      · exact (laneRetryable_requeued.mp (hlanes k hk)).2
    · rintro ⟨⟨hmem, hnodup⟩, ⟨hlane, hlanes⟩, rfl⟩
      refine ⟨_, ⟨hlane, rfl⟩, ih.mpr ⟨hnodup, fun k hk ↦ ?_, requeuedLanes_cons.symm⟩⟩
      exact laneRetryable_requeued.mpr ⟨fun heq ↦ hmem (heq ▸ hk), hlanes k hk⟩

end RequeueLane

theorem mem_retryableKinds {runs : List GenerationRun} {kind : GenerationKind} :
    kind ∈ retryableKinds runs ↔ ∃ r ∈ runs, r.state = .failedRetryable ∧ r.kind = kind := by
  simp [retryableKinds, and_assoc]

/-- The runs that a retry puts back are the failed runs of its snapshot, whatever their kind. -/
theorem retryableRuns_iff {snapshotId : UUID} {r : GenerationRun}
    (hr : r ∈ db.other.generationRuns) :
    RetryableRuns snapshotId (retryableKinds (runsOf db snapshotId)) r ↔
      r.snapshotId = snapshotId ∧ r.state = .failedRetryable := by
  constructor
  · rintro ⟨kind, -, hid, -, hstate⟩
    exact ⟨hid, hstate⟩
  · rintro ⟨hid, hstate⟩
    refine ⟨r.kind, mem_retryableKinds.mpr ⟨r, ?_, hstate, rfl⟩, hid, rfl, hstate⟩
    exact List.mem_filter.mpr ⟨hr, decide_eq_true hid⟩

/-- The database that a retry of failed lanes leaves. -/
def retriedDatabase (session : TalkSession) (snapshotId actorId : UUID) (db : Database) : Database :=
  let kinds := retryableKinds (runsOf db snapshotId)
  let requested : AuditEvent := ⟨.sessionRetryRequested session.id session.generationEpoch
    (session.retryOrdinal + 1), some actorId, some session.roomId, some session.id⟩
  let processing := stateChange ⟨.processing, EventIdentity.processing_mem⟩ (some actorId) session
    (session.stateVersion + 1)
  withEvent processing (withEvent requested
    { requeuedLanes snapshotId kinds db with
      other := { (requeuedLanes snapshotId kinds db).other with
        talkSessions := setSession session.id retriedSession db.other.talkSessions } })

theorem retryFailed_eq_ok (hids : UniqueSessions db) {session : TalkSession}
    (hmem : session ∈ db.other.talkSessions) {snapshotId actorId : UUID} {view : RetrySessionView} :
    retryFailed session snapshotId actorId db = .ok (view, db') ↔
      session.state = .needsAttention ∧ retryableKinds (runsOf db snapshotId) ≠ [] ∧
        (retryableKinds (runsOf db snapshotId)).Nodup ∧
        (∀ kind ∈ retryableKinds (runsOf db snapshotId), LaneRetryable db snapshotId kind) ∧
        view = ⟨snapshotId, .processing, retryableKinds (runsOf db snapshotId)⟩ ∧
        db' = retriedDatabase session snapshotId actorId db := by
  constructor
  · intro h
    simp only [retryFailed, bind_eq_ok, require_eq_ok] at h
    obtain ⟨-, hstate, -, hkinds, db₁, hlanes, ⟨updated, db₂⟩, hupdate, db₃, hrecord, db₄, hrecord',
      hresult⟩ := h
    obtain ⟨hnodup, hretry, rfl⟩ := foldlM_requeueLane_eq_ok.mp hlanes
    obtain ⟨rfl, rfl⟩ :=
      (updateSession_locked (by exact hids) (by exact hmem) rfl hstate).mp hupdate
    rw [recordSession_nil] at hrecord hrecord'
    cases hrecord
    cases hrecord'
    cases hresult
    exact ⟨hstate, hkinds, hnodup, hretry, rfl, rfl⟩
  · rintro ⟨hstate, hkinds, hnodup, hretry, rfl, rfl⟩
    simp only [retryFailed, bind_eq_ok, require_eq_ok]
    exact ⟨⟨⟩, hstate, ⟨⟩, hkinds, _, foldlM_requeueLane_eq_ok.mpr ⟨hnodup, hretry, rfl⟩, (_, _),
      (updateSession_locked (by exact hids) (by exact hmem) rfl hstate).mpr ⟨rfl, rfl⟩, _,
      recordSession_nil _ _ _ _, _, recordSession_nil _ _ _ _, rfl⟩

/-- The failed lanes of a session were put back. -/
structure Retried (session : TalkSession) (snapshot : GenerationSnapshot) (actorId : UUID)
    (db db' : Database) : Prop where
  mem : session ∈ db.other.talkSessions
  attention : session.state = .needsAttention
  latest : latestSnapshot db session.id = some snapshot
  lanes : ∀ kind ∈ retryableKinds (runsOf db snapshot.id), LaneRetryable db snapshot.id kind
  nonempty : retryableKinds (runsOf db snapshot.id) ≠ []
  nodup : (retryableKinds (runsOf db snapshot.id)).Nodup
  result : db' = retriedDatabase session snapshot.id actorId db

theorem Retried.sessions {session : TalkSession} {snapshot : GenerationSnapshot} {actorId : UUID}
    (h : Retried session snapshot actorId db db') :
    db'.other.talkSessions = setSession session.id retriedSession db.other.talkSessions := by
  rw [h.result]
  rfl

theorem requireLatestSnapshot_eq_ok {sessionId : UUID} {snapshot : GenerationSnapshot} :
    requireLatestSnapshot db sessionId = .ok snapshot ↔
      latestSnapshot db sessionId = some snapshot := by
  rw [requireLatestSnapshot]
  split <;> simp [*]

theorem retry_eq_ok (hids : UniqueSessions db) {sessionId actorId : UUID} {view : RetrySessionView}
    (h : retry sessionId actorId db = .ok (view, db')) :
    db' = db ∨ ∃ session snapshot, session.id = sessionId ∧
      Retried session snapshot actorId db db' := by
  simp only [retry, bind_eq_ok, requireHostedSession_eq_ok, lockSession_eq_some hids,
    requireLatestSnapshot_eq_ok] at h
  obtain ⟨session, ⟨⟨hmem, rfl, -⟩, -⟩, snapshot, hlatest, hbody⟩ := h
  split at hbody
  · cases hbody
    exact Or.inl rfl
  · obtain ⟨hstate, hkinds, hnodup, hlanes, -, hdb'⟩ := (retryFailed_eq_ok hids hmem).mp hbody
    exact Or.inr ⟨session, snapshot, rfl, hmem, hstate, hlatest, hlanes, hkinds, hnodup, hdb'⟩

end MeetingRag
