import MeetingRag.Generation.Suggestions
import MeetingRag.Generation.Worker
import MeetingRag.Library.Machine

/-!
# Runs of the system

The whole system as a machine over one database. Its inputs are the transactions that people and
workers commit: a host opens, closes, reopens or retries a session, a worker claims a job, extends
its lease, completes it or puts it back, and the rest of the application writes its own tables. Every
transaction is one step, so a list of inputs is an interleaving of any number of people and workers.

A worker presents a lease it was granted: the state remembers every claim that was ever returned,
and a heartbeat or a completion carries one of them, however late.
-/

open Outcome Table Text

namespace MeetingRag

/-! ## The rest of the application -/

/-- An event that is not about the state of a session. -/
def OtherActivity (e : AuditEvent) : Prop :=
  match e.event with
  | .session .. | .sessionRetryRequested .. => False
  | _ => True

instance : DecidablePred OtherActivity := fun e ↦ by
  unfold OtherActivity
  split <;> infer_instance

/-- Revision ids are a primary key, and every writer of extraction runs names an anchor schema. -/
structure SourcesValid (t : SourceTables) : Prop where
  revisionIds : (t.sourceRevisions.map (·.id)).Nodup
  anchorSchemas : ∀ run ∈ t.extractionRuns, ¬Blank run.anchorSchemaVersion

instance : DecidablePred SourcesValid := fun t ↦ decidable_of_iff
  ((t.sourceRevisions.map (·.id)).Nodup ∧ ∀ run ∈ t.extractionRuns, ¬Blank run.anchorSchemaVersion)
  ⟨fun h ↦ ⟨h.1, h.2⟩, fun h ↦ ⟨h.1, h.2⟩⟩

/-- A notification that is not about an analysis. -/
def OtherNotice (n : Notification) : Prop := n.kind ≠ "analysis_completed"

instance : DecidablePred OtherNotice :=
  fun n ↦ inferInstanceAs (Decidable (n.kind ≠ "analysis_completed"))

/-- What another part of the application leaves behind: memberships, submissions and extractions,
preferences, edited documents, and the events and notifications of all that. -/
structure OutsideWrites where
  sources : SourceTables
  notificationPreferences : List NotificationPreference
  mergedDocumentStates : List MergedDocumentState
  events : List AuditEvent
  notifications : List Notification
  valid : SourcesValid sources
  other : ∀ e ∈ events, OtherActivity e
  others : ∀ n ∈ notifications, OtherNotice n

def OutsideWrites.apply (w : OutsideWrites) (db : Database) : Database :=
  { db with other := { db.other with
    sources := w.sources
    mergedDocumentStates := w.mergedDocumentStates
    activity := { db.other.activity with
      notificationPreferences := w.notificationPreferences
      auditEvents := w.events.foldl (fun t e ↦ appendEvent e t) db.other.activity.auditEvents
      notifications := w.notifications.foldl
        (fun t n ↦ insertIgnore (fun a b ↦ noticeKey a = noticeKey b) n t)
        db.other.activity.notifications } } }

/-! ## Calls -/

/-- A transaction of the system. -/
inductive SystemCall
  | createTalkSession (sessionId actorId roomId : UUID) (topic : String)
  | close (request : CloseRequest) (draws : CloseDraws)
  | reopen (sessionId actorId : UUID)
  | retry (sessionId actorId : UUID)
  | claimNext (owner : String) (leaseSeconds : ℤ) (kinds : Option (List String))
      (leaseToken attemptId : UUID) (locked : List UUID)
  | heartbeat (claimed : ClaimedJob JobDocument) (leaseSeconds : ℤ)
  | completeLane (claimed : ClaimedJob JobDocument) (outcome : ProviderOutcome)
      (resultId reportJobId : UUID)
  | completeSuggestions (claimed : ClaimedJob JobDocument) (outcome : SuggestionOutcome)
      (resultId : UUID)
  | enqueueExtraction (jobId revisionId : UUID)
  | completeExtraction (claimed : ClaimedJob JobDocument) (targetState : JobState)
      (result : JobDocument) (errorCode : Option String) (writes : OutsideWrites) (resultId : UUID)
  /-- The requeue that a worker issues after a retryable failure. -/
  | requeue (claimed : ClaimedJob JobDocument)
  | elsewhere (writes : OutsideWrites)

/-- What a transaction returns. -/
inductive SystemReply
  | created (session : TalkSession)
  | closed (snapshot : ClosedSnapshot)
  | reopened (state : TalkSessionState)
  | retried (view : RetrySessionView)
  | claimed (claimed : Option (ClaimedJob JobDocument))
  | done
deriving DecidableEq

/-- A call together with the database instants it happens at. -/
structure SystemInput where
  clock : StatementClock
  call : SystemCall

/-- The database, the latest instant of its clock, and the leases that were granted. -/
structure SystemState where
  db : Database
  now : Timestamp
  issued : List (ClaimedJob JobDocument)

namespace SystemCall

/-- The lease a call presents, and the kinds of job its caller claims. -/
def presented : SystemCall → Option (ClaimedJob JobDocument × List JobKind)
  | heartbeat claimed _ => some (claimed, allowedKinds)
  | completeLane claimed .. => some (claimed, [.summary, .research])
  | completeSuggestions claimed .. => some (claimed, [.reportSuggestions])
  | completeExtraction claimed .. => some (claimed, [.extraction])
  | requeue claimed => some (claimed, allowedKinds)
  | createTalkSession .. | close .. | reopen .. | retry .. | claimNext .. | enqueueExtraction ..
  | elsewhere .. => none

/-- Each worker requeues in its own way. -/
def requeueBody (claimed : ClaimedJob JobDocument) (db : Database) :
    Except Error (Unit × Database) :=
  match claimed.kind with
  | .summary | .research => retryResearch claimed db
  | .reportSuggestions => retrySuggestions claimed db
  | .extraction => requeueRetryable claimed.id claimed.leaseGeneration db

/-- The transaction body of a call. -/
def body (clock : StatementClock) (db : Database) :
    SystemCall → Except Error (SystemReply × Database)
  | createTalkSession sessionId actorId roomId topic => do
    let (session, db) ← MeetingRag.createTalkSession sessionId actorId roomId topic db
    .ok (.created session, db)
  | close request draws => do
    let (snapshot, db) ← MeetingRag.close request draws clock.seen db
    .ok (.closed snapshot, db)
  | reopen sessionId actorId => do
    let (state, db) ← MeetingRag.reopen sessionId actorId db
    .ok (.reopened state, db)
  | retry sessionId actorId => do
    let (view, db) ← MeetingRag.retry sessionId actorId db
    .ok (.retried view, db)
  | claimNext owner leaseSeconds kinds leaseToken attemptId locked => do
    let (claimed, db) ←
      MeetingRag.claimNext owner leaseSeconds kinds leaseToken attemptId locked clock db
    .ok (.claimed claimed, db)
  | heartbeat claimed leaseSeconds => do
    let ((), db) ← MeetingRag.heartbeat claimed leaseSeconds clock db
    .ok (.done, db)
  | completeLane claimed outcome resultId reportJobId => do
    let ((), db) ← MeetingRag.completeLane claimed outcome resultId reportJobId clock db
    .ok (.done, db)
  | completeSuggestions claimed outcome resultId => do
    let ((), db) ← MeetingRag.completeSuggestions claimed outcome resultId clock db
    .ok (.done, db)
  | enqueueExtraction jobId revisionId => do
    let (_, db) ← enqueue jobId (extractionKey revisionId) JobKind.extraction.value
      (.extraction revisionId) none clock db
    .ok (.done, db)
  | completeExtraction claimed targetState result errorCode writes resultId => do
    let ((), db) ← completeWithEffects claimed targetState result errorCode
      (some fun db ↦ .ok (writes.apply db)) resultId clock db
    .ok (.done, db)
  | requeue claimed => do
    let ((), db) ← requeueBody claimed db
    .ok (.done, db)
  | elsewhere writes => .ok (.done, writes.apply db)

end SystemCall

/-- The leases granted so far. -/
def recordClaim (reply : Except Error SystemReply) (issued : List (ClaimedJob JobDocument)) :
    List (ClaimedJob JobDocument) :=
  match reply with
  | .ok (.claimed (some claimed)) => issued ++ [claimed]
  | _ => issued

/-- The system under its callers. -/
def systemMachine : Machine SystemState SystemInput (Except Error SystemReply) where
  enabled s i := s.now ≤ i.clock.seen ∧
    ∀ p ∈ i.call.presented, p.1 ∈ s.issued ∧ p.1.kind ∈ p.2
  step s i :=
    let r := transaction s.db (i.call.body i.clock s.db)
    (r.1, ⟨r.2, i.clock.written, recordClaim r.1 s.issued⟩)

instance (s : SystemState) (i : SystemInput) : Decidable (systemMachine.enabled s i) :=
  inferInstanceAs (Decidable (s.now ≤ i.clock.seen ∧
    ∀ p ∈ i.call.presented, p.1 ∈ s.issued ∧ p.1.kind ∈ p.2))

/-- The system before its first call. -/
def emptySystem (now : Timestamp) : SystemState := ⟨emptyStore emptyTables, now, []⟩

/-- What a step of the machine returned is what the body of its call returned. -/
theorem systemMachine_eq_ok {s : SystemState} {i : SystemInput} {reply : SystemReply} :
    (systemMachine.step s i).1 = .ok reply ↔
      i.call.body i.clock s.db = .ok (reply, (systemMachine.step s i).2.db) :=
  @transaction_fst_eq_ok _ _ _ s.db (i.call.body i.clock s.db) _

/-- A body that returns is committed. -/
theorem systemMachine_of_ok {s : SystemState} {i : SystemInput} {reply : SystemReply} {db : Database}
    (h : i.call.body i.clock s.db = .ok (reply, db)) :
    (systemMachine.step s i).1 = .ok reply ∧ (systemMachine.step s i).2.db = db := by
  have hcommit : transaction s.db (i.call.body i.clock s.db) = (.ok reply, db) := by
    rw [h, transaction_ok]
  exact ⟨congrArg Prod.fst hcommit, congrArg Prod.snd hcommit⟩

/-- A call that returns a lease has granted it. -/
theorem SystemCall.body_claimed {call : SystemCall} {clock : StatementClock} {db db' : Database}
    {claimed : ClaimedJob JobDocument}
    (h : call.body clock db = .ok (.claimed (some claimed), db')) :
    ∃ row leaseUntil, Granted row claimed clock.seen leaseUntil db db' := by
  cases call with
  | claimNext owner leaseSeconds kinds leaseToken attemptId locked =>
    obtain ⟨⟨result, db''⟩, hr, hdb'⟩ := bind_eq_ok.mp h
    cases hdb'
    rcases claimNext_step hr with ⟨hnone, -⟩ | ⟨row, c, hsome, hgrant⟩
    · exact nomatch hnone
    · cases hsome
      exact ⟨row, _, hgrant⟩
  | elsewhere writes => exact nomatch h
  | _ =>
    obtain ⟨r, -, hdb'⟩ := bind_eq_ok.mp h
    cases hdb'

/-- A call that raises leaves the database as it was. -/
theorem systemMachine_rollback {s : SystemState} {i : SystemInput} {e : Error}
    (h : (systemMachine.step s i).1 = .error e) : (systemMachine.step s i).2.db = s.db :=
  @transaction_rollback _ _ _ s.db (i.call.body i.clock s.db) _ h

end MeetingRag
