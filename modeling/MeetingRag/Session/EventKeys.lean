import MeetingRag.Activity.EventKeys
import MeetingRag.Session.Steps

/-!
# The event keys of a close and of a retry

A close and a retry record two events each. Their keys can be told beforehand from the counters of the
session.
-/

open Outcome Text

namespace MeetingRag

/-- `compound_session_event_keys`. -/
def compoundSessionEventKeys (operation : String) (sessionId : UUID)
    (generationEpoch stateVersion retryOrdinal : ℕ) : Except Error (String × String) :=
  if operation = "close" then
    .ok (join ":" ["session", sessionId.str, "state-v" ++ decimal (stateVersion + 1), "closed"],
      join ":" ["session", sessionId.str, "state-v" ++ decimal (stateVersion + 2), "processing"])
  else if operation = "retry" then
    .ok (join ":" ["session", sessionId.str, "epoch", decimal generationEpoch, "retry",
        decimal (retryOrdinal + 1)],
      join ":" ["session", sessionId.str, "state-v" ++ decimal (stateVersion + 1), "processing"])
  else .error (.valueError "operation must be close or retry")

/-- The ledger grows by two events under the given keys, in their order. -/
def RecordsKeys (keys : String × String) (db db' : Database) : Prop :=
  ∃ first second : AuditEvent,
    auditLog db' = appendEvent second (appendEvent first (auditLog db)) ∧
      first.event.call.eventKey = .ok keys.1 ∧ second.event.call.eventKey = .ok keys.2

/-- The keys of an operation, told from the counters of a session. -/
def sessionKeys (operation : String) (s : TalkSession) : Except Error (String × String) :=
  compoundSessionEventKeys operation s.id s.generationEpoch s.stateVersion s.retryOrdinal

variable {db db' : Database}

theorem close_recordsKeys (hids : UniqueSessions db) {request : CloseRequest} {draws : CloseDraws}
    {createdAt : Timestamp} {snapshot : ClosedSnapshot}
    (h : close request draws createdAt db = .ok (snapshot, db')) (hnew : snapshot.idempotent = false) :
    ∃ s ∈ db.other.talkSessions, s.id = request.sessionId ∧
      ∃ keys, sessionKeys "close" s = .ok keys ∧ RecordsKeys keys db db' := by
  simp only [close, bind_eq_ok, requireHostedSession_eq_ok, lockSession_eq_some hids] at h
  obtain ⟨exclusions, -, s, ⟨⟨hmem, hid, -⟩, -⟩, hbody⟩ := h
  split at hbody
  · next hopen =>
    obtain ⟨statuses, decision, schema, -, -, rfl⟩ := (closeOpen_eq_ok hids hmem hopen).mp hbody
    exact ⟨s, hmem, hid, _, rfl, _, _, rfl, EventIdentity.eventKey_call _,
      EventIdentity.eventKey_call _⟩
  · -- A session that is not open has its snapshot handed back.
    obtain ⟨existing, hexisting, hresult⟩ := bind_eq_ok.mp hbody
    cases hresult
    rw [existingSnapshotOrRaise] at hexisting
    obtain ⟨-, hexisting⟩ := require_bind_eq_ok.mp hexisting
    split at hexisting
    · exact nomatch hexisting
    · cases hexisting
      exact nomatch hnew

theorem retry_recordsKeys (hids : UniqueSessions db) {sessionId actorId : UUID} {view : RetrySessionView}
    (h : retry sessionId actorId db = .ok (view, db')) (hnew : view.requeuedKinds ≠ []) :
    ∃ s ∈ db.other.talkSessions, s.id = sessionId ∧
      ∃ keys, sessionKeys "retry" s = .ok keys ∧ RecordsKeys keys db db' := by
  simp only [retry, bind_eq_ok, requireHostedSession_eq_ok, lockSession_eq_some hids,
    requireLatestSnapshot_eq_ok] at h
  obtain ⟨s, ⟨⟨hmem, hid, -⟩, -⟩, snapshot, -, hbody⟩ := h
  split at hbody
  · cases hbody
    exact absurd rfl hnew
  · obtain ⟨-, -, -, -, -, rfl⟩ := (retryFailed_eq_ok hids hmem).mp hbody
    exact ⟨s, hmem, hid, _, rfl, _, _, rfl, EventIdentity.eventKey_call _,
      EventIdentity.eventKey_call _⟩

/-- **A key is built for one change only, and the keys of a close and of a retry are known from the
counters of the session.** -/
theorem eventKeys_identify_changes :
    (∀ (c d : EventCall) (k : String), c.eventKey = .ok k → d.eventKey = .ok k →
      c.eventType = d.eventType ∧ c.identityNames = d.identityNames ∧
        ∀ name ∈ c.identityNames, c.identity name = d.identity name) ∧
    (∀ (db db' : Database) (request : CloseRequest) (draws : CloseDraws) (createdAt : Timestamp)
      (snapshot : ClosedSnapshot), UniqueSessions db →
      close request draws createdAt db = .ok (snapshot, db') → snapshot.idempotent = false →
        ∃ s ∈ db.other.talkSessions, s.id = request.sessionId ∧
          ∃ keys, sessionKeys "close" s = .ok keys ∧ RecordsKeys keys db db') ∧
    ∀ (db db' : Database) (sessionId actorId : UUID) (view : RetrySessionView), UniqueSessions db →
      retry sessionId actorId db = .ok (view, db') → view.requeuedKinds ≠ [] →
        ∃ s ∈ db.other.talkSessions, s.id = sessionId ∧
          ∃ keys, sessionKeys "retry" s = .ok keys ∧ RecordsKeys keys db db' :=
  ⟨fun _ _ _ ↦ EventCall.eventKey_inj, fun _ _ _ _ _ _ hids ↦ close_recordsKeys hids,
    fun _ _ _ _ _ hids ↦ retry_recordsKeys hids⟩

end MeetingRag
