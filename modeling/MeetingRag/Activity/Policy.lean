import MeetingRag.Domain.Models

/-!
# Event identities

Every durable activity has an event type and the identity of the change it records, and its unique
key is spelled from the two. The keyword arguments of `build_event_key` are fixed by the event type,
so an event together with its arguments is one constructor here, and the errors about an unsupported
type or a missing argument cannot arise.

The key is a text, and the ledger deduplicates on it. Every key is a join of fields that hold no
colon, so equal keys have equal fields; and the fields determine the event. Hence two different
changes never share a key.
-/

open Text

namespace MeetingRag

/-- The last part of an event type, `event_type.rsplit(".", 1)[1]`, where the key repeats it. -/
inductive EventState
  | requested | accepted | rejected | closed | processing | ready | needsAttention | reopened
  | created | revised | updated | deleted | failed
deriving DecidableEq, Repr

def EventState.value : EventState → String
  | requested => "requested"
  | accepted => "accepted"
  | rejected => "rejected"
  | closed => "closed"
  | processing => "processing"
  | ready => "ready"
  | needsAttention => "needs_attention"
  | reopened => "reopened"
  | created => "created"
  | revised => "revised"
  | updated => "updated"
  | deleted => "deleted"
  | failed => "failed"

/-- The states of one family of event types. -/
abbrev OneOf (states : List EventState) := {state : EventState // state ∈ states}

/-- A supported audit event with the identity its key is built from. -/
inductive EventIdentity
  | accountRegistered (userId : UUID)
  | profileUpdated (userId : UUID) (profileVersion : ℕ)
  | preferencesUpdated (userId : UUID) (preferencesVersion : ℕ)
  | friendship (state : OneOf [.requested, .accepted, .rejected])
      (friendshipId audienceUserId : UUID)
  | roomCreated (roomId : UUID)
  | roomMemberAdded (roomId userId : UUID)
  | roomMemberLeft (roomId userId : UUID)
  | sessionCreated (sessionId : UUID)
  | sessionArchived (sessionId : UUID)
  | sessionRetryRequested (sessionId : UUID) (generationEpoch retryOrdinal : ℕ)
  | session (state : OneOf [.closed, .processing, .ready, .needsAttention, .reopened])
      (sessionId : UUID) (stateVersion : ℕ)
  | submissionDeleted (submissionId : UUID)
  | submission (state : OneOf [.created, .revised]) (submissionId : UUID) (revisionNo : ℕ)
  | revisionRetryRequested (revisionId retryNonce : UUID)
  | revisionReconciled (state : OneOf [.ready, .failed]) (revisionId jobId : UUID)
  | revision (state : OneOf [.ready, .failed]) (revisionId jobAttemptId : UUID)
  | suggestionCreated (suggestionId : UUID)
  | suggestion (state : OneOf [.accepted, .rejected]) (suggestionId : UUID) (version : ℕ)
  | mergedDocumentSaved (sessionId snapshotId : UUID) (version : ℕ)
  | mergedDocumentVersionCreated (versionId : UUID)
  | comment (state : OneOf [.created, .updated, .deleted]) (commentId : UUID) (version : ℕ)
deriving DecidableEq, Repr

namespace EventIdentity

/-! The states with which other services record their events. -/

theorem closed_mem :
    EventState.closed ∈ [EventState.closed, .processing, .ready, .needsAttention, .reopened] := by
  decide

theorem processing_mem :
    EventState.processing ∈ [EventState.closed, .processing, .ready, .needsAttention, .reopened] := by
  decide

theorem ready_mem :
    EventState.ready ∈ [EventState.closed, .processing, .ready, .needsAttention, .reopened] := by
  decide

theorem needsAttention_mem :
    EventState.needsAttention ∈
      [EventState.closed, .processing, .ready, .needsAttention, .reopened] := by
  decide

theorem submissionCreated_mem : EventState.created ∈ [EventState.created, .revised] := by decide

theorem commentCreated_mem : EventState.created ∈ [EventState.created, .updated, .deleted] := by
  decide

theorem requested_mem : EventState.requested ∈ [EventState.requested, .accepted, .rejected] := by
  decide


/-- The event type of the ledger. -/
def eventType : EventIdentity → String
  | accountRegistered .. => "account.registered"
  | profileUpdated .. => "profile.updated"
  | preferencesUpdated .. => "notification_preferences.updated"
  | friendship state .. => "friendship." ++ state.1.value
  | roomCreated .. => "room.created"
  | roomMemberAdded .. => "room.member_added"
  | roomMemberLeft .. => "room.member_left"
  | sessionCreated .. => "session.created"
  | sessionArchived .. => "session.archived"
  | sessionRetryRequested .. => "session.retry_requested"
  | session state .. => "session." ++ state.1.value
  | submissionDeleted .. => "submission.deleted"
  | submission state .. => "submission." ++ state.1.value
  | revisionRetryRequested .. => "source_revision.retry_requested"
  | revisionReconciled state .. => "source_revision." ++ state.1.value
  | revision state .. => "source_revision." ++ state.1.value
  | suggestionCreated .. => "suggestion.created"
  | suggestion state .. => "suggestion." ++ state.1.value
  | mergedDocumentSaved .. => "merged_document.saved"
  | mergedDocumentVersionCreated .. => "merged_document.version_created"
  | comment state .. => "comment." ++ state.1.value

/-- The colon-separated fields of the event key. -/
def keyFields : EventIdentity → List String
  | accountRegistered u => ["account", u.str, "registered"]
  | profileUpdated u v => ["profile", u.str, "v" ++ decimal v]
  | preferencesUpdated u v => ["preferences", u.str, "v" ++ decimal v]
  | friendship state f u => ["friendship", f.str, state.1.value, "aud", u.str]
  | roomCreated r => ["room", r.str, "created"]
  | roomMemberAdded r u => ["room", r.str, "member", u.str, "added"]
  | roomMemberLeft r u => ["room", r.str, "member", u.str, "left"]
  | sessionCreated s => ["session", s.str, "created"]
  | sessionArchived s => ["session", s.str, "archived"]
  | sessionRetryRequested s epoch ordinal =>
    ["session", s.str, "epoch", decimal epoch, "retry", decimal ordinal]
  | session state s v => ["session", s.str, "state-v" ++ decimal v, state.1.value]
  | submissionDeleted s => ["submission", s.str, "deleted"]
  | submission state s no => ["submission", s.str, "revision", decimal no, state.1.value]
  | revisionRetryRequested r nonce => ["revision", r.str, "retry", nonce.str, "requested"]
  | revisionReconciled state r job => ["revision", r.str, "reconcile", job.str, state.1.value]
  | revision state r attempt => ["revision", r.str, "attempt", attempt.str, state.1.value]
  | suggestionCreated s => ["suggestion", s.str, "created"]
  | suggestion state s v => ["suggestion", s.str, "v" ++ decimal v, state.1.value]
  | mergedDocumentSaved s p v =>
    ["merged_document", s.str, "snapshot", p.str, "v" ++ decimal v, "saved"]
  | mergedDocumentVersionCreated v => ["merged_document_version", v.str, "created"]
  | comment state c v => ["comment", c.str, "v" ++ decimal v, state.1.value]

end EventIdentity

/-- `build_event_key`. -/
def buildEventKey (event : EventIdentity) : String := join ":" event.keyFields

/-! ## Keys determine events -/

/-- No colon occurs in the text. -/
def Colonless (s : String) : Prop := ':' ∉ s.toList

instance (s : String) : Decidable (Colonless s) := inferInstanceAs (Decidable (':' ∉ s.toList))

theorem colonless_str (u : UUID) : Colonless u.str := fun h ↦ (UUID.mem_str h).1 rfl

theorem colonless_decimal (n : ℕ) : Colonless (decimal n) := fun h ↦ mem_decimal h rfl

theorem colonless_append {s t : String} (hs : Colonless s) (ht : Colonless t) :
    Colonless (s ++ t) := by
  rw [Colonless, String.toList_append, List.mem_append]
  exact not_or.mpr ⟨hs, ht⟩

theorem EventState.colonless (s : EventState) : Colonless s.value := by cases s <;> decide

theorem EventState.value_inj {a b : EventState} : a.value = b.value ↔ a = b := by
  cases a <;> cases b <;> decide

theorem decimal_inj {m n : ℕ} : decimal m = decimal n ↔ m = n :=
  ⟨decimal_injective, congrArg decimal⟩

namespace EventIdentity

theorem keyFields_colonless (e : EventIdentity) : ∀ f ∈ e.keyFields, Colonless f := by
  have hv : ∀ n, Colonless ("v" ++ decimal n) :=
    fun n ↦ colonless_append (by decide) (colonless_decimal n)
  have hs : ∀ n, Colonless ("state-v" ++ decimal n) :=
    fun n ↦ colonless_append (by decide) (colonless_decimal n)
  cases e <;>
    simp +decide only [keyFields, List.forall_mem_cons, colonless_str, colonless_decimal, hv, hs,
      EventState.colonless, and_self]

theorem keyFields_ne_nil (e : EventIdentity) : e.keyFields ≠ [] := by
  cases e <;> exact List.cons_ne_nil _ _

/-- The fields determine the event: the families differ in a constant field or in length, and
within a family every argument is a field. -/
theorem keyFields_injective {a b : EventIdentity} (h : a.keyFields = b.keyFields) : a = b := by
  cases a <;> cases b <;>
    simp_all +decide [keyFields, UUID.str_inj, decimal_inj, EventState.value_inj,
      Subtype.ext_iff]

end EventIdentity

/-- **Two different changes never share an event key.** -/
theorem buildEventKey_injective {a b : EventIdentity} (h : buildEventKey a = buildEventKey b) :
    a = b :=
  EventIdentity.keyFields_injective (eq_of_join_eq (c := ':') a.keyFields_colonless
    b.keyFields_colonless a.keyFields_ne_nil b.keyFields_ne_nil h)

/-- A key the ledger deduplicates on, for a session that closed for the third time. -/
example : buildEventKey (.session ⟨.closed, by decide⟩ 7 11) =
    "session:00000000-0000-0000-0000-000000000007:state-v11:closed" := by
  decide +kernel

end MeetingRag
