import MeetingRag.Activity.Service
import MeetingRag.Library.Json
import MeetingRag.Session.Tables

/-!
# Comments, notifications and the ledger as tables

The rows that the activity screens read. A comment belongs to a session and is seen by the members of
the session's room, a notification belongs to one recipient, and a row of the ledger has a scope that
decides who sees it.
-/

open Outcome Py Table

namespace MeetingRag

/-- The exceptions of the comments, notifications and activity services. -/
inductive ActivityError
  | permission (message : String)
  | invalidCursor (message : String)
  | commentReplayConflict (message : String)
  | runtimeError (message : String)
  | raised (e : Exc)
  | activity (e : Error)
  | database (constraint : String)
deriving DecidableEq

/-- The values of `anchor_kind`. -/
inductive CommentAnchorKind
  | report | generatedSegment
deriving DecidableEq, Repr

def CommentAnchorKind.value : CommentAnchorKind → String
  | report => "report"
  | generatedSegment => "generated_segment"

/-- A row of `comments`. -/
structure CommentRow where
  id : UUID
  sessionId : UUID
  authorId : UUID
  clientRequestId : UUID
  requestFingerprint : Str
  version : ℕ
  body : Str
  anchorKind : Option CommentAnchorKind
  anchorId : Option UUID
  createdAt : Timestamp
  updatedAt : Timestamp
  deletedAt : Option Timestamp
deriving DecidableEq, Repr

/-- A row of `comment_mentions`. -/
structure CommentMention where
  commentId : UUID
  userId : UUID
deriving DecidableEq, Repr

/-- A row of `notifications` with the columns that a page is ordered by. -/
structure NotificationRow where
  id : UUID
  notification : Notification
  createdAt : Timestamp
  readAt : Option Timestamp
deriving DecidableEq, Repr

/-- The values of `scope_type`. -/
inductive ScopeType
  | personal | room | session
deriving DecidableEq, Repr

/-- A row of `audit_events` with its place in the ledger and its scope. -/
structure LedgerRow where
  id : UUID
  ledgerSequence : ℕ
  event : AuditEvent
  scopeType : ScopeType
  audienceUserId : Option UUID
  createdAt : Timestamp
deriving DecidableEq, Repr

/-- What is read of a row of `talk_sessions`. -/
structure SessionRoom where
  id : UUID
  roomId : UUID
deriving DecidableEq, Repr

/-- What is read of a row of `rooms`. -/
structure RoomOwner where
  id : UUID
  ownerId : UUID
deriving DecidableEq, Repr

/-- The rooms, their sessions and their members. -/
structure RoomTables where
  rooms : List RoomOwner
  talkSessions : List SessionRoom
  roomMemberships : List RoomMembership
deriving DecidableEq, Repr

/-- The membership row of a user who has not left the room. -/
def CurrentMember (roomId userId : UUID) (m : RoomMembership) : Prop :=
  m.roomId = roomId ∧ m.userId = userId ∧ m.left = false

instance instDecidableCurrentMember (roomId userId : UUID) (m : RoomMembership) :
    Decidable (CurrentMember roomId userId m) :=
  inferInstanceAs (Decidable (m.roomId = roomId ∧ m.userId = userId ∧ m.left = false))

structure SessionAccess where
  roomId : UUID
  roomOwnerId : UUID
  memberIds : List UUID
deriving DecidableEq, Repr

/-- `require_membership` -/
def requireMembership (db : RoomTables) (sessionId userId : UUID) :
    Except ActivityError SessionAccess := do
  let access := db.talkSessions.findSome? fun s ↦
    if s.id = sessionId then
      db.rooms.findSome? fun r ↦
        if r.id = s.roomId ∧ ∃ own ∈ db.roomMemberships, CurrentMember s.roomId userId own then
          some (s.roomId, r.ownerId)
        else none
    else none
  match access with
  | none => .error (.permission "session is unavailable")
  | some (roomId, ownerId) =>
    let members := db.roomMemberships.filter fun m ↦ m.roomId = roomId ∧ m.left = false
    .ok ⟨roomId, ownerId, (members.map (·.userId)).insertionSort fun a b ↦ a.toNat ≤ b.toNat⟩

end MeetingRag
