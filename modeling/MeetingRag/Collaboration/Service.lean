import MeetingRag.Activity.Service
import MeetingRag.Auth.Login

/-!
# Friends, rooms and their members

A user asks another for friendship and the other answers. A room is made with its owner as the host, and
the host admits accepted friends: there is no separate acceptance of an invitation, so one transaction
writes the invitation, already accepted, and the membership. A member may leave, the host may not.

Each operation is one transaction. Those about a room take the lock of the room, and those about a pair of
users the lock of the pair's row, whose unique index makes two requests of one pair wait for each other.
-/

open Outcome Py Table

namespace MeetingRag

/-! ## Rows and values -/

/-- The exceptions of the service, and what its statements may raise. -/
inductive CollaborationError
  | friendshipConflict (message : String)
  | friendshipState (message : String)
  | friendshipRequired (message : String)
  | userUnavailable (message : String)
  | access (message : String)
  | hostRequired (message : String)
  | collaboration (message : String)
  | runtimeError (message : String)
  | activity (e : Error)
  | raised (e : Exc)
  | database (constraint : String)
deriving DecidableEq

/-- The status of a friendship or of an invitation. -/
inductive RequestStatus
  | pending | accepted | rejected
deriving DecidableEq, Repr

inductive MemberRole
  | host | member
deriving DecidableEq, Repr

/-- A row of `friendships`. -/
structure Friendship where
  id : UUID
  requesterId : UUID
  addresseeId : UUID
  status : RequestStatus
  createdAt : Timestamp
  respondedAt : Option Timestamp
deriving DecidableEq, Repr

/-- A row of `rooms`. -/
structure Room where
  id : UUID
  ownerId : UUID
  name : Str
  createdAt : Timestamp
deriving DecidableEq, Repr

/-- A row of `room_memberships`. -/
structure Membership where
  roomId : UUID
  userId : UUID
  role : MemberRole
  createdAt : Timestamp
  leftAt : Option Timestamp
deriving DecidableEq, Repr

/-- A row of `room_invitations`. -/
structure Invitation where
  id : UUID
  roomId : UUID
  inviteeId : UUID
  inviterId : UUID
  status : RequestStatus
  createdAt : Timestamp
  respondedAt : Option Timestamp
deriving DecidableEq, Repr

structure CollaborationState where
  users : List UserRow
  friendships : List Friendship
  rooms : List Room
  roomMemberships : List Membership
  roomInvitations : List Invitation
  activity : ActivityTables
  now : Timestamp
deriving DecidableEq

structure FriendshipView where
  id : UUID
  requester : UserRecord
  addressee : UserRecord
  status : RequestStatus
  createdAt : Timestamp
deriving DecidableEq, Repr

structure RoomView where
  id : UUID
  name : Str
  ownerId : UUID
  role : MemberRole
deriving DecidableEq, Repr

structure RoomInvitationView where
  id : UUID
  roomId : UUID
  inviteeId : UUID
  status : RequestStatus
deriving DecidableEq, Repr

/-- The friendship is about these two users, in either direction. -/
def Friendship.IsPair (f : Friendship) (a b : UUID) : Prop :=
  (f.requesterId = a ∧ f.addresseeId = b) ∨ (f.requesterId = b ∧ f.addresseeId = a)

instance Friendship.instDecidableIsPair (f : Friendship) (a b : UUID) : Decidable (f.IsPair a b) :=
  inferInstanceAs (Decidable
    ((f.requesterId = a ∧ f.addresseeId = b) ∨ (f.requesterId = b ∧ f.addresseeId = a)))

namespace Collaboration

/-! ## Statements -/

/-- The unique keys of `friendships`. -/
def friendshipClash (a b : Friendship) : Prop := a.id = b.id ∨ a.IsPair b.requesterId b.addresseeId

instance : DecidableRel friendshipClash := fun a b ↦
  inferInstanceAs (Decidable (a.id = b.id ∨ a.IsPair b.requesterId b.addresseeId))

/-- `_friendship_pair_for_update` -/
def friendshipPairForUpdate (s : CollaborationState) (first second : UUID) : Option Friendship :=
  s.friendships.find? (·.IsPair first second)

/-- `_fetch_friendship_view` -/
def fetchFriendshipView (s : CollaborationState) (friendshipId : UUID) :
    Except CollaborationError FriendshipView := do
  let found := s.friendships.findSome? fun f ↦
    if f.id = friendshipId then do
      let requester ← s.users.find? (·.id = f.requesterId)
      let addressee ← s.users.find? (·.id = f.addresseeId)
      some (f, requester.record, addressee.record)
    else none
  match found with
  | none => .error (.runtimeError "friendship was not returned")
  | some (f, requester, addressee) => do
    require (requester.email ≠ []) (.runtimeError "persisted requester email must be non-empty text")
    require (requester.displayName ≠ [])
      (.runtimeError "persisted requester display name must be non-empty text")
    require (addressee.email ≠ []) (.runtimeError "persisted addressee email must be non-empty text")
    require (addressee.displayName ≠ [])
      (.runtimeError "persisted addressee display name must be non-empty text")
    .ok ⟨f.id, requester, addressee, f.status, f.createdAt⟩

/-- `_locked_room_membership` -/
def lockedRoomMembership (s : CollaborationState) (roomId actorId : UUID) : Option Membership :=
  if ∃ r ∈ s.rooms, r.id = roomId then
    s.roomMemberships.find? fun m ↦ m.roomId = roomId ∧ m.userId = actorId ∧ m.leftAt = none
  else none

/-- `ActivityService.record` in the caller's transaction. -/
def recordEvent (s : CollaborationState) (event : EventIdentity) (actorId : UUID) (roomId : Option UUID)
    (effects : List NotificationEffect) : Except CollaborationError CollaborationState :=
  match record ⟨event, some actorId, roomId, none⟩ effects s.activity with
  | .ok activity => .ok { s with activity := activity }
  | .error e => .error (.activity e)

/-- `_room_name` -/
def roomName (value : Str) : Except CollaborationError Str := do
  let normalized := strip value
  require ((1 ≤ normalized.length ∧ normalized.length ≤ 240) ∧ 0 ∉ normalized)
    (.collaboration "room name is invalid")
  .ok normalized

/-! ## Operations -/

/-- The notification about a request. -/
def friendRequestEffect (addresseeId friendshipId : UUID) : NotificationEffect where
  recipientIds := [addresseeId]
  kind := "friend_request"
  resourceType := "friend_request"
  resourceId := friendshipId
  actionKind := "respond_friend_request"
  title := "친구 요청"
  body := "새 친구 요청이 도착했습니다."
  templateKey := "friend_request"
  dedupeKey := none

/-- `create_friend_request`, given the id of the friendship. -/
def createFriendRequest (s : CollaborationState) (actorId addresseeId friendshipId : UUID) :
    Except CollaborationError (FriendshipView × CollaborationState) := do
  require (actorId ≠ addresseeId) (.friendshipConflict "cannot create a friendship with self")
  require (∃ u ∈ s.users, u.id = addresseeId) (.userUnavailable "user is unavailable")
  let row : Friendship := ⟨friendshipId, actorId, addresseeId, .pending, s.now, none⟩
  if ∃ f ∈ s.friendships, friendshipClash f row then
    match friendshipPairForUpdate s actorId addresseeId with
    | none => .error (.collaboration "friendship pair was not persisted")
    | some existing => do
      require (existing.requesterId = actorId ∧ existing.addresseeId = addresseeId)
        (.friendshipConflict "friendship already exists")
      let view ← fetchFriendshipView s existing.id
      .ok (view, s)
  else do
    require (∃ u ∈ s.users, u.id = actorId) (.database "friendships_requester_id_fkey")
    let s₁ := { s with friendships := s.friendships ++ [row] }
    let s₂ ← recordEvent s₁ (.friendship ⟨.requested, by decide⟩ friendshipId actorId) actorId none []
    let s₃ ← recordEvent s₂ (.friendship ⟨.requested, by decide⟩ friendshipId addresseeId) actorId none
      [friendRequestEffect addresseeId friendshipId]
    let view ← fetchFriendshipView s₃ friendshipId
    .ok (view, s₃)

/-- The event state of an answer. -/
def answerState (accept : Bool) : OneOf [.requested, .accepted, .rejected] :=
  if accept then ⟨.accepted, by decide⟩ else ⟨.rejected, by decide⟩

/-- `respond_to_friend_request` -/
def respondToFriendRequest (s : CollaborationState) (actorId friendshipId : UUID) (accept : Bool) :
    Except CollaborationError (FriendshipView × CollaborationState) := do
  let targetStatus := if accept then RequestStatus.accepted else .rejected
  match s.friendships.find? fun f ↦ f.id = friendshipId ∧ f.addresseeId = actorId with
  | none => .error (.access "friend request is unavailable")
  | some current =>
    if current.status = .pending then do
      let pending := fun f : Friendship ↦ f.id = friendshipId ∧ f.status = .pending
      require (rowcount pending s.friendships = 1) (.friendshipState "friend request changed while locked")
      let friendships := updateWhere pending
        (fun f ↦ { f with status := targetStatus, respondedAt := some s.now }) s.friendships
      let s₁ ← recordEvent { s with friendships := friendships }
        (.friendship (answerState accept) friendshipId current.requesterId) actorId none []
      let s₂ ← recordEvent s₁ (.friendship (answerState accept) friendshipId current.addresseeId) actorId
        none []
      let view ← fetchFriendshipView s₂ friendshipId
      .ok (view, s₂)
    else do
      require (current.status = targetStatus)
        (.friendshipState "friend request has already been answered")
      let view ← fetchFriendshipView s friendshipId
      .ok (view, s)

/-- The primary key of `room_memberships`. -/
def membershipClash (a b : Membership) : Prop := a.roomId = b.roomId ∧ a.userId = b.userId

instance : DecidableRel membershipClash := fun a b ↦
  inferInstanceAs (Decidable (a.roomId = b.roomId ∧ a.userId = b.userId))

/-- `create_room`, given the id of the room. -/
def createRoom (s : CollaborationState) (actorId : UUID) (name : Str) (roomId : UUID) :
    Except CollaborationError (RoomView × CollaborationState) := do
  let normalizedName ← roomName name
  require (StorableText normalizedName) (.raised .unicodeEncodeError)
  require (∃ u ∈ s.users, u.id = actorId) (.database "rooms_owner_id_fkey")
  let rooms ← insertUnique (fun a b : Room ↦ a.id = b.id) (fun _ ↦ .database "rooms_pkey")
    ⟨roomId, actorId, normalizedName, s.now⟩ s.rooms
  let roomMemberships ← insertUnique membershipClash (fun _ ↦ .database "room_memberships_pkey")
    ⟨roomId, actorId, .host, s.now, none⟩ s.roomMemberships
  let s' ← recordEvent { s with rooms := rooms, roomMemberships := roomMemberships }
    (.roomCreated roomId) actorId (some roomId) []
  .ok (⟨roomId, normalizedName, actorId, .host⟩, s')

/-- The notification about an admission. -/
def memberAddedEffect (inviteeId roomId : UUID) : NotificationEffect where
  recipientIds := [inviteeId]
  kind := "room_member_added"
  resourceType := "room"
  resourceId := roomId
  actionKind := "open_room"
  title := "프로젝트 초대"
  body := "프로젝트에 참여했습니다."
  templateKey := "room_member_added"
  dedupeKey := none

/-- The unique keys of `room_invitations`. -/
def invitationClash (a b : Invitation) : Prop :=
  a.id = b.id ∨ (a.roomId = b.roomId ∧ a.inviteeId = b.inviteeId)

instance : DecidableRel invitationClash := fun a b ↦
  inferInstanceAs (Decidable (a.id = b.id ∨ (a.roomId = b.roomId ∧ a.inviteeId = b.inviteeId)))

/-- The invitation that an admission leaves, written or found. -/
def admitInvitation (s : CollaborationState) (actorId roomId inviteeId invitationId : UUID)
    (prior : Option Invitation) : Except CollaborationError (Invitation × CollaborationState) :=
  match prior with
  | none => do
    let row : Invitation := ⟨invitationId, roomId, inviteeId, actorId, .accepted, s.now, some s.now⟩
    let roomInvitations ← insertUnique invitationClash (fun _ ↦ .database "room_invitations_key") row
      s.roomInvitations
    .ok (row, { s with roomInvitations := roomInvitations })
  | some prior =>
    if prior.status ≠ .accepted then
      let set := fun i : Invitation ↦
        { i with inviterId := actorId, status := .accepted, respondedAt := some s.now }
      .ok (set prior, { s with roomInvitations := updateWhere (·.id = prior.id) set s.roomInvitations })
    else .ok (prior, s)

/-- The membership that an admission leaves, written, restored or found. -/
def admitMembership (s : CollaborationState) (roomId inviteeId : UUID) (prior : Option Membership) :
    Except CollaborationError CollaborationState :=
  match prior with
  | none => do
    let roomMemberships ← insertUnique membershipClash (fun _ ↦ .database "room_memberships_pkey")
      ⟨roomId, inviteeId, .member, s.now, none⟩ s.roomMemberships
    .ok { s with roomMemberships := roomMemberships }
  | some prior =>
    if prior.leftAt ≠ none then
      -- `role` is kept: a host stays a host
      let roomMemberships := updateWhere (fun m ↦ m.roomId = roomId ∧ m.userId = inviteeId)
        (fun m ↦ { m with leftAt := none }) s.roomMemberships
      .ok { s with roomMemberships := roomMemberships }
    else .ok s

/-- `create_room_invitation`, given the id of the invitation. -/
def createRoomInvitation (s : CollaborationState) (actorId roomId inviteeId invitationId : UUID) :
    Except CollaborationError (RoomInvitationView × CollaborationState) := do
  require (actorId ≠ inviteeId) (.friendshipConflict "cannot invite self")
  match lockedRoomMembership s roomId actorId with
  | none => .error (.access "room is unavailable")
  | some membership => do
    require (membership.role = .host) (.hostRequired "room host role is required")
    require (∃ u ∈ s.users, u.id = inviteeId) (.userUnavailable "user is unavailable")
    require (∃ f ∈ friendshipPairForUpdate s actorId inviteeId, f.status = .accepted)
      (.friendshipRequired "only accepted friends may be invited")
    let priorInvitation := s.roomInvitations.find? fun i ↦ i.roomId = roomId ∧ i.inviteeId = inviteeId
    let priorMembership := s.roomMemberships.find? fun m ↦ m.roomId = roomId ∧ m.userId = inviteeId
    let accepted := ∃ i ∈ priorInvitation, i.status = .accepted
    let absent := ∀ m ∈ priorMembership, m.leftAt ≠ none
    require (¬(accepted ∧ absent)) (.friendshipConflict
      "departed room members cannot be readmitted by replaying an invitation")
    let (invitation, s₁) ← admitInvitation s actorId roomId inviteeId invitationId priorInvitation
    let s₂ ← admitMembership s₁ roomId inviteeId priorMembership
    let s₃ ← if ¬accepted ∨ absent then
        recordEvent s₂ (.roomMemberAdded roomId inviteeId) actorId (some roomId)
          [memberAddedEffect inviteeId roomId]
      else .ok s₂
    .ok (⟨invitation.id, invitation.roomId, invitation.inviteeId, invitation.status⟩, s₃)

/-- `leave_room` -/
def leaveRoom (s : CollaborationState) (actorId roomId : UUID) :
    Except CollaborationError (Unit × CollaborationState) := do
  match lockedRoomMembership s roomId actorId with
  | none => .error (.access "room is unavailable")
  | some membership => do
    require (membership.role ≠ .host) (.hostRequired "room host cannot leave")
    let roomMemberships := updateWhere
      (fun m ↦ m.roomId = roomId ∧ m.userId = actorId ∧ m.leftAt = none)
      (fun m ↦ { m with leftAt := some s.now }) s.roomMemberships
    let s' ← recordEvent { s with roomMemberships := roomMemberships } (.roomMemberLeft roomId actorId)
      actorId (some roomId) []
    .ok ((), s')

end Collaboration

/-! ## Steps -/

inductive CollaborationInput
  | createFriendRequest (actorId addresseeId friendshipId : UUID)
  | respondToFriendRequest (actorId friendshipId : UUID) (accept : Bool)
  | createRoom (actorId : UUID) (name : Str) (roomId : UUID)
  | createRoomInvitation (actorId roomId inviteeId invitationId : UUID)
  | leaveRoom (actorId roomId : UUID)
  /-- Users register or change. -/
  | users (users : List UserRow)
  | advance (microseconds : ℕ)
deriving DecidableEq, Repr

inductive CollaborationReply
  | done
  | friendship (view : FriendshipView)
  | room (view : RoomView)
  | invitation (view : RoomInvitationView)
deriving DecidableEq, Repr

/-- A transaction that keeps the state when it fails. -/
def collaborationCall {α : Type} (s : CollaborationState) (reply : α → CollaborationReply)
    (call : Except CollaborationError (α × CollaborationState)) :
    Except CollaborationError CollaborationReply × CollaborationState :=
  match call with
  | .ok (a, s') => (.ok (reply a), s')
  | .error e => (.error e, s)

def collaborationStep (s : CollaborationState) :
    CollaborationInput → Except CollaborationError CollaborationReply × CollaborationState
  | .createFriendRequest actorId addresseeId friendshipId =>
    collaborationCall s .friendship (Collaboration.createFriendRequest s actorId addresseeId friendshipId)
  | .respondToFriendRequest actorId friendshipId accept =>
    collaborationCall s .friendship (Collaboration.respondToFriendRequest s actorId friendshipId accept)
  | .createRoom actorId name roomId =>
    collaborationCall s .room (Collaboration.createRoom s actorId name roomId)
  | .createRoomInvitation actorId roomId inviteeId invitationId =>
    collaborationCall s .invitation
      (Collaboration.createRoomInvitation s actorId roomId inviteeId invitationId)
  | .leaveRoom actorId roomId =>
    collaborationCall s (fun _ ↦ .done) (Collaboration.leaveRoom s actorId roomId)
  | .users users => (.ok .done, { s with users := users })
  | .advance microseconds => (.ok .done, { s with now := s.now + microseconds })

/-- The service under any order of its operations, by any users. -/
def collaborationMachine :
    Machine CollaborationState CollaborationInput (Except CollaborationError CollaborationReply) where
  enabled _ _ := True
  step := collaborationStep

/-- Nobody and nothing yet. -/
def noRooms (preferences : List NotificationPreference) (now : Timestamp) : CollaborationState :=
  ⟨[], [], [], [], [], ⟨[], preferences, [], []⟩, now⟩

end MeetingRag
