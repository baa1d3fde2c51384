import MeetingRag.Activity.Tables
import MeetingRag.Library.JsonText
import MeetingRag.Library.Lists
import MeetingRag.Library.Machine
import MeetingRag.Library.Regex
import MeetingRag.Library.Sha256

/-!
# Comments

A comment is created under a request id that its author chose, so a repeated request finds the comment
of the first one. It is changed under the version that the caller has read, and deleting it empties it
for good. Each change is recorded in the ledger in the same transaction, with notifications for the
members of the room.

A transaction is one step here. The unique key of a request makes the second of two creates wait for the
first, the lock of a comment makes two changes of it wait for each other, and the members that a
transaction has read cannot leave before it ends.
-/

open Lists Outcome Py Table

namespace MeetingRag

structure CommentMutation where
  id : UUID
  version : ℕ
  idempotent : Bool
deriving DecidableEq, Repr

/-- The state that the comments service works on. -/
structure CommentsState where
  rooms : RoomTables
  comments : List CommentRow
  commentMentions : List CommentMention
  activity : ActivityTables
  now : Timestamp
deriving DecidableEq

namespace Comments

/-! ## Checks -/

/-- `_body` -/
def body (value : Str) : Except ActivityError Str := do
  let normalized := strip value
  require ((1 ≤ normalized.length ∧ normalized.length ≤ 5000) ∧ 0 ∉ normalized)
    (.raised (.valueError "comment body is invalid"))
  .ok normalized

/-- `_anchor` -/
def anchor (kind : Option CommentAnchorKind) (anchorId : Option UUID) : Except ActivityError Unit :=
  require (kind.isNone = anchorId.isNone) (.raised (.valueError "comment anchor is invalid"))

/-- `_mentions` -/
def mentions (values : List UUID) (actorId : UUID) (access : SessionAccess) :
    Except ActivityError (List UUID) := do
  let mentions := firsts id (values.filter (· ≠ actorId))
  require (mentions.length ≤ 20)
    (.raised (.valueError "at most 20 explicit mentions are allowed"))
  require (∀ u ∈ mentions, u ∈ access.memberIds)
    (.permission "mentioned user is not a current member")
  .ok mentions

/-- A character as `json.dumps` writes it when the text must be ASCII. -/
def asciiEscaped (c : CodePoint) : Str :=
  let unit := fun n ↦ [92, 117, hexChar (n / 4096 % 16), hexChar (n / 256 % 16), hexChar (n / 16 % 16),
    hexChar (n % 16)]
  if c.val < 0x7F then escaped c
  else if c.val < 0x10000 then unit c.val
  else unit (0xD800 + (c.val - 0x10000) / 0x400) ++ unit (0xDC00 + (c.val - 0x10000) % 0x400)

/-- A token as `json.dumps` writes it when the text must be ASCII. -/
def asciiText : Token → Str
  | .string s => 34 :: s.flatMap asciiEscaped ++ [34]
  | t => tokenText t

/-- `_fingerprint` -/
def fingerprint (body : Str) (anchorKind : Option CommentAnchorKind) (anchorId : Option UUID)
    (mentions : List UUID) : Except ActivityError Str :=
  let payload : Json := .object (Json.obj [("body", .str body),
    ("anchor_kind", anchorKind.elim .null fun kind ↦ .str (lit kind.value)),
    ("anchor_id", anchorId.elim .null fun id ↦ .str (lit id.str)),
    ("mentions", .array ((Text.sorted (mentions.map (·.str))).map fun s ↦ .str (lit s)))])
  match tokens (sortKeys payload) with
  | .ok ts => .ok (sha256Hex (encodeUtf8 (ts.flatMap asciiText)))
  | .error e => .error (.raised e)

/-! ## Notifications -/

/-- `_mention_effect` -/
def mentionEffect (commentId : UUID) (recipients : List UUID) : NotificationEffect where
  recipientIds := recipients
  kind := "mention"
  resourceType := "comment"
  resourceId := commentId
  actionKind := "open_comment"
  title := "댓글에서 회원님을 언급했습니다"
  body := "새 댓글 멘션이 있습니다."
  templateKey := "comment_mention"
  dedupeKey := none

/-- The effect for the members that are not mentioned. -/
def commentEffect (commentId : UUID) (recipients : List UUID) : NotificationEffect where
  recipientIds := recipients
  kind := "comment"
  resourceType := "comment"
  resourceId := commentId
  actionKind := "open_comment"
  title := "새 댓글이 작성되었습니다"
  body := "새 댓글이 있습니다."
  templateKey := "comment_created"
  dedupeKey := none

/-- `plan_comment_recipients` -/
def planCommentRecipients (actorId : UUID) (memberIds mentionedUserIds : List UUID) :
    List UUID × List UUID :=
  let mentions := firsts id (mentionedUserIds.filter fun u ↦ u ≠ actorId ∧ u ∈ memberIds)
  (mentions, firsts id (memberIds.filter fun u ↦ u ≠ actorId ∧ u ∉ mentions))

/-- `_create_effects` -/
def createEffects (actorId commentId : UUID) (access : SessionAccess) (mentions : List UUID) :
    List NotificationEffect :=
  let plan := planCommentRecipients actorId access.memberIds mentions
  (if plan.1 = [] then [] else [mentionEffect commentId plan.1]) ++
    (if plan.2 = [] then [] else [commentEffect commentId plan.2])

/-- The event of a change to a comment. -/
def eventOf (state : OneOf [.created, .updated, .deleted]) (commentId : UUID) (version : ℕ)
    (actorId sessionId : UUID) (access : SessionAccess) : AuditEvent :=
  ⟨.comment state commentId version, some actorId, some access.roomId, some sessionId⟩

/-- `_record` -/
def recordChange (s : CommentsState) (state : OneOf [.created, .updated, .deleted]) (commentId : UUID)
    (version : ℕ) (actorId sessionId : UUID) (access : SessionAccess)
    (effects : List NotificationEffect) : Except ActivityError CommentsState :=
  match record (eventOf state commentId version actorId sessionId access) effects s.activity with
  | .ok activity => .ok { s with activity := activity }
  | .error e => .error (.activity e)

/-! ## The service -/

/-- A second row of one author and request. -/
def SameRequest (authorId clientRequestId : UUID) (c : CommentRow) : Prop :=
  c.authorId = authorId ∧ c.clientRequestId = clientRequestId

instance instDecidableSameRequest (authorId clientRequestId : UUID) (c : CommentRow) :
    Decidable (SameRequest authorId clientRequestId c) :=
  inferInstanceAs (Decidable (c.authorId = authorId ∧ c.clientRequestId = clientRequestId))

def mentionClash (a b : CommentMention) : Prop := a.commentId = b.commentId ∧ a.userId = b.userId

instance : DecidableRel mentionClash := fun a b ↦
  inferInstanceAs (Decidable (a.commentId = b.commentId ∧ a.userId = b.userId))

/-- `insert_mentions` -/
def insertMentions (s : CommentsState) (commentId : UUID) (mentionedUserIds : List UUID) :
    CommentsState :=
  let commentMentions := (firsts id mentionedUserIds).foldl
    (fun t u ↦ insertIgnore mentionClash ⟨commentId, u⟩ t) s.commentMentions
  { s with commentMentions := commentMentions }

/-- `create`, given the id of the comment. -/
def create (s : CommentsState) (sessionId authorId clientRequestId : UUID) (value : Str)
    (anchorKind : Option CommentAnchorKind) (anchorId : Option UUID) (mentionedUserIds : List UUID)
    (commentId : UUID) : Except ActivityError (CommentMutation × CommentsState) := do
  let normalized ← body value
  anchor anchorKind anchorId
  let access ← requireMembership s.rooms sessionId authorId
  let mentions ← mentions mentionedUserIds authorId access
  let fingerprint ← fingerprint normalized anchorKind anchorId mentions
  require (StorableText normalized) (.raised .unicodeEncodeError)
  match s.comments.find? (SameRequest authorId clientRequestId ·) with
  | some existing => do
    require (existing.sessionId = sessionId ∧ existing.requestFingerprint = fingerprint)
      (.commentReplayConflict "client request id was reused with different content")
    .ok (⟨existing.id, existing.version, true⟩, s)
  | none => do
    let row : CommentRow := ⟨commentId, sessionId, authorId, clientRequestId, fingerprint, 1, normalized,
      anchorKind, anchorId, s.now, s.now, none⟩
    let comments ← insertUnique (fun a b : CommentRow ↦ a.id = b.id) (fun _ ↦ .database "comments_pkey")
      row s.comments
    let inserted := insertMentions { s with comments := comments } commentId mentions
    let s' ← recordChange inserted ⟨.created, by decide⟩ commentId 1 authorId sessionId access
      (createEffects authorId commentId access mentions)
    .ok (⟨commentId, 1, false⟩, s')

/-- The comment of a session that a change is about, locked. -/
def commentOf (s : CommentsState) (sessionId commentId : UUID) : Option CommentRow :=
  s.comments.find? fun c ↦ c.id = commentId ∧ c.sessionId = sessionId

/-- `UPDATE comments SET …, version=version+1 WHERE id=%s` -/
def setComment (s : CommentsState) (commentId : UUID) (set : CommentRow → CommentRow) :
    CommentsState :=
  let comments := updateWhere (·.id = commentId)
    (fun c ↦ { set c with version := c.version + 1, updatedAt := s.now }) s.comments
  { s with comments := comments }

/-- The users that a comment mentions. -/
def mentionsOf (s : CommentsState) (commentId : UUID) : List UUID :=
  (s.commentMentions.filter (·.commentId = commentId)).map (·.userId)

/-- `update` -/
def update (s : CommentsState) (sessionId actorId commentId : UUID) (expectedVersion : ℕ) (value : Str)
    (anchorKind : Option CommentAnchorKind) (anchorId : Option UUID) (mentionedUserIds : List UUID) :
    Except ActivityError (CommentMutation × CommentsState) := do
  let normalized ← body value
  anchor anchorKind anchorId
  let access ← requireMembership s.rooms sessionId actorId
  let mentions ← mentions mentionedUserIds actorId access
  match commentOf s sessionId commentId with
  | none => .error (.permission "comment is unavailable")
  | some current => do
    require (current.authorId = actorId ∧ current.deletedAt = none)
      (.permission "comment is unavailable")
    require (current.version = expectedVersion) (.commentReplayConflict "stale comment version")
    if (current.body = normalized ∧ current.anchorKind = anchorKind ∧ current.anchorId = anchorId) ∧
        (∀ u ∈ mentionsOf s commentId, u ∈ mentions) ∧ ∀ u ∈ mentions, u ∈ mentionsOf s commentId then
      .ok (⟨commentId, expectedVersion, true⟩, s)
    else do
      require (StorableText normalized) (.raised .unicodeEncodeError)
      let s₁ := setComment s commentId fun c ↦
        { c with body := normalized, anchorKind := anchorKind, anchorId := anchorId }
      let kept := s₁.commentMentions.filter fun m ↦
        ¬(m.commentId = commentId ∧ m.userId ∈ mentionsOf s commentId ∧ m.userId ∉ mentions)
      let added := mentions.filter (· ∉ mentionsOf s commentId)
      let s₂ := insertMentions { s₁ with commentMentions := kept } commentId added
      let s' ← recordChange s₂ ⟨.updated, by decide⟩ commentId (current.version + 1) actorId sessionId
        access (if added = [] then [] else [mentionEffect commentId added])
      .ok (⟨commentId, current.version + 1, false⟩, s')

/-- `delete` -/
def delete (s : CommentsState) (sessionId actorId commentId : UUID) (expectedVersion : ℕ) :
    Except ActivityError (CommentMutation × CommentsState) := do
  let access ← requireMembership s.rooms sessionId actorId
  match commentOf s sessionId commentId with
  | none => .error (.permission "comment is unavailable")
  | some current => do
    require (actorId = current.authorId ∨ actorId = access.roomOwnerId)
      (.permission "comment is unavailable")
    require (current.version = expectedVersion) (.commentReplayConflict "stale comment version")
    if current.deletedAt ≠ none then .ok (⟨commentId, expectedVersion, true⟩, s)
    else do
      let s₁ := setComment s commentId fun c ↦ { c with body := [], deletedAt := some s.now }
      let s' ← recordChange s₁ ⟨.deleted, by decide⟩ commentId (current.version + 1) actorId sessionId
        access []
      .ok (⟨commentId, current.version + 1, false⟩, s')

end Comments

/-! ## Steps -/

inductive CommentInput
  | create (sessionId authorId clientRequestId : UUID) (value : Str)
      (anchorKind : Option CommentAnchorKind) (anchorId : Option UUID) (mentionedUserIds : List UUID)
      (commentId : UUID)
  | update (sessionId actorId commentId : UUID) (expectedVersion : ℕ) (value : Str)
      (anchorKind : Option CommentAnchorKind) (anchorId : Option UUID) (mentionedUserIds : List UUID)
  | delete (sessionId actorId commentId : UUID) (expectedVersion : ℕ)
  /-- Rooms, sessions or members change. -/
  | rooms (rooms : RoomTables)
  /-- Somebody's preferences change. -/
  | preferences (preferences : List NotificationPreference)
  /-- Another service records an event. -/
  | elsewhere (event : AuditEvent) (effects : List NotificationEffect)
  | advance (microseconds : ℕ)
deriving DecidableEq

/-- What a request answers, and nothing for the other inputs. -/
abbrev CommentReply := Except ActivityError (Option CommentMutation)

/-- A transaction that keeps the state when it fails. -/
def commentCall (s : CommentsState)
    (call : Except ActivityError (CommentMutation × CommentsState)) : CommentReply × CommentsState :=
  match call with
  | .ok (mutation, s') => (.ok (some mutation), s')
  | .error e => (.error e, s)

def commentStep (s : CommentsState) : CommentInput → CommentReply × CommentsState
  | .create sessionId authorId clientRequestId value anchorKind anchorId mentionedUserIds commentId =>
    commentCall s (Comments.create s sessionId authorId clientRequestId value anchorKind anchorId
      mentionedUserIds commentId)
  | .update sessionId actorId commentId expectedVersion value anchorKind anchorId mentionedUserIds =>
    commentCall s (Comments.update s sessionId actorId commentId expectedVersion value anchorKind anchorId
      mentionedUserIds)
  | .delete sessionId actorId commentId expectedVersion =>
    commentCall s (Comments.delete s sessionId actorId commentId expectedVersion)
  | .rooms rooms => (.ok none, { s with rooms := rooms })
  | .preferences preferences =>
    (.ok none, { s with activity := { s.activity with notificationPreferences := preferences } })
  | .elsewhere event effects =>
    match record event effects s.activity with
    | .ok activity => (.ok none, { s with activity := activity })
    | .error e => (.error (.activity e), s)
  | .advance microseconds => (.ok none, { s with now := s.now + microseconds })

/-- The event of a comment. -/
def IsCommentEvent (event : EventIdentity) : Prop :=
  ∃ state commentId version, event = .comment state commentId version

/-- Another service records no event of a comment and notifies under no key of one. -/
def CommentEnabled : CommentInput → Prop
  | .elsewhere event effects => ¬IsCommentEvent event.event ∧ ∀ effect ∈ effects,
    ∀ key, effect.dedupeKey = some key → ∀ comment, IsCommentEvent comment → key ≠ buildEventKey comment
  | _ => True

/-- The comments of every session, under any order of the requests. -/
def commentMachine : Machine CommentsState CommentInput CommentReply where
  enabled _ := CommentEnabled
  step := commentStep

/-- No comment yet, and nothing recorded. -/
def noComments (rooms : RoomTables) (preferences : List NotificationPreference) (now : Timestamp) :
    CommentsState :=
  ⟨rooms, [], [], ⟨[], preferences, [], []⟩, now⟩

end MeetingRag
