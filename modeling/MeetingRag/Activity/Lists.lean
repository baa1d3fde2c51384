import Mathlib.Data.Prod.Lex
import MeetingRag.Activity.Pagination
import MeetingRag.Library.Pages

/-!
# The pages of comments, notifications and the ledger

Comments and notifications are listed by the time they were created, newest first, with the id to break
ties. The ledger is listed by its own sequence, which need not follow the times: a row carries the time
at which its transaction began, and gets its number when it is inserted.

Every cursor is checked against the rows that its reader may see, so a page after a cursor is a page of
the same list.
-/

open Outcome Py Pages

namespace MeetingRag

/-- The rows that are listed, with the unique columns that a page relies on. -/
structure ActivityRows where
  rooms : RoomTables
  comments : List CommentRow
  commentMentions : List CommentMention
  notifications : List NotificationRow
  auditEvents : List LedgerRow
  coverageStartedAt : Option Timestamp
  commentIds : (comments.map (·.id)).Nodup
  notificationIds : (notifications.map (·.id)).Nodup
  auditIds : (auditEvents.map (·.id)).Nodup
  sequences : (auditEvents.map (·.ledgerSequence)).Nodup

/-- How the driver and the standard library read and write values. -/
structure Reading where
  /-- The loader of `timestamptz`, in the time zone of the connection. -/
  load : Timestamp → Datetime
  other : OtherSpellings

/-- A row of the comment list, `c.*` with the mentioned users. -/
structure CommentItem where
  comment : CommentRow
  mentionedUserIds : List UUID
deriving DecidableEq, Repr

/-- A row of the notification list, `n.*` with the session of a comment. -/
structure NotificationItem where
  row : NotificationRow
  sessionId : Option UUID
deriving DecidableEq, Repr

/-- The columns that a list by time is ordered by. -/
structure TimeKey (β : Type) where
  createdAt : β → Timestamp
  id : β → UUID

/-- `(created_at, id)` -/
def TimeKey.key {β : Type} (columns : TimeKey β) (r : β) : ℤ ×ₗ ℕ :=
  toLex (columns.createdAt r, (columns.id r).toNat)

def commentColumns : TimeKey CommentItem := ⟨(·.comment.createdAt), (·.comment.id)⟩

def notificationColumns : TimeKey NotificationItem := ⟨(·.row.createdAt), (·.row.id)⟩

section TimePages

variable {β : Type} (reading : Reading) (columns : TimeKey β)

/-- The cursor of a row. -/
def timeCursor (r : β) : Str := encodeTimeCursor (reading.load (columns.createdAt r)) (columns.id r)

/-- A page of a list by time: the position that the cursor names is looked up among the rows first. -/
def timePage (message : String) (rows : List β) (pageCursor : Option Str) (limit : ℤ) :
    Except ActivityError (List β × Option Str) := do
  let anchor ← match pageCursor with
    | none | some [] => .ok none
    | some cursor => do
      let (createdAt, id) ← decodeTimeCursor reading.other cursor
      match rows.find? (columns.id · = id) with
      | none => .error (.permission message)
      | some owned => do
        require ((reading.load (columns.createdAt owned)).instant = createdAt.instant)
          (.permission message)
        .ok (some (toLex (createdAt.instant, id.toNat)))
  let fetched := (descending columns.key (below columns.key anchor rows)).take (bounded limit + 1)
  .ok (pageOf (timeCursor reading columns) limit fetched)

end TimePages

/-- The comments of a session, with their mentions. -/
def commentItems (db : ActivityRows) (sessionId : UUID) : List CommentItem :=
  (db.comments.filter (·.sessionId = sessionId)).map fun c ↦
    ⟨c, ((db.commentMentions.filter (·.commentId = c.id)).map (·.userId)).insertionSort
      fun a b ↦ a.toNat ≤ b.toNat⟩

/-- `CommentsRepository.list` -/
def listComments (reading : Reading) (db : ActivityRows) (sessionId requesterId : UUID)
    (pageCursor : Option Str) (limit : ℤ) : Except ActivityError (List CommentItem × Option Str) := do
  let _ ← requireMembership db.rooms sessionId requesterId
  timePage reading commentColumns "comment cursor is unavailable" (commentItems db sessionId)
    pageCursor limit

/-- The notifications of a recipient, with the session of each comment. -/
def notificationItems (db : ActivityRows) (recipientId : UUID) : List NotificationItem :=
  (db.notifications.filter (·.notification.recipientId = recipientId)).map fun n ↦
    ⟨n, if n.notification.resourceType = "comment" then
      (db.comments.find? (·.id = n.notification.resourceId)).map (·.sessionId) else none⟩

/-- `NotificationRepository.list_notifications`, with the number of unread ones. -/
def listNotifications (reading : Reading) (db : ActivityRows) (recipientId : UUID)
    (pageCursor : Option Str) (limit : ℤ) :
    Except ActivityError ((List NotificationItem × Option Str) × ℕ) := do
  let page ← timePage reading notificationColumns "notification cursor is unavailable"
    (notificationItems db recipientId) pageCursor limit
  .ok (page, db.notifications.countP fun n ↦
    n.notification.recipientId = recipientId ∧ n.readAt = none)

/-- The `scope` of a request for the ledger. -/
inductive AuditScope
  | all | personal | room | session
deriving DecidableEq, Repr

/-- `_authorized_predicate` -/
def authorizedPredicate (db : ActivityRows) (requesterId : UUID) (scope : AuditScope)
    (scopeId : Option UUID) : Except ActivityError (LedgerRow → Bool) :=
  let member := fun roomId : UUID ↦ db.rooms.roomMemberships.any (CurrentMember roomId requesterId ·)
  let personal := fun e : LedgerRow ↦ e.scopeType = .personal ∧ e.audienceUserId = some requesterId
  match scope, scopeId with
  | .all, some _ | .personal, some _ =>
    .error (.raised (.valueError "scope_id is forbidden for all/personal scope"))
  | .room, none | .session, none =>
    .error (.raised (.valueError "scope_id is required for room/session scope"))
  | .personal, none => .ok fun e ↦ personal e
  | .all, none => .ok fun e ↦ decide (personal e) ||
      decide (e.scopeType = .room ∨ e.scopeType = .session) && e.event.roomId.any member
  | .room, some id => do
    require (member id = true) (.permission "audit scope is unavailable")
    .ok fun e ↦ e.scopeType = .room ∧ e.event.roomId = some id ∧ member id = true
  | .session, some id => do
    let rooms := (db.rooms.talkSessions.filter (·.id = id)).map (·.roomId)
    require (rooms.any member = true) (.permission "audit scope is unavailable")
    .ok fun e ↦ e.scopeType = .session ∧ e.event.sessionId = some id ∧
      rooms.any (fun room ↦ decide (e.event.roomId = some room) && member room) = true

structure ActivityPage where
  items : List LedgerRow
  nextCursor : Option Str
  coverageStartedAt : Timestamp
deriving DecidableEq

/-- `list_authorized` -/
def listAuthorized (db : ActivityRows) (requesterId : UUID) (scope : AuditScope)
    (scopeId : Option UUID) (pageCursor : Option Str) (limit : ℤ) :
    Except ActivityError ActivityPage := do
  let predicate ← authorizedPredicate db requesterId scope scopeId
  let rows := db.auditEvents.filter predicate
  let anchor ← match pageCursor with
    | none => .ok none
    | some cursor => do
      let anchorId ← decodeEventCursor cursor
      match rows.find? (·.id = anchorId) with
      | none => .error (.permission "audit cursor is unavailable")
      | some anchor => .ok (some anchor.ledgerSequence)
  let fetched := (descending LedgerRow.ledgerSequence
    (below LedgerRow.ledgerSequence anchor rows)).take (bounded limit + 1)
  let (visible, nextCursor) := pageOf (fun e ↦ encodeEventCursor e.id) limit fetched
  match db.coverageStartedAt with
  | none => .error (.runtimeError "audit coverage marker is absent")
  | some coverage => .ok ⟨visible, nextCursor, coverage⟩

/-! ## Every page is a page of the same list -/

/-- The driver loads these times as they are. -/
def Reading.Exact (reading : Reading) (times : List Timestamp) : Prop :=
  ∀ t ∈ times, (reading.load t).instant = t

theorem encodeTimeCursor_ne_nil (createdAt : Datetime) (id : UUID) : encodeTimeCursor createdAt id ≠ [] := by
  intro h
  have hdigits : Base64.digitsOf (encodeUtf8 (timePayload createdAt id)) = [] := List.map_eq_nil_iff.mp h
  have hbytes := Base64.bytesOf_digitsOf (encodeUtf8 (timePayload createdAt id))
  rw [hdigits] at hbytes
  exact nomatch hbytes

section TimePages

variable {β : Type} {reading : Reading} {columns : TimeKey β} {rows : List β}

/-- Ids break the ties. -/
theorem TimeKey.keys_nodup (hnodup : (rows.map columns.id).Nodup) : (rows.map columns.key).Nodup := by
  refine List.pairwise_map.mpr ((List.pairwise_map.mp hnodup).imp fun hne hkey ↦ hne ?_)
  exact UUID.toNat_injective (Prod.mk.inj (toLex.injective hkey)).2

theorem timePage_eq {message : String} (hnodup : (rows.map columns.id).Nodup)
    (hexact : reading.Exact (rows.map columns.createdAt)) {cursor : Option Str} {rest : List β}
    {limit : ℤ} (h : LeftAfter (timeCursor reading columns) (descending columns.key rows) cursor rest) :
    timePage reading columns message rows cursor limit =
      .ok (pageOf (timeCursor reading columns) limit (rest.take (bounded limit + 1))) := by
  cases h with
  | start =>
    change Except.ok (pageOf _ limit ((descending columns.key (below columns.key none rows)).take _)) = _
    rw [descending_below_none]
  | @after done r rest h =>
    have hlisted : r ∈ descending columns.key rows := h ▸ List.mem_append_right _ List.mem_cons_self
    have hr : r ∈ rows := mem_descending.mp hlisted
    have hfound : rows.find? (columns.id · = columns.id r) = some r :=
      (Table.find?_eq_some_of_key hnodup fun _ ↦ of_decide_eq_true).mpr ⟨hr, decide_eq_true rfl⟩
    obtain ⟨c, cursor, hcursor⟩ := List.exists_cons_of_ne_nil
      (encodeTimeCursor_ne_nil (reading.load (columns.createdAt r)) (columns.id r))
    have hdecode := decodeTimeCursor_encodeTimeCursor reading.other
      (reading.load (columns.createdAt r)) (columns.id r)
    have hkey : toLex ((reading.load (columns.createdAt r)).instant, (columns.id r).toNat) =
        columns.key r := by
      rw [hexact _ (List.mem_map_of_mem hr)]
      rfl
    rw [timeCursor, hcursor] at *
    simp only [timePage, hdecode, ok_bind, hfound, require_of, hkey,
      descending_below (TimeKey.keys_nodup hnodup) h]

end TimePages

/-- The pages of a list, for any sequence of limits: together they are a part of the list in its order,
they are the whole list when the last cursor is missing, and it is missing once there were more pages
than rows. -/
def CompletePages {β : Type} (page : Option Str → ℤ → Except ActivityError (List β × Option Str))
    (all : List β) : Prop :=
  ∀ limits : List ℤ, ∃ items last, follow page limits none = .ok (items, last) ∧ items <+: all ∧
    (limits ≠ [] → last = none → items = all) ∧ (all.length < limits.length → last = none)

section Complete

variable {reading : Reading} {db : ActivityRows}

theorem commentItems_comments (sessionId : UUID) : (commentItems db sessionId).map (·.comment) =
    db.comments.filter (·.sessionId = sessionId) := by
  rw [commentItems, List.map_map]
  exact List.map_id _

theorem notificationItems_rows (recipientId : UUID) : (notificationItems db recipientId).map (·.row) =
    db.notifications.filter (·.notification.recipientId = recipientId) := by
  rw [notificationItems, List.map_map]
  exact List.map_id _

theorem commentItems_nodup (sessionId : UUID) :
    ((commentItems db sessionId).map commentColumns.id).Nodup := by
  have h : (commentItems db sessionId).map commentColumns.id =
      ((commentItems db sessionId).map (·.comment)).map (·.id) := by
    rw [List.map_map]
    rfl
  rw [h, commentItems_comments]
  exact (List.filter_sublist.map _).nodup db.commentIds

theorem notificationItems_nodup (recipientId : UUID) :
    ((notificationItems db recipientId).map notificationColumns.id).Nodup := by
  have h : (notificationItems db recipientId).map notificationColumns.id =
      ((notificationItems db recipientId).map (·.row)).map (·.id) := by
    rw [List.map_map]
    rfl
  rw [h, notificationItems_rows]
  exact (List.filter_sublist.map _).nodup db.notificationIds

theorem listComments_complete {sessionId requesterId : UUID} {access : SessionAccess}
    (haccess : requireMembership db.rooms sessionId requesterId = .ok access)
    (hexact : reading.Exact (db.comments.map (·.createdAt))) :
    CompletePages (listComments reading db sessionId requesterId)
      (descending commentColumns.key (commentItems db sessionId)) := by
  intro limits
  refine follow_eq (fun cursor rest limit (hleft : LeftAfter (timeCursor reading commentColumns) _ _ _) ↦
    ?_) limits .start
  rw [listComments, haccess, ok_bind]
  refine timePage_eq (commentItems_nodup sessionId) ?_ hleft
  intro t ht
  obtain ⟨item, hitem, rfl⟩ := List.mem_map.mp ht
  obtain ⟨c, hc, rfl⟩ := List.mem_map.mp hitem
  exact hexact _ (List.mem_map_of_mem (List.mem_filter.mp hc).1)

theorem listNotifications_complete {recipientId : UUID}
    (hexact : reading.Exact (db.notifications.map (·.createdAt))) :
    CompletePages (fun cursor limit ↦ (listNotifications reading db recipientId cursor limit).map (·.1))
      (descending notificationColumns.key (notificationItems db recipientId)) := by
  intro limits
  refine follow_eq (fun cursor rest limit
    (hleft : LeftAfter (timeCursor reading notificationColumns) _ _ _) ↦ ?_) limits .start
  rw [listNotifications, timePage_eq (notificationItems_nodup recipientId) ?_ hleft]
  · rfl
  intro t ht
  obtain ⟨item, hitem, rfl⟩ := List.mem_map.mp ht
  obtain ⟨n, hn, rfl⟩ := List.mem_map.mp hitem
  exact hexact _ (List.mem_map_of_mem (List.mem_filter.mp hn).1)

theorem listAuthorized_complete {requesterId : UUID} {scope : AuditScope} {scopeId : Option UUID}
    {predicate : LedgerRow → Bool}
    (hpredicate : authorizedPredicate db requesterId scope scopeId = .ok predicate)
    (hcoverage : db.coverageStartedAt ≠ none) :
    CompletePages (fun cursor limit ↦ (listAuthorized db requesterId scope scopeId cursor limit).map
        fun page ↦ (page.items, page.nextCursor))
      (descending LedgerRow.ledgerSequence (db.auditEvents.filter predicate)) := by
  obtain ⟨coverage, hcoverage⟩ := Option.ne_none_iff_exists'.mp hcoverage
  intro limits
  refine follow_eq (fun cursor rest limit
    (hleft : LeftAfter (fun e : LedgerRow ↦ encodeEventCursor e.id) _ _ _) ↦ ?_) limits .start
  have hids : ((db.auditEvents.filter predicate).map (·.id)).Nodup :=
    (List.filter_sublist.map _).nodup db.auditIds
  have hsequences : ((db.auditEvents.filter predicate).map (·.ledgerSequence)).Nodup :=
    (List.filter_sublist.map _).nodup db.sequences
  cases hleft with
  | start =>
    simp only [listAuthorized, hpredicate, ok_bind, hcoverage, descending_below_none]
    rfl
  | @after done r rest h =>
    have hlisted : r ∈ descending LedgerRow.ledgerSequence (db.auditEvents.filter predicate) :=
      h ▸ List.mem_append_right _ List.mem_cons_self
    have hfound : (db.auditEvents.filter predicate).find? (·.id = r.id) = some r :=
      (Table.find?_eq_some_of_key hids fun _ ↦ of_decide_eq_true).mpr
        ⟨mem_descending.mp hlisted, decide_eq_true rfl⟩
    simp only [listAuthorized, hpredicate, ok_bind, hcoverage, decodeEventCursor_encodeEventCursor,
      hfound, descending_below hsequences h]
    rfl

end Complete

/-- **Complete pages.** For any rows and any sequence of limits, following the cursors of comments, of
notifications or of the ledger gives every visible row once: comments and notifications in strictly
descending order of time and id, the ledger in strictly descending order of its sequence. A cursor is
read as the position it was built from. -/
theorem pages_complete (reading : Reading) (db : ActivityRows) :
    (∀ sessionId requesterId access,
      requireMembership db.rooms sessionId requesterId = .ok access →
      reading.Exact (db.comments.map (·.createdAt)) →
        ∃ all : List CommentItem, all.Pairwise (fun a b ↦ commentColumns.key b < commentColumns.key a) ∧
          (all.map (·.comment)).Perm (db.comments.filter (·.sessionId = sessionId)) ∧
            CompletePages (listComments reading db sessionId requesterId) all) ∧
    (∀ recipientId, reading.Exact (db.notifications.map (·.createdAt)) →
      ∃ all : List NotificationItem,
        all.Pairwise (fun a b ↦ notificationColumns.key b < notificationColumns.key a) ∧
          (all.map (·.row)).Perm
            (db.notifications.filter (·.notification.recipientId = recipientId)) ∧
            CompletePages (fun cursor limit ↦
              (listNotifications reading db recipientId cursor limit).map (·.1)) all) ∧
    (∀ requesterId scope scopeId predicate,
      authorizedPredicate db requesterId scope scopeId = .ok predicate →
      db.coverageStartedAt ≠ none →
        ∃ all : List LedgerRow, all.Pairwise (fun a b ↦ b.ledgerSequence < a.ledgerSequence) ∧
          all.Perm (db.auditEvents.filter predicate) ∧
            CompletePages (fun cursor limit ↦
              (listAuthorized db requesterId scope scopeId cursor limit).map fun page ↦
                (page.items, page.nextCursor)) all) ∧
    (∀ createdAt id, decodeTimeCursor reading.other (encodeTimeCursor createdAt id) =
      .ok (createdAt, id)) ∧
    ∀ id, decodeEventCursor (encodeEventCursor id) = .ok id := by
  refine ⟨fun sessionId requesterId access haccess hexact ↦ ?_, fun recipientId hexact ↦ ?_,
    fun requesterId scope scopeId predicate hpredicate hcoverage ↦ ?_,
    decodeTimeCursor_encodeTimeCursor reading.other, decodeEventCursor_encodeEventCursor⟩
  · refine ⟨_, descending_pairwise (TimeKey.keys_nodup (commentItems_nodup sessionId)), ?_,
      listComments_complete haccess hexact⟩
    rw [← commentItems_comments]
    exact (descending_perm _).map _
  · refine ⟨_, descending_pairwise (TimeKey.keys_nodup (notificationItems_nodup recipientId)), ?_,
      listNotifications_complete hexact⟩
    rw [← notificationItems_rows]
    exact (descending_perm _).map _
  · exact ⟨_, descending_pairwise ((List.filter_sublist.map _).nodup db.sequences), descending_perm _,
      listAuthorized_complete hpredicate hcoverage⟩

/-- Two comments of one moment, and two events of one user: the transaction of the second began before
that of the first and inserted later. -/
def crossedRows : ActivityRows where
  rooms := ⟨[⟨1, 2⟩], [⟨3, 1⟩], [⟨1, 2, true, false⟩]⟩
  comments := [⟨10, 3, 2, 20, [], 1, lit "a", none, none, 0, 0, none⟩,
    ⟨11, 3, 2, 21, [], 1, lit "b", none, none, 0, 0, none⟩]
  commentMentions := []
  notifications := []
  auditEvents := [⟨30, 1, ⟨.profileUpdated 2 1, some 2, none, none⟩, .personal, some 2, 5⟩,
    ⟨31, 2, ⟨.profileUpdated 2 2, some 2, none, none⟩, .personal, some 2, 4⟩]
  coverageStartedAt := some 0
  commentIds := by decide
  notificationIds := by decide
  auditIds := by decide
  sequences := by decide

/-- The start of 1970 in UTC. -/
def epoch : Datetime := ⟨1970, 1, 1, 0, 0, 0, 0, 0, by decide, by decide, by decide⟩

theorem pages_complete_crossedRows :
    let reading : Reading := ⟨fun _ ↦ epoch, fun _ ↦ none, fun _ ↦ none, fun _ ↦ none, 1, one_pos⟩
    (∃ all : List CommentItem,
      all.Pairwise (fun a b ↦ commentColumns.key b < commentColumns.key a) ∧
        (all.map (·.comment)).Perm (crossedRows.comments.filter (·.sessionId = 3)) ∧
          CompletePages (listComments reading crossedRows 3 2) all) ∧
    ∃ all : List NotificationItem,
      all.Pairwise (fun a b ↦ notificationColumns.key b < notificationColumns.key a) ∧
        (all.map (·.row)).Perm
          (crossedRows.notifications.filter (·.notification.recipientId = 2)) ∧
          CompletePages (fun cursor limit ↦
            (listNotifications reading crossedRows 2 cursor limit).map (·.1)) all := by
  intro reading
  obtain ⟨hcomments, hnotifications, -⟩ := pages_complete reading crossedRows
  refine ⟨hcomments 3 2 ⟨1, 2, [2]⟩ (by decide) ?_, hnotifications 2 (List.forall_mem_nil _)⟩
  exact List.forall_mem_cons.mpr ⟨by decide, List.forall_mem_singleton.mpr (by decide)⟩

/-- The ledger does not follow the times. -/
theorem ledger_not_by_time :
    ¬∀ db requesterId scope scopeId limits items last,
      follow (fun cursor limit ↦ (listAuthorized db requesterId scope scopeId cursor limit).map
        fun page ↦ (page.items, page.nextCursor)) limits none = .ok (items, last) →
      items.Pairwise fun a b ↦
        toLex (b.createdAt, b.id.toNat) < toLex (a.createdAt, a.id.toNat) := by
  intro h
  have hordered := h crossedRows 2 .personal none [10] crossedRows.auditEvents.reverse none (by decide)
  exact absurd hordered (by decide)

end MeetingRag
