import MeetingRag.Activity.Comments

/-!
# Comments under any order of requests

Every comment has one row, one event and one set of notifications, however often its request is repeated
and whatever happens in between. The invariant ties the three together: each row has its event, each event
of a comment is about a version that the row has reached, and each notification under the key of a comment's
event has that event. So the event of a new version is new, and so are its notifications.
-/

open Lists Outcome Py Table

namespace MeetingRag

/-! ## What a recorded event notifies -/

section Notices

variable {e : AuditEvent} {effects : List NotificationEffect} {t t' : ActivityTables}

/-- The key of the notification that an event gives a user. -/
def noticeKeyOf (event : EventIdentity) (u : UUID) : UUID × String :=
  (u, channelDedupeKey (buildEventKey event) u .inApp)

theorem channelDedupeKey_injective {a b : String} {u : UUID} {channel : Channel}
    (h : channelDedupeKey a u channel = channelDedupeKey b u channel) : a = b := by
  have hchars := congrArg String.toList h
  simp only [channelDedupeKey, String.toList_append] at hchars
  exact String.toList_inj.mp (List.append_cancel_right (List.append_cancel_right
    (List.append_cancel_right (List.append_cancel_right hchars))))

/-- The keys after a loop of inserts that skip the keys that are there. -/
theorem mem_map_foldl_insertIgnore {α β κ : Type} {clash : α → α → Prop} [DecidableRel clash] {key : α → κ}
    {make : β → α} (hclash : ∀ a b, clash a b → key a = key b) {xs : List β} {rows : List α} {k : κ} :
    k ∈ (xs.foldl (fun rows x ↦ insertIgnore clash (make x) rows) rows).map key ↔
      k ∈ rows.map key ∨ ∃ x ∈ xs, k = key (make x) := by
  induction xs generalizing rows with
  | nil => simp
  | cons x xs ih =>
    have hone : k ∈ (insertIgnore clash (make x) rows).map key ↔ k ∈ rows.map key ∨ k = key (make x) := by
      rw [insertIgnore]
      split
      · next hskip =>
        obtain ⟨r, hr, hc⟩ := hskip
        refine ⟨Or.inl, fun h ↦ h.elim id fun hk ↦ ?_⟩
        rw [hk, ← hclash r _ hc]
        exact List.mem_map_of_mem hr
      · rw [List.map_append, List.mem_append, List.map_singleton, List.mem_singleton]
    rw [List.foldl_cons, ih, hone, or_assoc, List.exists_mem_cons_iff]

/-- The recipients of an effect in one channel. -/
def reached (preferences : List NotificationPreference) (effect : NotificationEffect) : List UUID :=
  channelRecipients .inApp (snapshotPreferences preferences effect.recipientIds effect.kind)

theorem applyEffect_eq_ok {actorId : Option UUID} {eventKey : String} {effect : NotificationEffect}
    (h : applyEffect actorId eventKey t effect = .ok t') :
    t'.notificationPreferences = t.notificationPreferences ∧
      ∀ k, k ∈ t'.notifications.map noticeKey ↔ k ∈ t.notifications.map noticeKey ∨
        ∃ u ∈ reached t.notificationPreferences effect,
          k = (u, channelDedupeKey (effect.dedupeKey.getD eventKey) u .inApp) := by
  obtain ⟨-, -, h⟩ := bind_eq_ok.mp h
  obtain ⟨-, h⟩ := require_bind_eq_ok.mp h
  cases h
  exact ⟨rfl, fun k ↦ mem_map_foldl_insertIgnore fun a b hclash ↦ Prod.ext hclash.1 hclash.2⟩

/-- **Whom a new event notifies.** -/
theorem record_keys (h : record e effects t = .ok t') (hfresh : ∀ r ∈ t.auditEvents, r.event ≠ e.event)
    {k : UUID × String} : k ∈ t'.notifications.map noticeKey ↔ k ∈ t.notifications.map noticeKey ∨
      ∃ effect ∈ effects, ∃ u ∈ reached t.notificationPreferences effect,
        k = (u, channelDedupeKey (effect.dedupeKey.getD e.eventKey) u .inApp) := by
  have hnew : ¬∃ r ∈ t.auditEvents, auditClash r e := by
    rintro ⟨r, hr, hclash⟩
    exact hfresh r hr (buildEventKey_injective hclash)
  rw [record, if_neg hnew] at h
  have hinvariant := foldlM_invariant
    (fun done a ↦ a.notificationPreferences = t.notificationPreferences ∧
      ∀ k, k ∈ a.notifications.map noticeKey ↔ k ∈ t.notifications.map noticeKey ∨
        ∃ effect ∈ done, ∃ u ∈ reached t.notificationPreferences effect,
          k = (u, channelDedupeKey (effect.dedupeKey.getD e.eventKey) u .inApp)) h ?_ ?_
  · exact hinvariant.2 k
  · exact ⟨rfl, fun k ↦ by simp⟩
  · intro done effect a a' ha happly
    obtain ⟨hpreferences, hkeys⟩ := applyEffect_eq_ok happly
    refine ⟨hpreferences.trans ha.1, fun k ↦ ?_⟩
    rw [hkeys, ha.2, ha.1, or_assoc]
    simp only [List.mem_append, List.mem_singleton, or_and_right, exists_or, exists_eq_left]

end Notices

/-! ## What the requests do -/

namespace Comments

variable {s s' : CommentsState} {m : CommentMutation}

/-- The event of a new comment. -/
def createdEvent (commentId : UUID) : EventIdentity :=
  .comment ⟨.created, EventIdentity.commentCreated_mem⟩ commentId 1

/-- The row of a request was there before. -/
structure Replayed (s : CommentsState) (authorId clientRequestId : UUID) (m : CommentMutation) : Prop where
  idempotent : m.idempotent = true
  row : ∃ c ∈ s.comments, SameRequest authorId clientRequestId c ∧ m.id = c.id ∧ m.version = c.version

/-- A comment was added. -/
structure Created (s s' : CommentsState) (sessionId authorId clientRequestId : UUID)
    (mentionedUserIds : List UUID) (m : CommentMutation) : Prop where
  reply : m.version = 1 ∧ m.idempotent = false
  access : ∃ access, requireMembership s.rooms sessionId authorId = .ok access ∧
    ∃ mentions, Comments.mentions mentionedUserIds authorId access = .ok mentions ∧ ∃ event,
      event.event = createdEvent m.id ∧
        record event (createEffects authorId m.id access mentions) s.activity = .ok s'.activity
  row : ∃ row, s'.comments = s.comments ++ [row] ∧ row.id = m.id ∧ row.version = 1 ∧
    SameRequest authorId clientRequestId row ∧ row.deletedAt = none
  freshRequest : ∀ c ∈ s.comments, ¬SameRequest authorId clientRequestId c
  freshId : ∀ c ∈ s.comments, c.id ≠ m.id

/-- A comment that was not deleted got its next version. -/
structure Changed (s s' : CommentsState) (current : CommentRow) : Prop where
  mem : current ∈ s.comments
  present : current.deletedAt = none
  rows : ∃ set : CommentRow → CommentRow, (∀ c, (set c).id = c.id ∧ (set c).version = c.version + 1 ∧
      (set c).authorId = c.authorId ∧ (set c).clientRequestId = c.clientRequestId) ∧
    s'.comments = updateWhere (·.id = current.id) set s.comments
  recorded : ∃ event effects, (∃ state, state.1 ≠ .created ∧
      event.event = .comment state current.id (current.version + 1)) ∧
    (∀ effect ∈ effects, effect.dedupeKey = none) ∧
      record event effects s.activity = .ok s'.activity

theorem recordChange_eq_ok {state : OneOf [.created, .updated, .deleted]} {commentId : UUID} {version : ℕ}
    {actorId sessionId : UUID} {access : SessionAccess} {effects : List NotificationEffect}
    (h : recordChange s state commentId version actorId sessionId access effects = .ok s') :
    record (eventOf state commentId version actorId sessionId access) effects s.activity =
      .ok s'.activity ∧ s'.comments = s.comments := by
  rw [recordChange] at h
  split at h
  · next activity hrecord =>
    cases h
    exact ⟨hrecord, rfl⟩
  · exact nomatch h

theorem create_eq_ok {sessionId authorId clientRequestId : UUID} {value : Str}
    {anchorKind : Option CommentAnchorKind} {anchorId : Option UUID} {mentionedUserIds : List UUID}
    {commentId : UUID}
    (h : create s sessionId authorId clientRequestId value anchorKind anchorId mentionedUserIds commentId =
      .ok (m, s')) :
    (Replayed s authorId clientRequestId m ∧ s' = s) ∨
      Created s s' sessionId authorId clientRequestId mentionedUserIds m := by
  obtain ⟨normalized, -, h⟩ := bind_eq_ok.mp h
  obtain ⟨-, -, h⟩ := bind_eq_ok.mp h
  obtain ⟨access, haccess, h⟩ := bind_eq_ok.mp h
  obtain ⟨mentions, hmentions, h⟩ := bind_eq_ok.mp h
  obtain ⟨fingerprint, -, h⟩ := bind_eq_ok.mp h
  obtain ⟨-, h⟩ := require_bind_eq_ok.mp h
  split at h
  · next existing hfound =>
    obtain ⟨-, h⟩ := require_bind_eq_ok.mp h
    obtain ⟨rfl, rfl⟩ := Prod.mk.inj (Except.ok.inj h)
    exact Or.inl ⟨⟨rfl, existing, List.mem_of_find?_eq_some hfound,
      of_decide_eq_true (List.find?_some hfound :), rfl, rfl⟩, rfl⟩
  · next hnone =>
    obtain ⟨comments, hcomments, h⟩ := bind_eq_ok.mp h
    obtain ⟨hfresh, rfl⟩ := insertUnique_eq_ok.mp hcomments
    obtain ⟨recorded, hrecord, h⟩ := bind_eq_ok.mp h
    obtain ⟨rfl, rfl⟩ := Prod.mk.inj (Except.ok.inj h)
    obtain ⟨hrecord, hcomments⟩ := recordChange_eq_ok hrecord
    refine Or.inr ⟨⟨rfl, rfl⟩, ⟨access, haccess, mentions, hmentions, _, rfl, hrecord⟩,
      ⟨_, hcomments, rfl, rfl, ⟨rfl, rfl⟩, rfl⟩, fun c hc hsame ↦ ?_, hfresh⟩
    exact absurd (decide_eq_true hsame) (List.find?_eq_none.mp hnone c hc)

/-- A change of the fields that no key is made of, recorded under the next version. -/
theorem changed_of_record {s₂ : CommentsState} {current : CommentRow} {f : CommentRow → CommentRow}
    {state : OneOf [.created, .updated, .deleted]} {actorId sessionId : UUID} {access : SessionAccess}
    {effects : List NotificationEffect} (hmem : current ∈ s.comments) (hpresent : current.deletedAt = none)
    (hset : ∀ c, (f c).id = c.id ∧ (f c).authorId = c.authorId ∧
      (f c).clientRequestId = c.clientRequestId)
    (hcomments : s₂.comments = (setComment s current.id f).comments) (hactivity : s₂.activity = s.activity)
    (hstate : state.1 ≠ .created) (heffects : ∀ effect ∈ effects, effect.dedupeKey = none)
    (h : recordChange s₂ state current.id (current.version + 1) actorId sessionId access effects =
      .ok s') : Changed s s' current := by
  obtain ⟨hrecord, hrows⟩ := recordChange_eq_ok h
  rw [hactivity] at hrecord
  exact ⟨hmem, hpresent, ⟨fun c ↦ { f c with version := c.version + 1, updatedAt := s.now },
    fun c ↦ ⟨(hset c).1, rfl, (hset c).2⟩, hrows.trans hcomments⟩, _, _,
    ⟨state, hstate, rfl⟩, heffects, hrecord⟩

theorem mem_of_commentOf {sessionId commentId : UUID} {current : CommentRow}
    (h : commentOf s sessionId commentId = some current) :
    current ∈ s.comments ∧ current.id = commentId :=
  ⟨List.mem_of_find?_eq_some h, (of_decide_eq_true (List.find?_some h :)).1⟩

/-- The reply to a change of a comment, and what became of the state. -/
structure Answered (s s' : CommentsState) (commentId : UUID) (expectedVersion : ℕ)
    (m : CommentMutation) : Prop where
  id : m.id = commentId
  current : ∃ current ∈ s.comments, current.id = commentId ∧ current.version = expectedVersion ∧
    ((m.idempotent = true ∧ m.version = expectedVersion ∧ s' = s) ∨
      (m.idempotent = false ∧ m.version = expectedVersion + 1 ∧ Changed s s' current))

theorem update_eq_ok {sessionId actorId commentId : UUID} {expectedVersion : ℕ} {value : Str}
    {anchorKind : Option CommentAnchorKind} {anchorId : Option UUID} {mentionedUserIds : List UUID}
    (h : update s sessionId actorId commentId expectedVersion value anchorKind anchorId mentionedUserIds =
      .ok (m, s')) : Answered s s' commentId expectedVersion m := by
  obtain ⟨normalized, -, h⟩ := bind_eq_ok.mp h
  obtain ⟨-, -, h⟩ := bind_eq_ok.mp h
  obtain ⟨access, -, h⟩ := bind_eq_ok.mp h
  obtain ⟨mentions, -, h⟩ := bind_eq_ok.mp h
  split at h
  · exact nomatch h
  · next current hfound =>
    obtain ⟨hmem, rfl⟩ := mem_of_commentOf hfound
    obtain ⟨⟨-, hpresent⟩, h⟩ := require_bind_eq_ok.mp h
    obtain ⟨rfl, h⟩ := require_bind_eq_ok.mp h
    split at h
    · obtain ⟨rfl, rfl⟩ := Prod.mk.inj (Except.ok.inj h)
      exact ⟨rfl, current, hmem, rfl, rfl, Or.inl ⟨rfl, rfl, rfl⟩⟩
    · obtain ⟨-, h⟩ := require_bind_eq_ok.mp h
      obtain ⟨recorded, hrecord, h⟩ := bind_eq_ok.mp h
      obtain ⟨rfl, rfl⟩ := Prod.mk.inj (Except.ok.inj h)
      refine ⟨rfl, current, hmem, rfl, rfl, Or.inr ⟨rfl, rfl, changed_of_record
        (f := fun c ↦ { c with body := normalized, anchorKind := anchorKind, anchorId := anchorId })
        hmem hpresent (fun c ↦ ⟨rfl, rfl, rfl⟩) ?_ ?_ (by decide) ?_ hrecord⟩⟩
      · rfl
      · rfl
      intro effect heffect
      split at heffect
      · exact absurd heffect List.not_mem_nil
      · rw [List.mem_singleton.mp heffect]
        rfl

theorem delete_eq_ok {sessionId actorId commentId : UUID} {expectedVersion : ℕ}
    (h : delete s sessionId actorId commentId expectedVersion = .ok (m, s')) :
    Answered s s' commentId expectedVersion m := by
  obtain ⟨access, -, h⟩ := bind_eq_ok.mp h
  split at h
  · exact nomatch h
  · next current hfound =>
    obtain ⟨hmem, rfl⟩ := mem_of_commentOf hfound
    obtain ⟨-, h⟩ := require_bind_eq_ok.mp h
    obtain ⟨rfl, h⟩ := require_bind_eq_ok.mp h
    split at h
    · obtain ⟨rfl, rfl⟩ := Prod.mk.inj (Except.ok.inj h)
      exact ⟨rfl, current, hmem, rfl, rfl, Or.inl ⟨rfl, rfl, rfl⟩⟩
    · next hpresent =>
      obtain ⟨recorded, hrecord, h⟩ := bind_eq_ok.mp h
      obtain ⟨rfl, rfl⟩ := Prod.mk.inj (Except.ok.inj h)
      refine ⟨rfl, current, hmem, rfl, rfl, Or.inr ⟨rfl, rfl, changed_of_record
        (f := fun c ↦ { c with body := [], deletedAt := some s.now }) hmem (not_not.mp hpresent)
        (fun c ↦ ⟨rfl, rfl, rfl⟩) ?_ ?_ (by decide) (List.forall_mem_nil _) hrecord⟩⟩
      · rfl
      · rfl

end Comments

/-! ## The invariant -/

/-- What holds in every state. -/
structure CommentInvariant (s : CommentsState) : Prop where
  ids : (s.comments.map (·.id)).Nodup
  requests : (s.comments.map fun c ↦ (c.authorId, c.clientRequestId)).Nodup
  events : (s.activity.auditEvents.map (·.event)).Nodup
  created : ∀ c ∈ s.comments, ∃ e ∈ s.activity.auditEvents, e.event = Comments.createdEvent c.id
  recorded : ∀ e ∈ s.activity.auditEvents, ∀ state id v, e.event = .comment state id v →
    ∃ c ∈ s.comments, c.id = id ∧ v ≤ c.version
  notices : (s.activity.notifications.map noticeKey).Nodup
  told : ∀ n ∈ s.activity.notifications, ∀ event u, IsCommentEvent event →
    noticeKey n = noticeKeyOf event u → ∃ e ∈ s.activity.auditEvents, e.event = event

section Invariant

variable {s s' : CommentsState}

theorem commentInvariant_noComments (rooms : RoomTables) (preferences : List NotificationPreference)
    (now : Timestamp) : CommentInvariant (noComments rooms preferences now) :=
  ⟨List.nodup_nil, List.nodup_nil, List.nodup_nil, List.forall_mem_nil _, List.forall_mem_nil _,
    List.nodup_nil, List.forall_mem_nil _⟩

/-- The explicit keys of the effects are no keys of comments. -/
def ForeignKeys (effects : List NotificationEffect) : Prop :=
  ∀ effect ∈ effects, ∀ key, effect.dedupeKey = some key →
    ∀ comment, IsCommentEvent comment → key ≠ buildEventKey comment

theorem foreignKeys_of_none {effects : List NotificationEffect}
    (h : ∀ effect ∈ effects, effect.dedupeKey = none) : ForeignKeys effects :=
  fun effect heffect _ hkey ↦ nomatch (h effect heffect).symm.trans hkey

/-- Where a notification of an effect has the key of a comment's event, the event is recorded. -/
theorem event_eq_of_noticeKey {e : AuditEvent} {effect : NotificationEffect} {u v : UUID}
    {event : EventIdentity} (hevent : IsCommentEvent event)
    (hforeign : ∀ key, effect.dedupeKey = some key →
      ∀ comment, IsCommentEvent comment → key ≠ buildEventKey comment)
    (h : (u, channelDedupeKey (effect.dedupeKey.getD e.eventKey) u .inApp) = noticeKeyOf event v) :
    e.event = event := by
  obtain ⟨rfl, hkey⟩ := Prod.mk.inj h
  have hbase : effect.dedupeKey.getD e.eventKey = buildEventKey event := channelDedupeKey_injective hkey
  cases hkey' : effect.dedupeKey with
  | none =>
    rw [hkey', Option.getD_none] at hbase
    exact buildEventKey_injective hbase
  | some key =>
    rw [hkey', Option.getD_some] at hbase
    exact absurd hbase (hforeign key hkey' event hevent)

theorem mem_appendEvent_self (e : AuditEvent) (t : List AuditEvent) :
    ∃ r ∈ appendEvent e t, r.event = e.event := by
  rw [appendEvent, insertIgnore]
  split
  · next h =>
    obtain ⟨r, hr, hclash⟩ := h
    exact ⟨r, hr, buildEventKey_injective hclash⟩
  · exact ⟨e, List.mem_append_right _ (List.mem_singleton_self e), rfl⟩

/-- A recorded event, about comments that have reached its version, keeps the ledger's part. -/
theorem CommentInvariant.record (h : CommentInvariant s) {e : AuditEvent} {effects : List NotificationEffect}
    (hrecord : record e effects s.activity = .ok s'.activity) (hforeign : ForeignKeys effects)
    (hids : (s'.comments.map (·.id)).Nodup)
    (hrequests : (s'.comments.map fun c ↦ (c.authorId, c.clientRequestId)).Nodup)
    (hkept : ∀ c ∈ s.comments, ∃ c' ∈ s'.comments, c'.id = c.id ∧ c.version ≤ c'.version)
    (hnew : ∀ c' ∈ s'.comments, (∃ c ∈ s.comments, c.id = c'.id) ∨
      e.event = Comments.createdEvent c'.id)
    (hevent : ∀ state id v, e.event = .comment state id v → ∃ c ∈ s'.comments, c.id = id ∧ v ≤ c.version) :
    CommentInvariant s' := by
  have hledger := record_auditEvents hrecord
  have hdelivered := record_delivered hrecord
  have hmem : ∀ r ∈ s.activity.auditEvents, r ∈ s'.activity.auditEvents := by
    rw [hledger]
    exact fun r hr ↦ prefix_insertIgnore.subset hr
  have hself : ∃ r ∈ s'.activity.auditEvents, r.event = e.event := hledger ▸ mem_appendEvent_self e _
  refine ⟨hids, hrequests, ?_, fun c' hc' ↦ ?_, fun r hr state id v hr' ↦ ?_,
    hdelivered.unique h.notices, fun n hn event u hevent hkey ↦ ?_⟩
  · rw [hledger]
    exact nodup_map_insertIgnore (fun a b hab ↦ congrArg buildEventKey hab) h.events
  · rcases hnew c' hc' with ⟨c, hc, hid⟩ | hcreated
    · obtain ⟨r, hr, hcreated⟩ := h.created c hc
      exact ⟨r, hmem r hr, hid ▸ hcreated⟩
    · obtain ⟨r, hr, hself⟩ := hself
      exact ⟨r, hr, hself.trans hcreated⟩
  · rw [hledger] at hr
    rcases mem_insertIgnore hr with hr | rfl
    · obtain ⟨c, hc, hid, hv⟩ := h.recorded r hr state id v hr'
      obtain ⟨c', hc', hid', hv'⟩ := hkept c hc
      exact ⟨c', hc', hid'.trans hid, hv.trans hv'⟩
    · exact hevent state id v hr'
  · rcases hdelivered.added n hn with hn | ⟨effect, heffect, hnotice⟩
    · obtain ⟨r, hr, hr'⟩ := h.told n hn event u hevent hkey
      exact ⟨r, hmem r hr, hr'⟩
    · obtain ⟨r, hr, hself⟩ := hself
      rw [noticeKey, hnotice.dedupeKey] at hkey
      exact ⟨r, hr, hself.trans (event_eq_of_noticeKey hevent (hforeign effect heffect) hkey)⟩

theorem dedupeKey_of_createEffects {actorId commentId : UUID} {access : SessionAccess}
    {mentions : List UUID} {effect : NotificationEffect}
    (h : effect ∈ Comments.createEffects actorId commentId access mentions) : effect.dedupeKey = none := by
  rcases List.mem_append.mp h with h | h <;> split at h
  all_goals first
    | exact absurd h List.not_mem_nil
    | (rw [List.mem_singleton.mp h]; rfl)

theorem CommentInvariant.created_step (h : CommentInvariant s)
    {sessionId authorId clientRequestId : UUID} {mentionedUserIds : List UUID} {m : CommentMutation}
    (hcreated : Comments.Created s s' sessionId authorId clientRequestId mentionedUserIds m) :
    CommentInvariant s' := by
  obtain ⟨access, -, mentions, -, event, hevent, hrecord⟩ := hcreated.access
  obtain ⟨row, hrows, hid, hversion, hsame, -⟩ := hcreated.row
  refine h.record hrecord (foreignKeys_of_none fun _ ↦ dedupeKey_of_createEffects) ?_ ?_ ?_ ?_ ?_
  · rw [hrows]
    exact nodup_map_append_singleton h.ids fun c hc ↦ hid ▸ hcreated.freshId c hc
  · rw [hrows]
    refine nodup_map_append_singleton h.requests fun c hc hkey ↦ hcreated.freshRequest c hc ?_
    obtain ⟨hauthor, hrequest⟩ := Prod.mk.inj hkey
    exact ⟨hauthor.trans hsame.1, hrequest.trans hsame.2⟩
  · exact fun c hc ↦ ⟨c, hrows ▸ List.mem_append_left _ hc, rfl, le_rfl⟩
  · rw [hrows]
    refine List.forall_mem_append.mpr ⟨fun c hc ↦ Or.inl ⟨c, hc, rfl⟩, List.forall_mem_singleton.mpr ?_⟩
    exact Or.inr (hid ▸ hevent)
  · intro state id v hcomment
    rw [hevent] at hcomment
    cases hcomment
    exact ⟨row, hrows ▸ List.mem_append_right _ (List.mem_singleton_self row), hid, hversion.ge⟩

theorem CommentInvariant.changed_step (h : CommentInvariant s) {current : CommentRow}
    (hchanged : Comments.Changed s s' current) : CommentInvariant s' := by
  obtain ⟨set, hset, hrows⟩ := hchanged.rows
  obtain ⟨event, effects, ⟨state, hstate, hevent⟩, hkeys, hrecord⟩ := hchanged.recorded
  have hids : s'.comments.map (·.id) = s.comments.map (·.id) := by
    rw [hrows]
    exact map_updateWhere_of_forall fun c ↦ (hset c).1
  have hrequests : s'.comments.map (fun c ↦ (c.authorId, c.clientRequestId)) =
      s.comments.map fun c ↦ (c.authorId, c.clientRequestId) := by
    rw [hrows]
    exact map_updateWhere_of_forall fun c ↦ Prod.ext (hset c).2.2.1 (hset c).2.2.2
  refine h.record hrecord (foreignKeys_of_none hkeys) (hids ▸ h.ids) (hrequests ▸ h.requests) ?_ ?_ ?_
  · intro c hc
    rw [hrows]
    by_cases hcurrent : c.id = current.id
    · exact ⟨_, mem_updateWhere_of_mem hc hcurrent, (hset c).1, (hset c).2.1 ▸ Nat.le_succ _⟩
    · exact ⟨c, mem_updateWhere_of_not hc hcurrent, rfl, le_rfl⟩
  · intro c' hc'
    have hid : c'.id ∈ s.comments.map (·.id) := hids ▸ List.mem_map_of_mem hc'
    exact Or.inl (List.mem_map.mp hid)
  · intro state' id v hcomment
    rw [hevent] at hcomment
    cases hcomment
    rw [hrows]
    exact ⟨_, mem_updateWhere_of_mem hchanged.mem rfl, (hset current).1, (hset current).2.1.ge⟩

/-- What an input does to the comments and the ledger. -/
inductive CommentChange (s s' : CommentsState) : Prop
  | quiet (comments : s'.comments = s.comments)
      (auditEvents : s'.activity.auditEvents = s.activity.auditEvents)
      (notifications : s'.activity.notifications = s.activity.notifications)
  | created {sessionId authorId clientRequestId : UUID} {mentionedUserIds : List UUID}
      {m : CommentMutation}
      (h : Comments.Created s s' sessionId authorId clientRequestId mentionedUserIds m)
  | changed {current : CommentRow} (h : Comments.Changed s s' current)
  | elsewhere {e : AuditEvent} {effects : List NotificationEffect} (comments : s'.comments = s.comments)
      (recorded : MeetingRag.record e effects s.activity = .ok s'.activity)
      (event : ¬IsCommentEvent e.event) (foreign : ForeignKeys effects)

theorem commentStep_change {input : CommentInput} (hinput : CommentEnabled input) :
    CommentChange s (commentStep s input).2 := by
  have hquiet : CommentChange s s := .quiet rfl rfl rfl
  have hanswered : ∀ {commentId expectedVersion m s'},
      Comments.Answered s s' commentId expectedVersion m → CommentChange s s' := by
    intro commentId expectedVersion m s' hanswer
    obtain ⟨current, -, -, -, ⟨-, -, rfl⟩ | ⟨-, -, hchanged⟩⟩ := hanswer.current
    · exact hquiet
    · exact .changed hchanged
  have hcall : ∀ call : Except ActivityError (CommentMutation × CommentsState),
      (∀ m s', call = .ok (m, s') → CommentChange s s') → CommentChange s (commentCall s call).2 := by
    intro call hcall
    match call with
    | .ok (m, s') => exact hcall m s' rfl
    | .error e => exact hquiet
  cases input with
  | create =>
    refine hcall _ fun m s' hs ↦ ?_
    rcases Comments.create_eq_ok hs with ⟨-, rfl⟩ | hcreated
    · exact hquiet
    · exact .created hcreated
  | update => exact hcall _ fun m s' hs ↦ hanswered (Comments.update_eq_ok hs)
  | delete => exact hcall _ fun m s' hs ↦ hanswered (Comments.delete_eq_ok hs)
  | rooms => exact .quiet rfl rfl rfl
  | preferences => exact .quiet rfl rfl rfl
  | elsewhere event effects =>
    rw [commentStep]
    split
    · next activity hrecord => exact .elsewhere rfl hrecord hinput.1 hinput.2
    · exact hquiet
  | advance => exact .quiet rfl rfl rfl

/-- The step lemma. -/
theorem CommentInvariant.change (h : CommentInvariant s) (hchange : CommentChange s s') :
    CommentInvariant s' := by
  cases hchange with
  | quiet hcomments haudit hnotices =>
    refine ⟨?_, ?_, ?_, ?_, ?_, ?_, ?_⟩ <;> simp only [hcomments, haudit, hnotices]
    exacts [h.ids, h.requests, h.events, h.created, h.recorded, h.notices, h.told]
  | created hcreated => exact h.created_step hcreated
  | changed hchanged => exact h.changed_step hchanged
  | elsewhere hcomments hrecord hevent hforeign =>
    refine h.record hrecord hforeign (hcomments ▸ h.ids) (hcomments ▸ h.requests)
      (fun c hc ↦ ⟨c, hcomments ▸ hc, rfl, le_rfl⟩) (fun c hc ↦ Or.inl ⟨c, hcomments ▸ hc, rfl⟩)
      fun state id v hcomment ↦ ?_
    exact absurd ⟨state, id, v, hcomment⟩ hevent

theorem commentInvariant_of_legal {rooms : RoomTables} {preferences : List NotificationPreference}
    {now : Timestamp} {inputs : List CommentInput}
    (hlegal : commentMachine.Legal (noComments rooms preferences now) inputs) :
    CommentInvariant (commentMachine.exec (noComments rooms preferences now) inputs) :=
  hlegal.invariant (commentInvariant_noComments rooms preferences now) fun _ _ h hinput ↦ h.change (commentStep_change hinput)

/-! ## What stays -/

/-- What a later state keeps of an earlier one: deleted comments, rows of requests, and the notifications
about every event of a comment that was recorded. -/
structure CommentsKept (s s' : CommentsState) : Prop where
  deleted : ∀ c ∈ s.comments, c.deletedAt ≠ none → c ∈ s'.comments
  requests : ∀ c ∈ s.comments, ∃ c' ∈ s'.comments, c'.id = c.id ∧ c'.authorId = c.authorId ∧
    c'.clientRequestId = c.clientRequestId
  events : ∀ e ∈ s.activity.auditEvents, e ∈ s'.activity.auditEvents
  notices : s.activity.notifications <+: s'.activity.notifications
  told : ∀ e ∈ s.activity.auditEvents, IsCommentEvent e.event → ∀ u,
    noticeKeyOf e.event u ∈ s'.activity.notifications.map noticeKey →
      noticeKeyOf e.event u ∈ s.activity.notifications.map noticeKey

theorem CommentsKept.refl (s : CommentsState) : CommentsKept s s :=
  ⟨fun _ hc _ ↦ hc, fun c hc ↦ ⟨c, hc, rfl, rfl, rfl⟩, fun _ he ↦ he, List.prefix_rfl,
    fun _ _ _ _ hk ↦ hk⟩

theorem CommentsKept.trans {s₁ s₂ s₃ : CommentsState} (h : CommentsKept s₁ s₂) (h' : CommentsKept s₂ s₃) :
    CommentsKept s₁ s₃ := by
  refine ⟨fun c hc hdeleted ↦ h'.deleted c (h.deleted c hc hdeleted) hdeleted, fun c hc ↦ ?_,
    fun e he ↦ h'.events e (h.events e he), h.notices.trans h'.notices,
    fun e he hcomment u hk ↦ h.told e he hcomment u (h'.told e (h.events e he) hcomment u hk)⟩
  obtain ⟨c₂, hc₂, hid, hauthor, hrequest⟩ := h.requests c hc
  obtain ⟨c₃, hc₃, hid', hauthor', hrequest'⟩ := h'.requests c₂ hc₂
  exact ⟨c₃, hc₃, hid'.trans hid, hauthor'.trans hauthor, hrequest'.trans hrequest⟩

/-- The ledger's part of what stays. -/
theorem commentsKept_of_record {e : AuditEvent} {effects : List NotificationEffect}
    (hrecord : record e effects s.activity = .ok s'.activity) (hforeign : ForeignKeys effects)
    (hdeleted : ∀ c ∈ s.comments, c.deletedAt ≠ none → c ∈ s'.comments)
    (hrequests : ∀ c ∈ s.comments, ∃ c' ∈ s'.comments, c'.id = c.id ∧ c'.authorId = c.authorId ∧
      c'.clientRequestId = c.clientRequestId) : CommentsKept s s' := by
  have hledger := record_auditEvents hrecord
  have hdelivered := record_delivered hrecord
  refine ⟨hdeleted, hrequests, fun r hr ↦ hledger ▸ prefix_insertIgnore.subset hr, hdelivered.kept,
    fun r hr hcomment u hk ↦ ?_⟩
  by_cases hsame : r.event = e.event
  · -- the event is there already, so nothing is staged
    rw [record, if_pos ⟨r, hr, congrArg buildEventKey hsame⟩] at hrecord
    rwa [← Except.ok.inj hrecord] at hk
  · obtain ⟨n, hn, hkey⟩ := List.mem_map.mp hk
    rcases hdelivered.added n hn with hn | ⟨effect, heffect, hnotice⟩
    · exact hkey ▸ List.mem_map_of_mem hn
    · rw [noticeKey, hnotice.dedupeKey] at hkey
      exact absurd (event_eq_of_noticeKey hcomment (hforeign effect heffect) hkey).symm hsame

theorem Comments.Changed.kept {current : CommentRow} (h : CommentInvariant s)
    (hchanged : Comments.Changed s s' current) : CommentsKept s s' := by
  obtain ⟨set, hset, hrows⟩ := hchanged.rows
  obtain ⟨event, effects, -, hkeys, hrecord⟩ := hchanged.recorded
  refine commentsKept_of_record hrecord (foreignKeys_of_none hkeys) (fun c hc hdeleted ↦ ?_)
    fun c hc ↦ ?_
  · rw [hrows]
    refine mem_updateWhere_of_not hc fun hid ↦ hdeleted ?_
    rw [eq_of_key_eq h.ids hc hchanged.mem hid, hchanged.present]
  · rw [hrows]
    by_cases hcurrent : c.id = current.id
    · exact ⟨_, mem_updateWhere_of_mem hc hcurrent, (hset c).1, (hset c).2.2⟩
    · exact ⟨c, mem_updateWhere_of_not hc hcurrent, rfl, rfl, rfl⟩

theorem Comments.Created.kept {sessionId authorId clientRequestId : UUID} {mentionedUserIds : List UUID}
    {m : CommentMutation}
    (hcreated : Comments.Created s s' sessionId authorId clientRequestId mentionedUserIds m) :
    CommentsKept s s' := by
  obtain ⟨access, -, mentions, -, event, -, hrecord⟩ := hcreated.access
  obtain ⟨row, hrows, -⟩ := hcreated.row
  refine commentsKept_of_record hrecord (foreignKeys_of_none fun _ ↦ dedupeKey_of_createEffects)
    (fun c hc _ ↦ hrows ▸ List.mem_append_left _ hc) fun c hc ↦ ?_
  exact ⟨c, hrows ▸ List.mem_append_left _ hc, rfl, rfl, rfl⟩

theorem CommentInvariant.kept (h : CommentInvariant s) (hchange : CommentChange s s') :
    CommentsKept s s' := by
  cases hchange with
  | quiet hcomments haudit hnotices =>
    refine ⟨fun c hc _ ↦ hcomments ▸ hc, fun c hc ↦ ⟨c, hcomments ▸ hc, rfl, rfl, rfl⟩,
      fun e he ↦ haudit ▸ he, hnotices ▸ List.prefix_rfl, fun _ _ _ _ hk ↦ hnotices ▸ hk⟩
  | created hcreated => exact hcreated.kept
  | changed hchanged => exact hchanged.kept h
  | elsewhere hcomments hrecord hevent hforeign =>
    exact commentsKept_of_record hrecord hforeign (fun c hc _ ↦ hcomments ▸ hc)
      fun c hc ↦ ⟨c, hcomments ▸ hc, rfl, rfl, rfl⟩

/-- A run keeps what it starts with. -/
theorem CommentInvariant.kept_run {inputs : List CommentInput} (h : CommentInvariant s)
    (hlegal : commentMachine.Legal s inputs) : CommentsKept s (commentMachine.exec s inputs) := by
  induction inputs generalizing s with
  | nil => exact CommentsKept.refl s
  | cons input inputs ih =>
    have hchange : CommentChange s (commentMachine.step s input).2 := commentStep_change hlegal.1
    exact (h.kept hchange).trans (ih (h.change hchange) hlegal.2)

end Invariant

/-! ## Whom a new comment notifies -/

/-- The channel `in_app` is enabled for a kind. -/
def InAppEnabled (preferences : List NotificationPreference) (u : UUID) (kind : String) : Prop :=
  ∃ p ∈ preferences, p.userId = u ∧ p.kind = kind ∧ p.channel = .inApp ∧ p.enabled = true

instance (preferences : List NotificationPreference) (u : UUID) (kind : String) :
    Decidable (InAppEnabled preferences u kind) :=
  inferInstanceAs (Decidable (∃ p ∈ preferences, p.userId = u ∧ p.kind = kind ∧ p.channel = .inApp ∧
    p.enabled = true))

theorem mem_reached {preferences : List NotificationPreference} {effect : NotificationEffect} {u : UUID}
    (hkind : ¬(effect.kind = "friend_request" ∨ effect.kind = "room_member_added")) :
    u ∈ reached preferences effect ↔
      u ∈ effect.recipientIds ∧ InAppEnabled preferences u effect.kind := by
  rw [reached, channelRecipients, snapshotPreferences, if_neg hkind, List.mem_dedup, List.mem_map]
  constructor
  · rintro ⟨r, hr, rfl⟩
    obtain ⟨hr, hchannel⟩ := List.mem_filter.mp hr
    obtain ⟨v, hv, hsome⟩ := List.mem_filterMap.mp hr
    rw [List.mem_insertionSort, List.mem_dedup] at hv
    simp only at hsome
    split at hsome
    · cases hsome
    · cases hsome
      have hmem := (List.mem_filter.mp (of_decide_eq_true hchannel)).2
      obtain ⟨p, hp, hmatch⟩ := List.any_eq_true.mp hmem
      exact ⟨hv, p, hp, of_decide_eq_true hmatch⟩
  · rintro ⟨hu, p, hp, hmatch⟩
    have hchannel : Channel.inApp ∈ [Channel.inApp, Channel.emailIntent].filter fun c ↦
        preferences.any fun p ↦ p.userId = u ∧ p.kind = effect.kind ∧ p.channel = c ∧ p.enabled = true :=
      List.mem_filter.mpr ⟨List.mem_cons_self, List.any_eq_true.mpr ⟨p, hp, decide_eq_true hmatch⟩⟩
    refine ⟨⟨u, _⟩, List.mem_filter.mpr ⟨List.mem_filterMap.mpr ⟨u, ?_, if_neg ?_⟩,
      decide_eq_true hchannel⟩, rfl⟩
    · exact (List.mem_insertionSort _).mpr (List.mem_dedup.mpr hu)
    · exact List.ne_nil_of_mem hchannel

theorem mem_firsts_id {xs : List UUID} {x : UUID} : x ∈ firsts id xs ↔ x ∈ xs := by
  have h : x ∈ (firsts id xs).map id ↔ x ∈ xs.map id := mem_map_firsts
  rwa [List.map_id, List.map_id] at h

/-- The kind of notification that a member gets about a new comment. -/
def noticeKind (mentionedUserIds : List UUID) (u : UUID) : String :=
  if u ∈ mentionedUserIds then "mention" else "comment"

section Recipients

variable {authorId commentId : UUID} {access : SessionAccess} {mentionedUserIds mentions : List UUID}

theorem mem_mentions (h : Comments.mentions mentionedUserIds authorId access = .ok mentions) {u : UUID} :
    (u ∈ mentions ↔ u ∈ mentionedUserIds ∧ u ≠ authorId) ∧ (u ∈ mentions → u ∈ access.memberIds) := by
  obtain ⟨-, h⟩ := require_bind_eq_ok.mp h
  obtain ⟨hmembers, h⟩ := require_bind_eq_ok.mp h
  cases h
  refine ⟨?_, hmembers u⟩
  rw [mem_firsts_id, List.mem_filter, decide_eq_true_eq]

theorem mem_planCommentRecipients (h : Comments.mentions mentionedUserIds authorId access = .ok mentions)
    {u : UUID} :
    (u ∈ (Comments.planCommentRecipients authorId access.memberIds mentions).1 ↔
      (u ∈ access.memberIds ∧ u ≠ authorId) ∧ u ∈ mentionedUserIds) ∧
    (u ∈ (Comments.planCommentRecipients authorId access.memberIds mentions).2 ↔
      (u ∈ access.memberIds ∧ u ≠ authorId) ∧ u ∉ mentionedUserIds) := by
  obtain ⟨hmem, hmember⟩ := mem_mentions h (u := u)
  have hfirst : u ∈ (Comments.planCommentRecipients authorId access.memberIds mentions).1 ↔
      (u ∈ access.memberIds ∧ u ≠ authorId) ∧ u ∈ mentionedUserIds := by
    rw [Comments.planCommentRecipients, mem_firsts_id, List.mem_filter, decide_eq_true_eq]
    tauto
  refine ⟨hfirst, ?_⟩
  have hsecond : u ∈ (Comments.planCommentRecipients authorId access.memberIds mentions).2 ↔
      u ∈ access.memberIds ∧ u ≠ authorId ∧
        u ∉ (Comments.planCommentRecipients authorId access.memberIds mentions).1 := by
    rw [Comments.planCommentRecipients, mem_firsts_id, List.mem_filter, decide_eq_true_eq]
  rw [hsecond, hfirst]
  tauto

/-- The recipients of the effects are the other members, each under the kind that is meant for it. -/
theorem mem_createEffects (h : Comments.mentions mentionedUserIds authorId access = .ok mentions)
    {effect : NotificationEffect}
    (heffect : effect ∈ Comments.createEffects authorId commentId access mentions) :
    (effect.kind = "mention" ∨ effect.kind = "comment") ∧ ∀ u ∈ effect.recipientIds,
      (u ∈ access.memberIds ∧ u ≠ authorId) ∧ effect.kind = noticeKind mentionedUserIds u := by
  rcases List.mem_append.mp heffect with heffect | heffect <;> split at heffect
  · exact absurd heffect List.not_mem_nil
  · rw [List.mem_singleton.mp heffect]
    refine ⟨Or.inl rfl, fun u hu ↦ ?_⟩
    obtain ⟨hother, hmentioned⟩ := (mem_planCommentRecipients h).1.mp hu
    exact ⟨hother, (if_pos hmentioned).symm⟩
  · exact absurd heffect List.not_mem_nil
  · rw [List.mem_singleton.mp heffect]
    refine ⟨Or.inr rfl, fun u hu ↦ ?_⟩
    obtain ⟨hother, hmentioned⟩ := (mem_planCommentRecipients h).2.mp hu
    exact ⟨hother, (if_neg hmentioned).symm⟩

theorem exists_createEffects (h : Comments.mentions mentionedUserIds authorId access = .ok mentions)
    {u : UUID} (hother : u ∈ access.memberIds ∧ u ≠ authorId) :
    ∃ effect ∈ Comments.createEffects authorId commentId access mentions, u ∈ effect.recipientIds := by
  by_cases hmentioned : u ∈ mentionedUserIds
  · have hu := (mem_planCommentRecipients h).1.mpr ⟨hother, hmentioned⟩
    refine ⟨Comments.mentionEffect commentId _, List.mem_append_left _ ?_, hu⟩
    rw [if_neg (List.ne_nil_of_mem hu)]
    exact List.mem_singleton_self _
  · have hu := (mem_planCommentRecipients h).2.mpr ⟨hother, hmentioned⟩
    refine ⟨Comments.commentEffect commentId _, List.mem_append_right _ ?_, hu⟩
    rw [if_neg (List.ne_nil_of_mem hu)]
    exact List.mem_singleton_self _

end Recipients

/-- The notifications about the creation of a comment that a user has. -/
def createdNotices (s : CommentsState) (commentId u : UUID) : List Notification :=
  s.activity.notifications.filter (noticeKey · = noticeKeyOf (Comments.createdEvent commentId) u)

/-- Whom a comment has notified: the other members of the time, once each, where their preferences let
it, of a mention if they were mentioned and of a comment otherwise. -/
def NotifiedOnce (s s' : CommentsState) (authorId commentId : UUID) (memberIds mentionedUserIds : List UUID) :
    Prop :=
  ∀ u, (createdNotices s' commentId u).map (·.kind) =
    if (u ∈ memberIds ∧ u ≠ authorId) ∧
      InAppEnabled s.activity.notificationPreferences u (noticeKind mentionedUserIds u)
    then [noticeKind mentionedUserIds u] else []

section Created

variable {s s' s'' : CommentsState} {sessionId authorId clientRequestId : UUID}
  {mentionedUserIds : List UUID} {m : CommentMutation}

theorem Comments.Created.notified (h : CommentInvariant s)
    (hcreated : Comments.Created s s' sessionId authorId clientRequestId mentionedUserIds m)
    (hinvariant : CommentInvariant s'') (hkept : CommentsKept s' s'') :
    ∃ access, requireMembership s.rooms sessionId authorId = .ok access ∧
      NotifiedOnce s s'' authorId m.id access.memberIds mentionedUserIds := by
  obtain ⟨access, haccess, mentions, hmentions, event, hevent, hrecord⟩ := hcreated.access
  refine ⟨access, haccess, fun u ↦ ?_⟩
  have hcomment : IsCommentEvent (Comments.createdEvent m.id) := ⟨_, _, _, rfl⟩
  have hfresh : ∀ r ∈ s.activity.auditEvents, r.event ≠ event.event := by
    intro r hr hsame
    obtain ⟨c, hc, hid, -⟩ := h.recorded r hr _ m.id 1 (hsame.trans hevent)
    exact hcreated.freshId c hc hid
  -- nobody has a notification under the key of the new event yet
  have hnone : noticeKeyOf (Comments.createdEvent m.id) u ∉ s.activity.notifications.map noticeKey := by
    intro hk
    obtain ⟨n, hn, hkey⟩ := List.mem_map.mp hk
    obtain ⟨r, hr, hsame⟩ := h.told n hn _ u hcomment hkey
    exact hfresh r hr (hsame.trans hevent.symm)
  have hkeys : noticeKeyOf (Comments.createdEvent m.id) u ∈ s'.activity.notifications.map noticeKey ↔
      (u ∈ access.memberIds ∧ u ≠ authorId) ∧
        InAppEnabled s.activity.notificationPreferences u (noticeKind mentionedUserIds u) := by
    rw [record_keys hrecord hfresh, or_iff_right hnone]
    constructor
    · rintro ⟨effect, heffect, v, hv, hkey⟩
      obtain ⟨rfl, -⟩ := Prod.mk.inj hkey
      obtain ⟨hkind, hrecipients⟩ := mem_createEffects hmentions heffect
      obtain ⟨hv, henabled⟩ := (mem_reached (by rcases hkind with h | h <;> rw [h] <;> decide)).mp hv
      obtain ⟨hother, hkind⟩ := hrecipients _ hv
      exact ⟨hother, hkind ▸ henabled⟩
    · rintro ⟨hother, henabled⟩
      obtain ⟨effect, heffect, hu⟩ : ∃ effect ∈ Comments.createEffects authorId m.id access mentions,
        u ∈ effect.recipientIds := exists_createEffects hmentions hother
      obtain ⟨hkind, hrecipients⟩ := mem_createEffects hmentions heffect
      refine ⟨effect, heffect, u, (mem_reached ?_).mpr ⟨hu, (hrecipients u hu).2 ▸ henabled⟩, ?_⟩
      · rcases hkind with h | h <;> rw [h] <;> decide
      · rw [dedupeKey_of_createEffects heffect, Option.getD_none, AuditEvent.eventKey, hevent]
        rfl
  obtain ⟨r, hr, hrevent⟩ : ∃ r ∈ s'.activity.auditEvents, r.event = event.event :=
    record_auditEvents hrecord ▸ mem_appendEvent_self event _
  have hstays : noticeKeyOf (Comments.createdEvent m.id) u ∈ s''.activity.notifications.map noticeKey ↔
      noticeKeyOf (Comments.createdEvent m.id) u ∈ s'.activity.notifications.map noticeKey := by
    have hrevent' := hrevent.trans hevent
    refine ⟨fun hk ↦ hrevent' ▸ hkept.told r hr (hrevent' ▸ hcomment) u (hrevent' ▸ hk), fun hk ↦ ?_⟩
    obtain ⟨n, hn, hkey⟩ := List.mem_map.mp hk
    exact hkey ▸ List.mem_map_of_mem (hkept.notices.subset hn)
  split
  · next hcondition =>
    obtain ⟨n, hn, hkey⟩ := List.mem_map.mp (hkeys.mpr hcondition)
    have hkind : n.kind = noticeKind mentionedUserIds u := by
      rcases (record_delivered hrecord).added n hn with hold | ⟨effect, heffect, hnotice⟩
      · exact absurd (hkey ▸ List.mem_map_of_mem hold) hnone
      · have hu : n.recipientId = u := (Prod.mk.inj hkey).1
        rw [hnotice.kind, ((mem_createEffects hmentions heffect).2 _ hnotice.recipient).2, hu]
    rw [createdNotices, ← hkey, filter_key_eq_singleton hinvariant.notices (hkept.notices.subset hn),
      List.map_singleton, hkind]
  · next hcondition =>
    have hempty : createdNotices s'' m.id u = [] := by
      refine List.filter_eq_nil_iff.mpr fun n hn hkey ↦ hcondition (hkeys.mp (hstays.mp ?_))
      rw [← of_decide_eq_true hkey]
      exact List.mem_map_of_mem hn
    rw [hempty, List.map_nil]

end Created

/-! ## Every run -/

theorem commentCall_eq_ok {s : CommentsState} {call : Except ActivityError (CommentMutation × CommentsState)}
    {m : CommentMutation} (h : (commentCall s call).1 = .ok (some m)) :
    call = .ok (m, (commentCall s call).2) := by
  match call with
  | .ok (m', s') =>
    cases h
    rfl
  | .error e => exact nomatch h

/-- What a run holds before a step, after it, and at its end. -/
theorem commentInvariant_split {rooms : RoomTables} {preferences : List NotificationPreference}
    {now : Timestamp} {before after : List CommentInput} {input : CommentInput}
    (hlegal : commentMachine.Legal (noComments rooms preferences now) (before ++ input :: after)) :
    let s := commentMachine.exec (noComments rooms preferences now) before
    let s' := (commentStep s input).2
    CommentInvariant s ∧ CommentsKept s s' ∧
      CommentsKept s' (commentMachine.exec (noComments rooms preferences now) (before ++ input :: after)) := by
  intro s s'
  obtain ⟨hbefore, hinput, hafter⟩ := Machine.along_append.mp hlegal
  have h : CommentInvariant s := commentInvariant_of_legal hbefore
  have hchange : CommentChange s s' := commentStep_change hinput
  have hkept : CommentsKept s' (commentMachine.exec s' after) := (h.change hchange).kept_run hafter
  rw [Machine.exec_append]
  exact ⟨h, h.kept hchange, hkept⟩

/-- A room of two. -/
def roomOfTwo : RoomTables := ⟨[⟨1, 2⟩], [⟨3, 1⟩], [⟨1, 2, true, false⟩, ⟨1, 4, false, false⟩]⟩

/-- A comment is created twice under one request, changed, and deleted. -/
def commentedTwice : List CommentInput :=
  [.create 3 2 20 (lit "hello") none none [] 10, .create 3 2 20 (lit "hello") none none [] 11,
    .update 3 2 10 1 (lit "hi") none none [4], .delete 3 2 10 2]

end MeetingRag
