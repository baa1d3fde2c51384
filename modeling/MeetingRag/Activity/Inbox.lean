import MeetingRag.Activity.CommentRuns
import MeetingRag.Activity.Lists
import MeetingRag.Activity.Profiles

/-!
# The inbox under any order of calls

A notification is inserted once, when its event is recorded for the first time and its recipient wants
it, and from then on its row stays: the only column that changes is the time at which it was read, which
is set once and by its recipient alone.

The calls of the services are interleaved in any order here. Events are recorded and recorded again,
users change what they want to hear about, and each of them marks one notification or all of them.
-/

open Outcome Py Table

namespace MeetingRag

namespace Inbox

/-! ## Tables and calls -/

/-- The tables behind the activity service, with whole rows of `notifications`. -/
structure InboxTables where
  auditEvents : List AuditEvent
  notificationPreferences : List NotificationPreference
  notifications : List NotificationRow
  emailOutbox : List OutboxEmail
deriving DecidableEq

/-- What the activity service sees of the tables. -/
def InboxTables.activity (t : InboxTables) : ActivityTables :=
  ⟨t.auditEvents, t.notificationPreferences, t.notifications.map (·.notification), t.emailOutbox⟩

/-- The rows of new notifications: an id, the time of the transaction, and not read. -/
def newRows (now : Timestamp) (ids : List UUID) (notifications : List Notification) :
    List NotificationRow :=
  List.zipWith (fun id n ↦ ⟨id, n, now, none⟩) ids notifications

/-- The notifications that the inserts of `record` append, which get the next of `ids`. -/
def appended (t : InboxTables) (a : ActivityTables) : List Notification :=
  a.notifications.drop t.notifications.length

/-- `ActivityService.record` in a transaction of its own. -/
def deliver (t : InboxTables) (now : Timestamp) (ids : List UUID) (e : AuditEvent)
    (effects : List NotificationEffect) : Except Error InboxTables := do
  let a ← record e effects t.activity
  .ok ⟨a.auditEvents, a.notificationPreferences, t.notifications ++ newRows now ids (appended t a),
    a.emailOutbox⟩

/-- A row of the recipient's. -/
def Of (recipientId : UUID) (n : NotificationRow) : Prop := n.notification.recipientId = recipientId

instance (recipientId : UUID) : DecidablePred (Of recipientId) := fun n ↦
  inferInstanceAs (Decidable (n.notification.recipientId = recipientId))

/-- A row that the recipient has not read. -/
def Unread (recipientId : UUID) (n : NotificationRow) : Prop := Of recipientId n ∧ n.readAt = none

instance (recipientId : UUID) : DecidablePred (Unread recipientId) := fun n ↦
  inferInstanceAs (Decidable (Of recipientId n ∧ n.readAt = none))

/-- `mark_read` -/
def markRead (t : InboxTables) (now : Timestamp) (recipientId notificationId : UUID) :
    Bool × InboxTables :=
  let found := fun n : NotificationRow ↦ n.id = notificationId ∧ Of recipientId n
  (decide (∃ n ∈ t.notifications, found n),
    { t with
      notifications := updateWhere found (fun n ↦ { n with readAt := some (n.readAt.getD now) })
        t.notifications })

/-- `mark_all_read` -/
def markAllRead (t : InboxTables) (now : Timestamp) (recipientId : UUID) : ℕ × InboxTables :=
  (rowcount (Unread recipientId) t.notifications,
    { t with
      notifications := updateWhere (Unread recipientId) (fun n ↦ { n with readAt := some now })
        t.notifications })

/-- The number of unread notifications that `list_notifications` reports beside each page. -/
def unread (t : InboxTables) (recipientId : UUID) : ℕ :=
  t.notifications.countP fun n ↦ n.notification.recipientId = recipientId ∧ n.readAt = none

/-! ## Runs -/

inductive InboxInput
  | deliver (now : Timestamp) (ids : List UUID) (e : AuditEvent) (effects : List NotificationEffect)
  /-- One statement of `update_preferences`. -/
  | prefer (userId : UUID) (item : Account.PreferenceKey × Bool)
  | markRead (now : Timestamp) (recipientId notificationId : UUID)
  | markAllRead (now : Timestamp) (recipientId : UUID)
  | unread (recipientId : UUID)

inductive InboxReply
  | delivered
  | refused (e : Error)
  | preferred
  | found (found : Bool)
  | marked (count : ℕ)
  | unread (count : ℕ)
deriving DecidableEq

def inboxStep (t : InboxTables) : InboxInput → InboxReply × InboxTables
  | .deliver now ids e effects =>
    match deliver t now ids e effects with
    | .ok t' => (.delivered, t')
    | .error e => (.refused e, t)
  | .prefer userId item =>
    (.preferred, { t with
      notificationPreferences := Account.setPreference userId t.notificationPreferences item })
  | .markRead now recipientId notificationId =>
    let (found, t') := markRead t now recipientId notificationId
    (.found found, t')
  | .markAllRead now recipientId =>
    let (count, t') := markAllRead t now recipientId
    (.marked count, t')
  | .unread recipientId => (.unread (unread t recipientId), t)

/-- The ids of new rows come from `uuid4`: they are distinct and new, and there is one for each. -/
def FreshIds (t : InboxTables) (ids : List UUID) (e : AuditEvent) (effects : List NotificationEffect) :
    Prop :=
  ids.Nodup ∧ (∀ n ∈ t.notifications, n.id ∉ ids) ∧
    ∀ a, record e effects t.activity = .ok a → (appended t a).length ≤ ids.length

instance (t : InboxTables) (ids : List UUID) (e : AuditEvent) (effects : List NotificationEffect) :
    Decidable (FreshIds t ids e effects) :=
  match h : record e effects t.activity with
  | .ok a => decidable_of_iff
      (ids.Nodup ∧ (∀ n ∈ t.notifications, n.id ∉ ids) ∧ (appended t a).length ≤ ids.length)
      (and_congr_right fun _ ↦ and_congr_right fun _ ↦
        ⟨fun hle b hb ↦ by cases h.symm.trans hb; exact hle, fun hle ↦ hle a h⟩)
  | .error e => decidable_of_iff (ids.Nodup ∧ ∀ n ∈ t.notifications, n.id ∉ ids)
      (and_congr_right fun _ ↦ ⟨fun hnew ↦ ⟨hnew, fun b hb ↦ nomatch h.symm.trans hb⟩, And.left⟩)

def inboxMachine : Machine InboxTables InboxInput InboxReply where
  enabled t input :=
    match input with
    | .deliver _ ids e effects => FreshIds t ids e effects
    | _ => True
  step := inboxStep

instance (t : InboxTables) (input : InboxInput) : Decidable (inboxMachine.enabled t input) :=
  match input with
  | .deliver _ ids e effects => inferInstanceAs (Decidable (FreshIds t ids e effects))
  | .prefer .. | .markRead .. | .markAllRead .. | .unread .. => .isTrue trivial

/-- The inbox of nobody, for users with these preferences. -/
def emptyInbox (preferences : List NotificationPreference) : InboxTables := ⟨[], preferences, [], []⟩

/-- The recipient whose notifications a call marks. -/
def marks : InboxInput → Option UUID
  | .markRead _ recipientId _ | .markAllRead _ recipientId => some recipientId
  | _ => none

/-! ## What one call does -/

section Steps

variable {t t' : InboxTables} {now : Timestamp} {ids : List UUID} {e : AuditEvent}
  {effects : List NotificationEffect}

theorem unread_eq_rowcount (t : InboxTables) (recipientId : UUID) :
    unread t recipientId = rowcount (Unread recipientId) t.notifications := rfl

/-- What a delivery appends, with the rows as `record` leaves them. -/
theorem deliver_eq_ok (h : deliver t now ids e effects = .ok t') :
    ∃ a, record e effects t.activity = .ok a ∧
      a.notifications = t.notifications.map (·.notification) ++ appended t a ∧
      t' = ⟨a.auditEvents, a.notificationPreferences,
        t.notifications ++ newRows now ids (appended t a), a.emailOutbox⟩ := by
  obtain ⟨a, hrecord, ht'⟩ := bind_eq_ok.mp h
  cases ht'
  obtain ⟨added, hadded⟩ := (record_delivered hrecord).kept
  refine ⟨a, hrecord, ?_, rfl⟩
  have hlength : (t.activity.notifications).length = t.notifications.length := List.length_map _
  rw [appended, ← hadded, ← hlength, List.drop_left]
  rfl

theorem map_notification_newRows {notifications : List Notification}
    (h : notifications.length ≤ ids.length) :
    (newRows now ids notifications).map (·.notification) = notifications := by
  induction notifications generalizing ids with
  | nil => cases ids <;> rfl
  | cons n notifications ih =>
    cases ids with
    | nil => exact absurd h (Nat.not_succ_le_zero _)
    | cons id ids => exact congrArg (n :: ·) (ih (Nat.le_of_succ_le_succ h))

theorem map_id_newRows_sublist (now : Timestamp) (ids : List UUID) (notifications : List Notification) :
    ((newRows now ids notifications).map (·.id)).Sublist ids := by
  induction ids generalizing notifications with
  | nil => exact List.Sublist.slnil
  | cons id ids ih =>
    cases notifications with
    | nil => exact List.nil_sublist _
    | cons n notifications => exact (ih notifications).cons_cons id

theorem readAt_newRows {notifications : List Notification} :
    ∀ n ∈ newRows now ids notifications, n.readAt = none := by
  intro n hn
  rw [newRows, List.mem_iff_getElem?] at hn
  obtain ⟨i, hi⟩ := hn
  rw [List.getElem?_zipWith] at hi
  split at hi
  · cases hi
    rfl
  · exact nomatch hi

/-- What a delivery leaves is what the activity service leaves. -/
theorem deliver_activity (hfresh : FreshIds t ids e effects)
    (h : deliver t now ids e effects = .ok t') : record e effects t.activity = .ok t'.activity := by
  obtain ⟨a, hrecord, hrows, rfl⟩ := deliver_eq_ok h
  rw [hrecord, InboxTables.activity, List.map_append,
    map_notification_newRows (hfresh.2.2 a hrecord), ← hrows]

/-- **An event that is in the ledger is not delivered again**, whatever its effects are. -/
theorem deliver_of_recorded (h : ∃ r ∈ t.auditEvents, r.event = e.event) :
    deliver t now ids e effects = .ok t := by
  obtain ⟨r, hr, hevent⟩ := h
  have hrecord : record e effects t.activity = .ok t.activity := by
    rw [record, if_pos]
    exact ⟨r, hr, congrArg buildEventKey hevent⟩
  have happended : appended t t.activity = [] := by
    rw [appended, List.drop_eq_nil_iff]
    exact (List.length_map _).le
  rw [deliver, hrecord, ok_bind, happended]
  simp [newRows, InboxTables.activity]

end Steps

/-! ## The life of a row -/

/-- What becomes of a row while the users of `acted` mark theirs. -/
structure LaterBy (acted : UUID → Prop) (n n' : NotificationRow) : Prop where
  id : n'.id = n.id
  notification : n'.notification = n.notification
  createdAt : n'.createdAt = n.createdAt
  readAt : n'.readAt = n.readAt ∨ n.readAt = none ∧ acted n.notification.recipientId

section Life

variable {acted acted' : UUID → Prop} {n n' n'' : NotificationRow} {t : InboxTables}

theorem LaterBy.refl (acted : UUID → Prop) (n : NotificationRow) : LaterBy acted n n :=
  ⟨rfl, rfl, rfl, Or.inl rfl⟩

theorem LaterBy.mono (h : LaterBy acted n n') (himp : ∀ u, acted u → acted' u) :
    LaterBy acted' n n' :=
  ⟨h.id, h.notification, h.createdAt, h.readAt.imp_right fun hread ↦ ⟨hread.1, himp _ hread.2⟩⟩

theorem LaterBy.trans (h : LaterBy acted n n') (h' : LaterBy acted n' n'') : LaterBy acted n n'' := by
  refine ⟨h'.id.trans h.id, h'.notification.trans h.notification, h'.createdAt.trans h.createdAt, ?_⟩
  rcases h.readAt with hkept | hread
  · rw [← hkept, ← h.notification]
    exact h'.readAt
  · exact Or.inr hread

/-- An update of some rows of one recipient, which leaves a time that is set. -/
theorem laterBy_updateWhere {p : NotificationRow → Prop} [DecidablePred p]
    {f : NotificationRow → NotificationRow} {u : UUID}
    (hf : ∀ n, p n → LaterBy (u = ·) n (f n)) (hn : n ∈ t.notifications) :
    ∃ n' ∈ updateWhere p f t.notifications, LaterBy (u = ·) n n' := by
  by_cases hp : p n
  · exact ⟨f n, mem_updateWhere_of_mem hn hp, hf n hp⟩
  · exact ⟨n, mem_updateWhere_of_not hn hp, LaterBy.refl _ n⟩

/-- One call keeps every row, and only a call of its recipient can mark it. -/
theorem laterBy_step (input : InboxInput) (hn : n ∈ t.notifications) :
    ∃ n' ∈ (inboxMachine.step t input).2.notifications, LaterBy (marks input = some ·) n n' := by
  cases input with
  | deliver now ids e effects =>
    change ∃ n' ∈ (inboxStep t (.deliver now ids e effects)).2.notifications, _
    rw [inboxStep]
    split
    · next t' hdeliver =>
      obtain ⟨a, -, -, rfl⟩ := deliver_eq_ok hdeliver
      exact ⟨n, List.mem_append_left _ hn, LaterBy.refl _ n⟩
    · exact ⟨n, hn, LaterBy.refl _ n⟩
  | prefer userId item => exact ⟨n, hn, LaterBy.refl _ n⟩
  | markRead now recipientId notificationId =>
    have hmark : ∀ m : NotificationRow, m.id = notificationId ∧ Of recipientId m →
        LaterBy (recipientId = ·) m { m with readAt := some (m.readAt.getD now) } := by
      intro m hm
      refine ⟨rfl, rfl, rfl, ?_⟩
      cases hread : m.readAt with
      | some time => exact Or.inl rfl
      | none => exact Or.inr ⟨rfl, hm.2.symm⟩
    obtain ⟨n', hn', hlater⟩ := laterBy_updateWhere hmark hn
    exact ⟨n', hn', hlater.mono fun u hu ↦ congrArg some hu⟩
  | markAllRead now recipientId =>
    have hmark : ∀ m : NotificationRow, Unread recipientId m →
        LaterBy (recipientId = ·) m { m with readAt := some now } :=
      fun m hm ↦ ⟨rfl, rfl, rfl, Or.inr ⟨hm.2, hm.1.symm⟩⟩
    obtain ⟨n', hn', hlater⟩ := laterBy_updateWhere hmark hn
    exact ⟨n', hn', hlater.mono fun u hu ↦ congrArg some hu⟩
  | unread recipientId => exact ⟨n, hn, LaterBy.refl _ n⟩

theorem laterBy_run (inputs : List InboxInput) (hn : n ∈ t.notifications) :
    ∃ n' ∈ (inboxMachine.exec t inputs).notifications,
      LaterBy (fun u ↦ ∃ input ∈ inputs, marks input = some u) n n' := by
  induction inputs generalizing t n with
  | nil => exact ⟨n, hn, LaterBy.refl _ n⟩
  | cons input inputs ih =>
    -- the row as the first call leaves it is where the rest begins
    obtain ⟨m, hm, hstep⟩ := laterBy_step input hn
    obtain ⟨n', hn', hrest⟩ := ih hm
    refine ⟨n', hn', (hstep.mono fun u hu ↦ ?_).trans (hrest.mono fun u hu ↦ ?_)⟩
    · exact ⟨input, List.mem_cons_self, hu⟩
    · obtain ⟨i, hi, hmarks⟩ := hu
      exact ⟨i, List.mem_cons_of_mem _ hi, hmarks⟩

end Life

/-- The ids stay distinct. -/
theorem nodup_ids_step {t : InboxTables} (h : (t.notifications.map (·.id)).Nodup) {input : InboxInput}
    (henabled : inboxMachine.enabled t input) :
    ((inboxMachine.step t input).2.notifications.map (·.id)).Nodup := by
  cases input with
  | deliver now ids e effects =>
    change ((inboxStep t _).2.notifications.map _).Nodup
    rw [inboxStep]
    split
    · next t' hdeliver =>
      obtain ⟨a, -, -, rfl⟩ := deliver_eq_ok hdeliver
      have hsub := map_id_newRows_sublist now ids (appended t a)
      rw [List.map_append]
      refine h.append (henabled.1.sublist hsub) fun id hid hnew ↦ ?_
      obtain ⟨n, hn, rfl⟩ := List.mem_map.mp hid
      exact henabled.2.1 n hn (hsub.subset hnew)
    · exact h
  | prefer userId item => exact h
  | markRead now recipientId notificationId =>
    change ((updateWhere _ _ t.notifications).map _).Nodup
    rw [map_updateWhere_of_forall]
    · exact h
    · exact fun _ ↦ rfl
  | markAllRead now recipientId =>
    change ((updateWhere _ _ t.notifications).map _).Nodup
    rw [map_updateWhere_of_forall]
    · exact h
    · exact fun _ ↦ rfl
  | unread recipientId => exact h

/-- **A notification keeps its row, and only its recipient marks it.** Whatever a run does after a
notification was inserted, there is one row with its id, with the same content; and if the time at which
it was read is another one, it was not read before and its recipient has marked it since. -/
theorem notification_kept {preferences : List NotificationPreference} {before after : List InboxInput}
    (h : inboxMachine.Legal (emptyInbox preferences) (before ++ after)) {n : NotificationRow}
    (hn : n ∈ (inboxMachine.exec (emptyInbox preferences) before).notifications) :
    ∃ n' ∈ (inboxMachine.exec (emptyInbox preferences) (before ++ after)).notifications,
      (∀ m ∈ (inboxMachine.exec (emptyInbox preferences) (before ++ after)).notifications,
        m.id = n.id → m = n') ∧
      n'.id = n.id ∧ n'.notification = n.notification ∧ n'.createdAt = n.createdAt ∧
        (n'.readAt ≠ n.readAt → n.readAt = none ∧
          ∃ input ∈ after, marks input = some n.notification.recipientId) := by
  have hids : ((inboxMachine.exec (emptyInbox preferences) (before ++ after)).notifications.map
      (·.id)).Nodup :=
    Machine.Along.invariant (P := fun t : InboxTables ↦ (t.notifications.map (·.id)).Nodup) h
      List.nodup_nil fun _ _ hnodup henabled ↦ nodup_ids_step hnodup henabled
  rw [Machine.exec_append] at hids ⊢
  obtain ⟨n', hn', hlater⟩ := laterBy_run after hn
  refine ⟨n', hn', fun m hm hid ↦ ?_, hlater.id, hlater.notification, hlater.createdAt, fun hne ↦ ?_⟩
  · exact eq_of_key_eq hids hm hn' (hid.trans hlater.id.symm)
  · exact hlater.readAt.resolve_left hne

/-- A friend request to the second user. -/
def friendRequest (id : UUID) : InboxInput :=
  .deliver 5 [id] ⟨.friendship ⟨.requested, EventIdentity.requested_mem⟩ 7 2, some 1, none, none⟩
    [⟨[2], "friend_request", "friend_request", 7, "respond_friend_request", "Title", "Body",
      "friend_request", none⟩]

theorem notification_kept_of_run :
    let inputs : List InboxInput := [friendRequest 9] ++ [.markAllRead 6 2, .markRead 7 2 9]
    ∃ n' ∈ (inboxMachine.exec (emptyInbox []) inputs).notifications,
      n'.id = 9 ∧ n'.notification.title = "Title" := by
  intro inputs
  have hlegal : inboxMachine.Legal (emptyInbox []) inputs := by decide +kernel
  obtain ⟨n', hn', -, hid, hnotification, -⟩ := @notification_kept [] [friendRequest 9] _ hlegal
    ⟨9, ⟨2, "friend_request", some 1, "friend_request", 7, "respond_friend_request", "Title", "Body",
      channelDedupeKey (buildEventKey (.friendship ⟨.requested, by decide⟩ 7 2)) 2 .inApp⟩, 5, none⟩
    (by decide +kernel)
  exact ⟨n', hn', hid, by rw [hnotification]⟩

/-! ## Which notifications there are -/

/-- The keys of the notifications. -/
def keys (t : InboxTables) : List (UUID × String) := t.activity.notifications.map noticeKey

/-- The event is in the ledger. -/
def Recorded (t : InboxTables) (e : AuditEvent) : Prop := ∃ r ∈ t.auditEvents, r.event = e.event

instance (t : InboxTables) (e : AuditEvent) : Decidable (Recorded t e) :=
  inferInstanceAs (Decidable (∃ r ∈ t.auditEvents, r.event = e.event))

/-- The notifications that an event gives rise to when it is recorded in a state. -/
def Notifies (t : InboxTables) (e : AuditEvent) (effects : List NotificationEffect)
    (k : UUID × String) : Prop :=
  ∃ effect ∈ effects, ∃ u ∈ reached t.notificationPreferences effect,
    k = (u, channelDedupeKey (effect.dedupeKey.getD e.eventKey) u .inApp)

section Keys

variable {t t' : InboxTables} {now : Timestamp} {ids : List UUID} {e : AuditEvent}
  {effects : List NotificationEffect} {k : UUID × String}

/-- An update of read times leaves the keys. -/
theorem keys_updateWhere {p : NotificationRow → Prop} [DecidablePred p]
    {f : NotificationRow → NotificationRow} (hf : ∀ n, (f n).notification = n.notification) :
    keys { t with notifications := updateWhere p f t.notifications } = keys t := by
  rw [keys, keys, InboxTables.activity, map_updateWhere_of_forall hf]
  rfl

/-- A call that delivers nothing. -/
theorem or_delivery_iff {p : Prop} {input : InboxInput}
    {Q : Timestamp → List UUID → AuditEvent → List NotificationEffect → Prop}
    (h : ∀ now ids e effects, input ≠ .deliver now ids e effects) :
    (p ∨ ∃ now ids e effects, input = .deliver now ids e effects ∧ Q now ids e effects) ↔ p :=
  or_iff_left fun ⟨now, ids, e, effects, hinput, _⟩ ↦ h now ids e effects hinput

/-- The keys after one call: only the first delivery of an event adds some. -/
theorem mem_keys_step (input : InboxInput) (henabled : inboxMachine.enabled t input) :
    k ∈ keys (inboxMachine.step t input).2 ↔ k ∈ keys t ∨
      ∃ now ids e effects, input = .deliver now ids e effects ∧
        (inboxMachine.step t input).1 = .delivered ∧ ¬Recorded t e ∧ Notifies t e effects k := by
  cases input with
  | deliver now ids e effects =>
    change k ∈ keys (inboxStep t _).2 ↔ _ ∨ ∃ now' ids' e' effects', _ ∧ (inboxStep t _).1 = _ ∧ _
    simp only [inboxStep, InboxInput.deliver.injEq]
    cases hdeliver : deliver t now ids e effects with
    | error error =>
      refine ⟨Or.inl, fun hk ↦ hk.elim id ?_⟩
      rintro ⟨_, _, _, _, -, hreply, -⟩
      exact nomatch hreply
    | ok t' =>
      by_cases hrecorded : Recorded t e
      -- an event of before: nothing is added, and it is no first delivery
      · rw [deliver_of_recorded hrecorded] at hdeliver
        cases hdeliver
        refine ⟨Or.inl, fun hk ↦ hk.elim id ?_⟩
        rintro ⟨_, _, _, _, ⟨rfl, rfl, rfl, rfl⟩, -, hnew, -⟩
        exact absurd hrecorded hnew
      · have hkeys := record_keys (k := k) (deliver_activity henabled hdeliver)
          fun r hr hevent ↦ hrecorded ⟨r, hr, hevent⟩
        refine hkeys.trans (or_congr_right ⟨fun hk ↦ ?_, ?_⟩)
        · exact ⟨now, ids, e, effects, ⟨rfl, rfl, rfl, rfl⟩, rfl, hrecorded, hk⟩
        · rintro ⟨_, _, _, _, ⟨rfl, rfl, rfl, rfl⟩, -, -, hk⟩
          exact hk
  | prefer userId item => exact (or_delivery_iff (by rintro _ _ _ _ ⟨⟩)).symm
  | markRead now recipientId notificationId =>
    rw [or_delivery_iff (by rintro _ _ _ _ ⟨⟩)]
    exact iff_of_eq (congrArg (k ∈ ·) (keys_updateWhere fun _ ↦ rfl))
  | markAllRead now recipientId =>
    rw [or_delivery_iff (by rintro _ _ _ _ ⟨⟩)]
    exact iff_of_eq (congrArg (k ∈ ·) (keys_updateWhere fun _ ↦ rfl))
  | unread recipientId => exact (or_delivery_iff (by rintro _ _ _ _ ⟨⟩)).symm

/-- A delivery in a run that was the first of its event. -/
structure FirstDelivery (start : InboxTables) (inputs before after : List InboxInput) (e : AuditEvent)
    (effects : List NotificationEffect) : Prop where
  split : ∃ now ids, inputs = before ++ .deliver now ids e effects :: after ∧
    (inboxMachine.step (inboxMachine.exec start before) (.deliver now ids e effects)).1 = .delivered
  first : ¬Recorded (inboxMachine.exec start before) e

/-- **The keys after a run**: those of the first deliveries, for whom wanted them at the time. -/
theorem mem_keys_run {inputs : List InboxInput} (h : inboxMachine.Legal t inputs) :
    k ∈ keys (inboxMachine.exec t inputs) ↔ k ∈ keys t ∨ ∃ before after e effects,
      FirstDelivery t inputs before after e effects ∧
        Notifies (inboxMachine.exec t before) e effects k := by
  induction inputs generalizing t with
  | nil =>
    refine ⟨Or.inl, fun hk ↦ hk.elim id ?_⟩
    rintro ⟨before, after, e, effects, ⟨⟨now, ids, hsplit, -⟩, -⟩, -⟩
    exact absurd hsplit.symm (List.append_ne_nil_of_right_ne_nil _ (List.cons_ne_nil _ _))
  | cons input inputs ih =>
    rw [Machine.exec_cons, ih h.2, mem_keys_step input h.1, or_assoc]
    refine or_congr_right ⟨?_, ?_⟩
    -- the first delivery is the first call or one of the rest
    · rintro (⟨now, ids, e, effects, rfl, hreply, hnew, hk⟩ |
        ⟨before, after, e, effects, ⟨⟨now, ids, rfl, hreply⟩, hnew⟩, hk⟩)
      · exact ⟨[], inputs, e, effects, ⟨⟨now, ids, rfl, hreply⟩, hnew⟩, hk⟩
      · exact ⟨input :: before, after, e, effects, ⟨⟨now, ids, rfl, hreply⟩, hnew⟩, hk⟩
    · rintro ⟨before, after, e, effects, ⟨⟨now, ids, hsplit, hreply⟩, hnew⟩, hk⟩
      cases before with
      | nil =>
        cases hsplit
        exact Or.inl ⟨now, ids, e, effects, rfl, hreply, hnew, hk⟩
      | cons first before =>
        cases hsplit
        exact Or.inr ⟨before, after, e, effects, ⟨⟨now, ids, rfl, hreply⟩, hnew⟩, hk⟩

theorem nodup_keys_step (h : (keys t).Nodup) (input : InboxInput)
    (henabled : inboxMachine.enabled t input) : (keys (inboxMachine.step t input).2).Nodup := by
  cases input with
  | deliver now ids e effects =>
    change (keys (inboxStep t _).2).Nodup
    rw [inboxStep]
    split
    · next t' hdeliver => exact (record_delivered (deliver_activity henabled hdeliver)).unique h
    · exact h
  | prefer userId item => exact h
  | markRead now recipientId notificationId =>
    change (keys { t with notifications := updateWhere _ _ _ }).Nodup
    rw [keys_updateWhere]
    · exact h
    · exact fun _ ↦ rfl
  | markAllRead now recipientId =>
    change (keys { t with notifications := updateWhere _ _ _ }).Nodup
    rw [keys_updateWhere]
    · exact h
    · exact fun _ ↦ rfl
  | unread recipientId => exact h

/-- The events of the ledger after one call. -/
theorem recorded_step (input : InboxInput) :
    Recorded (inboxMachine.step t input).2 e ↔ Recorded t e ∨
      ∃ now ids e' effects, input = .deliver now ids e' effects ∧
        (inboxMachine.step t input).1 = .delivered ∧ e'.event = e.event := by
  cases input with
  | deliver now ids e' effects =>
    change Recorded (inboxStep t _).2 e ↔ _ ∨ ∃ now' ids' e'' effects', _ ∧ (inboxStep t _).1 = _ ∧ _
    simp only [inboxStep, InboxInput.deliver.injEq]
    cases hdeliver : deliver t now ids e' effects with
    | error error =>
      refine ⟨Or.inl, fun h ↦ h.elim id ?_⟩
      rintro ⟨_, _, _, _, -, hreply, -⟩
      exact nomatch hreply
    | ok t' =>
      obtain ⟨a, hrecord, -, rfl⟩ := deliver_eq_ok hdeliver
      have hledger : a.auditEvents = appendEvent e' t.auditEvents := record_auditEvents hrecord
      have hmem : (∃ r ∈ a.auditEvents, r.event = e.event) ↔ Recorded t e ∨ e'.event = e.event := by
        rw [hledger, appendEvent, insertIgnore]
        split
        · next hclash =>
          obtain ⟨r, hr, hkey⟩ := hclash
          refine ⟨Or.inl, fun h ↦ h.elim id fun hevent ↦ ?_⟩
          exact ⟨r, hr, (buildEventKey_injective hkey).trans hevent⟩
        · simp [Recorded, or_and_right, exists_or]
      refine hmem.trans (or_congr_right ⟨fun hevent ↦ ?_, ?_⟩)
      · exact ⟨now, ids, e', effects, ⟨rfl, rfl, rfl, rfl⟩, rfl, hevent⟩
      · rintro ⟨_, _, _, _, ⟨rfl, rfl, rfl, rfl⟩, -, hevent⟩
        exact hevent
  | prefer userId item => exact (or_delivery_iff (by rintro _ _ _ _ ⟨⟩)).symm
  | markRead now recipientId notificationId =>
    exact (or_delivery_iff (by rintro _ _ _ _ ⟨⟩)).symm
  | markAllRead now recipientId =>
    exact (or_delivery_iff (by rintro _ _ _ _ ⟨⟩)).symm
  | unread recipientId => exact (or_delivery_iff (by rintro _ _ _ _ ⟨⟩)).symm

/-- The ledger after a run: what was there, and what was delivered. -/
theorem recorded_run (inputs : List InboxInput) :
    Recorded (inboxMachine.exec t inputs) e ↔ Recorded t e ∨
      ∃ now ids e' effects, (.deliver now ids e' effects, .delivered) ∈ inboxMachine.history t inputs ∧
        e'.event = e.event := by
  induction inputs generalizing t with
  | nil => simp [Machine.history]
  | cons input inputs ih =>
    rw [Machine.exec_cons, ih, recorded_step, or_assoc, Machine.history]
    refine or_congr_right ⟨?_, ?_⟩
    · rintro (⟨now, ids, e', effects, rfl, hreply, hevent⟩ | ⟨now, ids, e', effects, hmem, hevent⟩)
      · exact ⟨now, ids, e', effects, hreply ▸ List.mem_cons_self, hevent⟩
      · exact ⟨now, ids, e', effects, List.mem_cons_of_mem _ hmem, hevent⟩
    · rintro ⟨now, ids, e', effects, hmem, hevent⟩
      rcases List.mem_cons.mp hmem with heq | hmem
      · obtain ⟨rfl, hreply⟩ := Prod.mk.inj heq
        exact Or.inl ⟨now, ids, e', effects, rfl, hreply.symm, hevent⟩
      · exact Or.inr ⟨now, ids, e', effects, hmem, hevent⟩

/-- **Every notification is delivered once.** After any run there is one notification for each event,
effect and recipient such that the first delivery of the event named the recipient, who wanted the kind
of the effect at that moment, and there is no other. A delivery is the first of its event unless an
earlier one returned, and then it changes nothing. -/
theorem delivered_once {preferences : List NotificationPreference} {inputs : List InboxInput}
    (h : inboxMachine.Legal (emptyInbox preferences) inputs) :
    (keys (inboxMachine.exec (emptyInbox preferences) inputs)).Nodup ∧
      (∀ k, k ∈ keys (inboxMachine.exec (emptyInbox preferences) inputs) ↔
        ∃ before after e effects, FirstDelivery (emptyInbox preferences) inputs before after e effects ∧
          Notifies (inboxMachine.exec (emptyInbox preferences) before) e effects k) ∧
      ∀ before now ids e effects after, inputs = before ++ .deliver now ids e effects :: after →
        (Recorded (inboxMachine.exec (emptyInbox preferences) before) e ↔
          ∃ now' ids' e' effects', (.deliver now' ids' e' effects', .delivered) ∈
            inboxMachine.history (emptyInbox preferences) before ∧ e'.event = e.event) ∧
        (Recorded (inboxMachine.exec (emptyInbox preferences) before) e →
          inboxMachine.step (inboxMachine.exec (emptyInbox preferences) before)
              (.deliver now ids e effects) =
            (.delivered, inboxMachine.exec (emptyInbox preferences) before)) := by
  refine ⟨?_, fun k ↦ ?_, fun before now ids e effects after _ ↦ ⟨?_, fun hrecorded ↦ ?_⟩⟩
  · exact Machine.Along.invariant (P := fun t ↦ (keys t).Nodup) h List.nodup_nil
      fun t input hnodup henabled ↦ nodup_keys_step hnodup input henabled
  · rw [mem_keys_run h]
    exact or_iff_right List.not_mem_nil
  · rw [recorded_run]
    exact or_iff_right fun ⟨_, hr, _⟩ ↦ nomatch hr
  · change inboxStep _ (.deliver now ids e effects) = _
    rw [inboxStep, deliver_of_recorded hrecorded]

/-- A second request for the same event. -/
theorem delivered_once_of_redelivery :
    let inputs : List InboxInput := [friendRequest 9, .markAllRead 6 2, friendRequest 10]
    (keys (inboxMachine.exec (emptyInbox []) inputs)).Nodup ∧
      inboxMachine.exec (emptyInbox []) inputs =
        inboxMachine.exec (emptyInbox []) [friendRequest 9, .markAllRead 6 2] := by
  intro inputs
  have hlegal : inboxMachine.Legal (emptyInbox []) inputs := by decide +kernel
  obtain ⟨hnodup, -, hdelivery⟩ := delivered_once hlegal
  have hagain := (hdelivery [friendRequest 9, .markAllRead 6 2] 5 [10] _ _ [] rfl).2 (by decide +kernel)
  have hstate := congrArg Prod.snd hagain
  exact ⟨hnodup, hstate⟩

end Keys

/-! ## The number of unread notifications -/

section Counts

variable {t : InboxTables} {u : UUID}

/-- The number of notifications of a recipient. -/
def received (t : InboxTables) (recipientId : UUID) : ℕ := rowcount (Of recipientId) t.notifications

/-- An update of the rows of another recipient. -/
theorem counts_updateWhere {p : NotificationRow → Prop} [DecidablePred p]
    {f : NotificationRow → NotificationRow} {v : UUID} (hp : ∀ n, p n → Of v n) (hv : v ≠ u)
    (hf : ∀ n, (f n).notification = n.notification) :
    rowcount (Unread u) (updateWhere p f t.notifications) = rowcount (Unread u) t.notifications ∧
      rowcount (Of u) (updateWhere p f t.notifications) = rowcount (Of u) t.notifications := by
  have hother : ∀ n, p n → ¬Of u n ∧ ¬Of u (f n) := by
    intro n hn
    have hof : n.notification.recipientId = v := hp n hn
    refine ⟨fun h ↦ hv (hof.symm.trans h), fun h ↦ hv (hof.symm.trans ?_)⟩
    rw [← hf n]
    exact h
  refine ⟨rowcount_updateWhere_of_disjoint fun n hn ↦ ?_, rowcount_updateWhere_of_disjoint hother⟩
  exact ⟨fun h ↦ (hother n hn).1 h.1, fun h ↦ (hother n hn).2 h.1⟩

/-- A call that marks nothing of the recipient's: what it adds is unread. -/
theorem unread_step {input : InboxInput} (h : marks input ≠ some u) :
    unread (inboxMachine.step t input).2 u + received t u =
      unread t u + received (inboxMachine.step t input).2 u := by
  cases input with
  | deliver now ids e effects =>
    change unread (inboxStep t _).2 u + _ = _ + received (inboxStep t _).2 u
    rw [inboxStep]
    split
    · next t' hdeliver =>
      obtain ⟨a, -, -, rfl⟩ := deliver_eq_ok hdeliver
      have hnew : rowcount (Unread u) (newRows now ids (appended t a)) =
          rowcount (Of u) (newRows now ids (appended t a)) := by
        refine List.countP_congr fun n hn ↦ ?_
        simp [Unread, readAt_newRows n hn]
      simp only [unread_eq_rowcount, received, rowcount, List.countP_append] at hnew ⊢
      omega
    · rfl
  | prefer userId item => rfl
  | markRead now recipientId notificationId =>
    have hne : recipientId ≠ u := fun heq ↦ h (congrArg some heq)
    have hcounts := counts_updateWhere (t := t) (p := fun n ↦ n.id = notificationId ∧ Of recipientId n)
      (f := fun n ↦ { n with readAt := some (n.readAt.getD now) }) (fun _ hn ↦ hn.2) hne fun _ ↦ rfl
    exact congrArg₂ (· + ·) hcounts.1 hcounts.2.symm
  | markAllRead now recipientId =>
    have hne : recipientId ≠ u := fun heq ↦ h (congrArg some heq)
    have hcounts := counts_updateWhere (t := t) (p := Unread recipientId)
      (f := fun n ↦ { n with readAt := some now }) (fun _ hn ↦ hn.1) hne fun _ ↦ rfl
    exact congrArg₂ (· + ·) hcounts.1 hcounts.2.symm
  | unread recipientId => rfl

theorem unread_run {inputs : List InboxInput} (h : ∀ input ∈ inputs, marks input ≠ some u) :
    unread (inboxMachine.exec t inputs) u + received t u =
      unread t u + received (inboxMachine.exec t inputs) u := by
  induction inputs generalizing t with
  | nil => rfl
  | cons input inputs ih =>
    have hone := unread_step (t := t) (h input List.mem_cons_self)
    have hrest := ih (t := (inboxMachine.step t input).2)
      fun i hi ↦ h i (List.mem_cons_of_mem _ hi)
    rw [Machine.exec_cons]
    omega

/-- **Marking everything read.** In every state the call reports the number of unread notifications
that a list reports; after it there are none, nothing has changed for anybody else, and while the
recipient marks nothing the unread ones are exactly those that arrive. -/
theorem mark_all_read_counts (t : InboxTables) (now : Timestamp) (u : UUID) :
    let t' := (inboxMachine.step t (.markAllRead now u)).2
    (inboxMachine.step t (.markAllRead now u)).1 = .marked (unread t u) ∧ unread t' u = 0 ∧
      (∀ v, v ≠ u → unread t' v = unread t v) ∧
      ∀ inputs : List InboxInput, (∀ input ∈ inputs, marks input ≠ some u) →
        unread (inboxMachine.exec t' inputs) u + received t u =
          received (inboxMachine.exec t' inputs) u := by
  intro t'
  have hrows : t'.notifications =
      updateWhere (Unread u) (fun n ↦ { n with readAt := some now }) t.notifications := rfl
  have hnone : unread t' u = 0 := by
    rw [unread_eq_rowcount, hrows, rowcount_eq_zero]
    intro n hn hunread
    rcases mem_updateWhere.mp hn with ⟨m, -, -, rfl⟩ | ⟨-, hread⟩
    · exact nomatch hunread.2
    · exact hread hunread
  have hreceived : received t' u = received t u := by
    rw [received, received, hrows, rowcount, rowcount, updateWhere, List.countP_map]
    refine List.countP_congr fun n _ ↦ ?_
    have hof : Of u (if Unread u n then { n with readAt := some now } else n) ↔ Of u n := by
      split <;> rfl
    simp only [Function.comp_apply, decide_eq_true_eq]
    exact hof
  refine ⟨rfl, hnone, fun v hv ↦ ?_, fun inputs hinputs ↦ ?_⟩
  · have hcounts := counts_updateWhere (t := t) (p := Unread u)
      (f := fun n ↦ { n with readAt := some now }) (fun _ hn ↦ hn.1) hv.symm fun _ ↦ rfl
    exact hcounts.1
  · have hrun := unread_run (t := t') hinputs
    omega

end Counts

end Inbox

end MeetingRag
