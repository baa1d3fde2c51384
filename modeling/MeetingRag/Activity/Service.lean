import Mathlib.Data.List.Dedup
import Mathlib.Data.List.Sort
import MeetingRag.Library.Table
import MeetingRag.Activity.Policy

/-!
# The activity ledger

`ActivityService.record` appends one event to the audit ledger inside the caller's transaction and
materializes the notifications it gives rise to. The ledger deduplicates on the event key: a second
event with a key already there is not recorded, and nothing is materialized for it.

What a caller has to know is small. Whether the call returns depends on its effects alone, never on
the ledger, and the ledger it leaves is the old one with at most its own event appended.
-/

open Outcome Table Text

namespace MeetingRag

/-! ## Rows -/

/-- A row of `audit_events`. Its key and its type are spelled from the event. -/
structure AuditEvent where
  event : EventIdentity
  actorId : Option UUID
  roomId : Option UUID
  sessionId : Option UUID
deriving DecidableEq, Repr

def AuditEvent.eventKey (e : AuditEvent) : String := buildEventKey e.event

inductive Channel
  | inApp | emailIntent
deriving DecidableEq, Repr

def Channel.value : Channel → String
  | inApp => "in_app"
  | emailIntent => "email_intent"

/-- A row of `notification_preferences`. -/
structure NotificationPreference where
  userId : UUID
  kind : String
  channel : Channel
  enabled : Bool
deriving DecidableEq, Repr

/-- A row of `notifications`. -/
structure Notification where
  recipientId : UUID
  kind : String
  actorId : Option UUID
  resourceType : String
  resourceId : UUID
  actionKind : String
  title : String
  body : String
  dedupeKey : String
deriving DecidableEq, Repr

/-- A row of `email_outbox`. -/
structure OutboxEmail where
  recipientId : UUID
  notificationKind : String
  dedupeKey : String
  templateKey : String
deriving DecidableEq, Repr

/-- The tables behind the activity service. -/
structure ActivityTables where
  auditEvents : List AuditEvent
  notificationPreferences : List NotificationPreference
  notifications : List Notification
  emailOutbox : List OutboxEmail
deriving DecidableEq

structure NotificationEffect where
  recipientIds : List UUID
  kind : String
  resourceType : String
  resourceId : UUID
  actionKind : String
  title : String
  body : String
  templateKey : String
  dedupeKey : Option String
deriving DecidableEq, Repr

structure RecipientPreference where
  userId : UUID
  channels : List Channel
deriving DecidableEq, Repr

/-! ## Append -/

/-- The unique constraint of `audit_events`. -/
def auditClash (a b : AuditEvent) : Prop := a.eventKey = b.eventKey

instance : DecidableRel auditClash :=
  fun a b ↦ inferInstanceAs (Decidable (a.eventKey = b.eventKey))

/-- `INSERT INTO audit_events … ON CONFLICT(event_key) DO NOTHING`. -/
def appendEvent (e : AuditEvent) (t : List AuditEvent) : List AuditEvent :=
  insertIgnore auditClash e t

/-! ## Notifications -/

/-- The action and resource pairs of the catalog. -/
def allowedActions : List (String × String) :=
  [("respond_friend_request", "friend_request"), ("open_room", "room"),
    ("open_session", "session"), ("open_comment", "comment")]

def validateNotificationCatalog (actionKind resourceType : String) : Except Error Unit :=
  require (actionKind = "none" ∨ (actionKind, resourceType) ∈ allowedActions)
    (.valueError "unsupported notification action/resource pair")

/-- The enabled channels of each recipient, by user. -/
def snapshotPreferences (preferences : List NotificationPreference) (recipientIds : List UUID)
    (kind : String) : List RecipientPreference :=
  if kind = "friend_request" ∨ kind = "room_member_added" then
    recipientIds.dedup.map fun u ↦ ⟨u, [.inApp]⟩
  else
    (recipientIds.dedup.insertionSort fun a b ↦ a.toNat ≤ b.toNat).filterMap fun u ↦
      let channels := [Channel.inApp, Channel.emailIntent].filter fun c ↦
        preferences.any fun p ↦ p.userId = u ∧ p.kind = kind ∧ p.channel = c ∧ p.enabled = true
      if channels = [] then none else some ⟨u, channels⟩

/-- The recipients of one channel. -/
def channelRecipients (channel : Channel) (recipients : List RecipientPreference) : List UUID :=
  ((recipients.filter fun r ↦ channel ∈ r.channels).map (·.userId)).dedup

def channelDedupeKey (base : String) (recipientId : UUID) (channel : Channel) : String :=
  base ++ ":" ++ recipientId.str ++ ":" ++ channel.value

/-- Insert one notification for each in-app recipient and one outbox row for each e-mail recipient,
at most once for each key. -/
def materialize (recipients : List RecipientPreference) (effect : NotificationEffect)
    (actorId : Option UUID) (baseDedupeKey : String) (t : ActivityTables) : ActivityTables :=
  let notificationClash := fun a b : Notification ↦
    a.recipientId = b.recipientId ∧ a.dedupeKey = b.dedupeKey
  let outboxClash := fun a b : OutboxEmail ↦
    a.recipientId = b.recipientId ∧ a.dedupeKey = b.dedupeKey
  { t with
    notifications := (channelRecipients .inApp recipients).foldl (fun rows u ↦
      insertIgnore notificationClash
        { recipientId := u
          kind := effect.kind
          actorId := actorId
          resourceType := effect.resourceType
          resourceId := effect.resourceId
          actionKind := effect.actionKind
          title := effect.title
          body := effect.body
          dedupeKey := channelDedupeKey baseDedupeKey u .inApp } rows) t.notifications
    emailOutbox := (channelRecipients .emailIntent recipients).foldl (fun rows u ↦
      insertIgnore outboxClash
        { recipientId := u
          notificationKind := effect.kind
          dedupeKey := channelDedupeKey baseDedupeKey u .emailIntent
          templateKey := effect.templateKey } rows) t.emailOutbox }

/-- Materialize one effect of a recorded event. -/
def applyEffect (actorId : Option UUID) (eventKey : String) (t : ActivityTables)
    (effect : NotificationEffect) : Except Error ActivityTables := do
  validateNotificationCatalog effect.actionKind effect.resourceType
  require (¬(effect.title.length > 120 ∨ effect.body.length > 240))
    (.valueError "notification text exceeds approved bounds")
  .ok (materialize (snapshotPreferences t.notificationPreferences effect.recipientIds effect.kind)
    effect actorId (effect.dedupeKey.getD eventKey) t)

/-- Stage an audit event and its effects in the caller's transaction. -/
def record (e : AuditEvent) (effects : List NotificationEffect) (t : ActivityTables) :
    Except Error ActivityTables :=
  if ∃ r ∈ t.auditEvents, auditClash r e then .ok t
  else effects.foldlM (applyEffect e.actorId e.eventKey)
    { t with auditEvents := appendEvent e t.auditEvents }

/-! ## What a caller has to know -/

variable {e : AuditEvent} {effects : List NotificationEffect} {t t' : ActivityTables}

theorem applyEffect_auditEvents {actorId : Option UUID} {eventKey : String}
    {effect : NotificationEffect} (h : applyEffect actorId eventKey t effect = .ok t') :
    t'.auditEvents = t.auditEvents := by
  simp only [applyEffect, bind_eq_ok] at h
  obtain ⟨_, -, _, -, ht'⟩ := h
  cases ht'
  rfl

/-- **The ledger after a recorded event.** -/
theorem record_auditEvents (h : record e effects t = .ok t') :
    t'.auditEvents = appendEvent e t.auditEvents := by
  rw [record] at h
  split at h
  · next hclash =>
    cases h
    exact (insertIgnore_of_clash hclash).symm
  · refine foldlM_invariant (fun _ a ↦ a.auditEvents = appendEvent e t.auditEvents) h rfl ?_
    intro done effect a a' ha happly
    exact (applyEffect_auditEvents happly).trans ha

/-- An event without effects is always recorded or deduplicated, never refused. -/
theorem record_nil (e : AuditEvent) (t : ActivityTables) :
    record e [] t = .ok { t with auditEvents := appendEvent e t.auditEvents } := by
  rw [record]
  split
  · next hclash =>
    rw [appendEvent, insertIgnore_of_clash hclash]
  · rfl

/-- The unique key of `notifications`. -/
def noticeKey (n : Notification) : UUID × String := (n.recipientId, n.dedupeKey)

/-- A notification that an effect of the event with the key `eventKey` gives rise to. -/
structure NoticeOf (eventKey : String) (effect : NotificationEffect) (n : Notification) : Prop where
  recipient : n.recipientId ∈ effect.recipientIds
  kind : n.kind = effect.kind
  resourceId : n.resourceId = effect.resourceId
  dedupeKey :
    n.dedupeKey = channelDedupeKey (effect.dedupeKey.getD eventKey) n.recipientId .inApp

/-- The notifications before and after `effects` were staged. -/
structure Delivered (eventKey : String) (effects : List NotificationEffect)
    (old new : List Notification) : Prop where
  kept : old <+: new
  unique : (old.map noticeKey).Nodup → (new.map noticeKey).Nodup
  added : ∀ n ∈ new, n ∈ old ∨ ∃ effect ∈ effects, NoticeOf eventKey effect n

theorem Delivered.refl (eventKey : String) (effects : List NotificationEffect)
    (old : List Notification) : Delivered eventKey effects old old :=
  ⟨List.prefix_rfl, id, fun _ ↦ Or.inl⟩

/-- A channel reaches recipients of the effect only. -/
theorem mem_of_channelRecipients {preferences : List NotificationPreference}
    {recipientIds : List UUID} {kind : String} {channel : Channel} {u : UUID}
    (h : u ∈ channelRecipients channel (snapshotPreferences preferences recipientIds kind)) :
    u ∈ recipientIds := by
  rw [channelRecipients, List.mem_dedup, List.mem_map] at h
  obtain ⟨r, hr, rfl⟩ := h
  have hr := (List.mem_filter.mp hr).1
  rw [snapshotPreferences] at hr
  split at hr
  · obtain ⟨v, hv, rfl⟩ := List.mem_map.mp hr
    exact List.mem_dedup.mp hv
  · obtain ⟨v, hv, hsome⟩ := List.mem_filterMap.mp hr
    rw [List.mem_insertionSort, List.mem_dedup] at hv
    simp only at hsome
    split at hsome
    · exact nomatch hsome
    · cases hsome
      exact hv

theorem applyEffect_delivered {actorId : Option UUID} {eventKey : String}
    {effect : NotificationEffect} (h : applyEffect actorId eventKey t effect = .ok t') :
    Delivered eventKey [effect] t.notifications t'.notifications := by
  simp only [applyEffect, bind_eq_ok] at h
  obtain ⟨_, -, _, -, ht'⟩ := h
  cases ht'
  refine ⟨prefix_foldl_insertIgnore, ?_, fun n hn ↦ ?_⟩
  · exact nodup_map_foldl_insertIgnore fun a b hkey ↦ Prod.mk.inj hkey
  · rcases mem_foldl_insertIgnore hn with hn | ⟨u, hu, rfl⟩
    · exact Or.inl hn
    · exact Or.inr ⟨effect, List.mem_singleton_self effect, mem_of_channelRecipients hu, rfl, rfl, rfl⟩

/-- **The notifications after a recorded event.** -/
theorem record_delivered (h : record e effects t = .ok t') :
    Delivered e.eventKey effects t.notifications t'.notifications := by
  rw [record] at h
  split at h
  · cases h
    exact Delivered.refl _ _ _
  · refine foldlM_invariant
      (fun done a ↦ Delivered e.eventKey done t.notifications a.notifications) h
      (Delivered.refl _ _ _) ?_
    intro done effect a a' ha happly
    have hone := applyEffect_delivered happly
    refine ⟨ha.kept.trans hone.kept, hone.unique ∘ ha.unique, fun n hn ↦ ?_⟩
    rcases hone.added n hn with hn | ⟨x, hx, hnotice⟩
    · rcases ha.added n hn with hn | ⟨x, hx, hnotice⟩
      · exact Or.inl hn
      · exact Or.inr ⟨x, List.mem_append_left _ hx, hnotice⟩
    · exact Or.inr ⟨x, List.mem_append_right _ hx, hnotice⟩

end MeetingRag
