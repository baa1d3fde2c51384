import Mathlib.Data.List.DropRight
import MeetingRag.Activity.Policy

/-!
# The arguments of an event key

`build_event_key` takes an event type and keyword arguments. It refuses a type that it does not know
and an argument that is missing, and spells the key from a constant for every type and the arguments it
asks for.

Two calls that build one key name one event type and agree on every argument that the type asks for:
the parts of two types differ in number or in a constant, and within a type every argument is a field
of the key.
-/

open Outcome Text

namespace MeetingRag

/-- `SUPPORTED_AUDIT_EVENT_TYPES`. -/
def supportedAuditEventTypes : List String :=
  ["account.registered", "profile.updated", "notification_preferences.updated",
    "friendship.requested", "friendship.accepted", "friendship.rejected", "room.created",
    "room.member_added", "room.member_left", "session.created", "session.closed",
    "session.retry_requested", "session.processing", "session.ready", "session.needs_attention",
    "session.reopened", "session.archived", "submission.created", "submission.revised",
    "submission.deleted", "source_revision.ready", "source_revision.failed",
    "source_revision.retry_requested", "suggestion.created", "suggestion.accepted",
    "suggestion.rejected", "comment.created", "comment.updated", "comment.deleted",
    "merged_document.saved", "merged_document.version_created"]

/-- A value that identifies a change. -/
inductive IdentityValue
  | uuid (u : UUID)
  | number (n : ℕ)
deriving DecidableEq, Repr

/-- `str(value)`. -/
def IdentityValue.str : IdentityValue → String
  | uuid u => u.str
  | number n => decimal n

/-- A part of an event key: a constant, or a value behind a mark. -/
inductive KeyPart
  | text (s : String)
  | value (mark name : String)
deriving DecidableEq, Repr

/-- `event_type.rsplit(".", 1)[1]`. -/
def eventTypeState (eventType : String) : String :=
  String.ofList (eventType.toList.rtakeWhile (· ≠ '.'))

/-- `event_type.startswith(family)`. -/
def InFamily (family eventType : String) : Prop := family.toList <+: eventType.toList

instance (family eventType : String) : Decidable (InFamily family eventType) :=
  inferInstanceAs (Decidable (family.toList <+: eventType.toList))

/-- The key of a supported type, between its colons. -/
def keyParts (eventType : String) (reconciled : Bool) : List KeyPart :=
  let state := KeyPart.text (eventTypeState eventType)
  if eventType = "account.registered" then
    [.text "account", .value "" "user_id", .text "registered"]
  else if eventType = "profile.updated" then
    [.text "profile", .value "" "user_id", .value "v" "profile_version"]
  else if eventType = "notification_preferences.updated" then
    [.text "preferences", .value "" "user_id", .value "v" "preferences_version"]
  else if InFamily "friendship." eventType then
    [.text "friendship", .value "" "friendship_id", state, .text "aud",
      .value "" "audience_user_id"]
  else if eventType = "room.created" then
    [.text "room", .value "" "room_id", .text "created"]
  else if eventType = "room.member_added" then
    [.text "room", .value "" "room_id", .text "member", .value "" "user_id", .text "added"]
  else if eventType = "room.member_left" then
    [.text "room", .value "" "room_id", .text "member", .value "" "user_id", .text "left"]
  else if eventType = "session.created" then
    [.text "session", .value "" "session_id", .text "created"]
  else if eventType = "session.archived" then
    [.text "session", .value "" "session_id", .text "archived"]
  else if eventType = "session.retry_requested" then
    [.text "session", .value "" "session_id", .text "epoch", .value "" "generation_epoch",
      .text "retry", .value "" "retry_ordinal"]
  else if InFamily "session." eventType then
    [.text "session", .value "" "session_id", .value "state-v" "state_version", state]
  else if eventType = "submission.deleted" then
    [.text "submission", .value "" "submission_id", .text "deleted"]
  else if InFamily "submission." eventType then
    [.text "submission", .value "" "submission_id", .text "revision", .value "" "revision_no", state]
  else if eventType = "source_revision.retry_requested" then
    [.text "revision", .value "" "revision_id", .text "retry", .value "" "retry_nonce",
      .text "requested"]
  else if InFamily "source_revision." eventType then
    if reconciled then
      [.text "revision", .value "" "revision_id", .text "reconcile", .value "" "job_id", state]
    else
      [.text "revision", .value "" "revision_id", .text "attempt", .value "" "job_attempt_id", state]
  else if eventType = "suggestion.created" then
    [.text "suggestion", .value "" "suggestion_id", .text "created"]
  else if InFamily "suggestion." eventType then
    [.text "suggestion", .value "" "suggestion_id", .value "v" "version", state]
  else if eventType = "merged_document.saved" then
    [.text "merged_document", .value "" "session_id", .text "snapshot", .value "" "snapshot_id",
      .value "v" "version", .text "saved"]
  else if eventType = "merged_document.version_created" then
    [.text "merged_document_version", .value "" "version_id", .text "created"]
  else
    [.text "comment", .value "" "comment_id", .value "v" "version", state]

/-- The arguments of `build_event_key`. -/
structure EventCall where
  eventType : String
  identity : String → Option IdentityValue
  reconciled : Bool

namespace EventCall

/-- `required`. -/
def required (call : EventCall) (name : String) : Except Error String :=
  match call.identity name with
  | none => .error (.valueError ("missing event identity: " ++ name))
  | some v => .ok v.str

/-- A part of the key, formatted. -/
def field (call : EventCall) : KeyPart → Except Error String
  | .text s => .ok s
  | .value mark name => do
    let v ← call.required name
    .ok (mark ++ v)

/-- `build_event_key`. -/
def eventKey (call : EventCall) : Except Error String := do
  require (call.eventType ∈ supportedAuditEventTypes) (.valueError "unsupported audit event type")
  let fields ← (keyParts call.eventType call.reconciled).mapM call.field
  .ok (join ":" fields)

/-- The arguments that a call is asked for. -/
def identityNames (call : EventCall) : List String :=
  (keyParts call.eventType call.reconciled).filterMap fun
    | .text _ => none
    | .value _ name => some name

end EventCall

/-! ## Fields -/

theorem IdentityValue.colonless (v : IdentityValue) : Colonless v.str := by
  cases v with
  | uuid u => exact colonless_str u
  | number n => exact colonless_decimal n

/-- A UUID has hyphens and a number has none. -/
theorem IdentityValue.str_injective {v w : IdentityValue} (h : v.str = w.str) : v = w := by
  have hne : ∀ (u : UUID) (n : ℕ), u.str ≠ decimal n := by
    intro u n heq
    have hhyphen : '-' ∈ u.str.toList := by
      rw [UUID.str, String.toList_ofList]
      simp [UUID.chars]
    have hdigit := isDigit_of_mem_decimal (heq ▸ hhyphen)
    exact absurd hdigit (by decide)
  cases v with
  | uuid u =>
    cases w with
    | uuid u' => exact congrArg uuid (UUID.str_injective h)
    | number n => exact absurd h (hne u n)
  | number n =>
    cases w with
    | uuid u => exact absurd h.symm (hne u n)
    | number n' => exact congrArg number (decimal_injective h)

/-- The constants of a part hold no colon. -/
def KeyPart.Plain : KeyPart → Prop
  | text s => Colonless s
  | value mark _ => Colonless mark

instance : DecidablePred KeyPart.Plain
  | .text s => inferInstanceAs (Decidable (Colonless s))
  | .value mark _ => inferInstanceAs (Decidable (Colonless mark))

/-- Two parts that are never formatted alike. -/
def KeyPart.clash : KeyPart → KeyPart → Bool
  | text s, text s' => s ≠ s'
  | _, _ => false

/-- Two lists of parts that differ in length or in a constant. -/
def Separated (ps qs : List KeyPart) : Prop :=
  ps.length ≠ qs.length ∨ (ps.zip qs).any (fun p ↦ p.1.clash p.2) = true

instance (ps qs : List KeyPart) : Decidable (Separated ps qs) :=
  inferInstanceAs (Decidable (_ ∨ _))

theorem plain_keyParts : ∀ t ∈ supportedAuditEventTypes, ∀ r, ∀ p ∈ keyParts t r, p.Plain := by
  decide +kernel

theorem keyParts_ne_nil : ∀ t ∈ supportedAuditEventTypes, ∀ r, keyParts t r ≠ [] := by
  decide +kernel

/-- The parts of a type are its own. -/
theorem keyParts_separated : ∀ t ∈ supportedAuditEventTypes, ∀ t' ∈ supportedAuditEventTypes, ∀ r r',
    t = t' ∧ keyParts t r = keyParts t' r' ∨ Separated (keyParts t r) (keyParts t' r') := by
  decide +kernel

namespace EventCall

variable {c d : EventCall}

theorem field_eq_ok {p : KeyPart} {s : String} : c.field p = .ok s ↔
    match p with
    | .text t => t = s
    | .value mark name => ∃ v, c.identity name = some v ∧ mark ++ v.str = s := by
  cases p with
  | text t => exact ⟨Except.ok.inj, congrArg Except.ok⟩
  | value mark name =>
    rw [field, required]
    cases h : c.identity name with
    | none =>
      refine iff_of_false nofun ?_
      rintro ⟨v, hv, -⟩
      exact nomatch h.symm.trans hv
    | some v =>
      constructor
      · exact fun heq ↦ ⟨v, h, Except.ok.inj heq⟩
      · rintro ⟨w, hw, rfl⟩
        rw [Option.some.inj (h.symm.trans hw)]
        rfl

theorem colonless_field {p : KeyPart} (hp : p.Plain) {s : String} (h : c.field p = .ok s) :
    Colonless s := by
  cases p with
  | text t => exact field_eq_ok.mp h ▸ hp
  | value mark name =>
    obtain ⟨v, -, rfl⟩ := field_eq_ok.mp h
    exact colonless_append hp v.colonless

theorem eventKey_eq_ok {k : String} : c.eventKey = .ok k ↔ c.eventType ∈ supportedAuditEventTypes ∧
    ∃ fields, List.Forall₂ (fun p s ↦ c.field p = .ok s) (keyParts c.eventType c.reconciled) fields ∧
      join ":" fields = k := by
  rw [eventKey, require_bind_eq_ok, bind_eq_ok]
  simp only [mapM_eq_ok, Except.ok.injEq]

/-- Parts that differ in a constant are not formatted alike. -/
theorem not_clash {ps qs : List KeyPart} {fields : List String}
    (hps : List.Forall₂ (fun p s ↦ c.field p = .ok s) ps fields)
    (hqs : List.Forall₂ (fun p s ↦ d.field p = .ok s) qs fields) :
    (ps.zip qs).any (fun p ↦ p.1.clash p.2) = false := by
  induction hps generalizing qs with
  | nil => rfl
  | @cons p s ps fields hp _ ih =>
    cases hqs with
    | @cons q _ qs _ hq hqs =>
      rw [List.zip_cons_cons, List.any_cons, ih hqs, Bool.or_false]
      cases p with
      | value => rfl
      | text t =>
        cases q with
        | value => rfl
        | text t' =>
          have hsame : t = t' := (field_eq_ok.mp hp).trans (field_eq_ok.mp hq).symm
          exact decide_eq_false (not_not.mpr hsame)

/-- Parts that are formatted alike have the same values. -/
theorem identity_eq {ps : List KeyPart} {fields : List String}
    (hc : List.Forall₂ (fun p s ↦ c.field p = .ok s) ps fields)
    (hd : List.Forall₂ (fun p s ↦ d.field p = .ok s) ps fields) {mark name : String}
    (hname : KeyPart.value mark name ∈ ps) : c.identity name = d.identity name := by
  induction hc with
  | nil => exact absurd hname List.not_mem_nil
  | @cons p s ps fields hp _ ih =>
    cases hd with
    | cons hq hd =>
      rcases List.mem_cons.mp hname with rfl | hname
      · obtain ⟨v, hv, rfl⟩ := field_eq_ok.mp hp
        obtain ⟨w, hw, heq⟩ := field_eq_ok.mp hq
        have hchars : w.str.toList = v.str.toList := by
          have h := congrArg String.toList heq
          rwa [String.toList_append, String.toList_append, List.append_cancel_left_eq] at h
        rw [hv, hw, IdentityValue.str_injective (String.toList_inj.mp hchars)]
      · exact ih hd hname

theorem mem_identityNames {name : String} : name ∈ c.identityNames ↔
    ∃ mark, KeyPart.value mark name ∈ keyParts c.eventType c.reconciled := by
  rw [identityNames, List.mem_filterMap]
  constructor
  · rintro ⟨p, hp, hname⟩
    cases p with
    | text s => exact nomatch hname
    | value mark name' => exact ⟨mark, Option.some.inj hname ▸ hp⟩
  · rintro ⟨mark, hp⟩
    exact ⟨_, hp, rfl⟩

/-- **Calls with one key name one change.** -/
theorem eventKey_inj {k : String} (hc : c.eventKey = .ok k) (hd : d.eventKey = .ok k) :
    c.eventType = d.eventType ∧ c.identityNames = d.identityNames ∧
      ∀ name ∈ c.identityNames, c.identity name = d.identity name := by
  obtain ⟨htype, fields, hfields, rfl⟩ := eventKey_eq_ok.mp hc
  obtain ⟨htype', fields', hfields', hkey⟩ := eventKey_eq_ok.mp hd
  have hplain : ∀ {e : EventCall} {fields : List String}, e.eventType ∈ supportedAuditEventTypes →
      List.Forall₂ (fun p s ↦ e.field p = .ok s) (keyParts e.eventType e.reconciled) fields →
        ∀ s ∈ fields, ':' ∉ s.toList := by
    intro e fields he hfields s hs
    obtain ⟨p, hp, hfield⟩ := exists_of_mem_mapM (mapM_eq_ok.mpr hfields) hs
    exact colonless_field (plain_keyParts _ he _ p hp) hfield
  have hnonempty : ∀ {e : EventCall} {fields : List String}, e.eventType ∈ supportedAuditEventTypes →
      List.Forall₂ (fun p s ↦ e.field p = .ok s) (keyParts e.eventType e.reconciled) fields →
        fields ≠ [] := by
    rintro e fields he hfields rfl
    exact keyParts_ne_nil _ he e.reconciled (List.forall₂_nil_right_iff.mp hfields)
  have hsame : fields' = fields := eq_of_join_eq (c := ':') (hplain htype' hfields')
    (hplain htype hfields) (hnonempty htype' hfields') (hnonempty htype hfields) hkey
  subst hsame
  rcases keyParts_separated _ htype _ htype' c.reconciled d.reconciled with ⟨ht, hparts⟩ | hlength | hclash
  · refine ⟨ht, by rw [identityNames, identityNames, hparts], fun name hname ↦ ?_⟩
    obtain ⟨mark, hmem⟩ := mem_identityNames.mp hname
    exact identity_eq hfields (hparts ▸ hfields') hmem
  · exact absurd (hfields.length_eq.trans hfields'.length_eq.symm) hlength
  · rw [not_clash hfields hfields'] at hclash
    exact nomatch hclash

end EventCall

/-! ## The calls of the services -/

namespace EventIdentity

/-- The arguments that a service passes for an event. -/
def arguments : EventIdentity → List (String × IdentityValue)
  | accountRegistered u => [("user_id", .uuid u)]
  | profileUpdated u v => [("user_id", .uuid u), ("profile_version", .number v)]
  | preferencesUpdated u v => [("user_id", .uuid u), ("preferences_version", .number v)]
  | friendship _ f u => [("friendship_id", .uuid f), ("audience_user_id", .uuid u)]
  | roomCreated r => [("room_id", .uuid r)]
  | roomMemberAdded r u => [("room_id", .uuid r), ("user_id", .uuid u)]
  | roomMemberLeft r u => [("room_id", .uuid r), ("user_id", .uuid u)]
  | sessionCreated s => [("session_id", .uuid s)]
  | sessionArchived s => [("session_id", .uuid s)]
  | sessionRetryRequested s epoch ordinal =>
    [("session_id", .uuid s), ("generation_epoch", .number epoch), ("retry_ordinal", .number ordinal)]
  | session _ s v => [("session_id", .uuid s), ("state_version", .number v)]
  | submissionDeleted s => [("submission_id", .uuid s)]
  | submission _ s no => [("submission_id", .uuid s), ("revision_no", .number no)]
  | revisionRetryRequested r nonce => [("revision_id", .uuid r), ("retry_nonce", .uuid nonce)]
  | revisionReconciled _ r job => [("revision_id", .uuid r), ("job_id", .uuid job)]
  | revision _ r attempt => [("revision_id", .uuid r), ("job_attempt_id", .uuid attempt)]
  | suggestionCreated s => [("suggestion_id", .uuid s)]
  | suggestion _ s v => [("suggestion_id", .uuid s), ("version", .number v)]
  | mergedDocumentSaved s p v =>
    [("session_id", .uuid s), ("snapshot_id", .uuid p), ("version", .number v)]
  | mergedDocumentVersionCreated v => [("version_id", .uuid v)]
  | comment _ c v => [("comment_id", .uuid c), ("version", .number v)]

/-- `reconciled=True` comes with a job instead of an attempt. -/
def isReconciled : EventIdentity → Bool
  | revisionReconciled .. => true
  | _ => false

/-- The call that builds the key of an event. -/
def call (e : EventIdentity) : EventCall :=
  ⟨e.eventType, fun name ↦ e.arguments.lookup name, e.isReconciled⟩

/-- The parts of the key of an event. -/
def parts : EventIdentity → List KeyPart
  | accountRegistered _ => [.text "account", .value "" "user_id", .text "registered"]
  | profileUpdated .. => [.text "profile", .value "" "user_id", .value "v" "profile_version"]
  | preferencesUpdated .. =>
    [.text "preferences", .value "" "user_id", .value "v" "preferences_version"]
  | friendship s .. =>
    [.text "friendship", .value "" "friendship_id", .text s.1.value, .text "aud",
      .value "" "audience_user_id"]
  | roomCreated _ => [.text "room", .value "" "room_id", .text "created"]
  | roomMemberAdded .. =>
    [.text "room", .value "" "room_id", .text "member", .value "" "user_id", .text "added"]
  | roomMemberLeft .. =>
    [.text "room", .value "" "room_id", .text "member", .value "" "user_id", .text "left"]
  | sessionCreated _ => [.text "session", .value "" "session_id", .text "created"]
  | sessionArchived _ => [.text "session", .value "" "session_id", .text "archived"]
  | sessionRetryRequested .. =>
    [.text "session", .value "" "session_id", .text "epoch", .value "" "generation_epoch",
      .text "retry", .value "" "retry_ordinal"]
  | session s .. =>
    [.text "session", .value "" "session_id", .value "state-v" "state_version", .text s.1.value]
  | submissionDeleted _ => [.text "submission", .value "" "submission_id", .text "deleted"]
  | submission s .. =>
    [.text "submission", .value "" "submission_id", .text "revision", .value "" "revision_no",
      .text s.1.value]
  | revisionRetryRequested .. =>
    [.text "revision", .value "" "revision_id", .text "retry", .value "" "retry_nonce",
      .text "requested"]
  | revisionReconciled s .. =>
    [.text "revision", .value "" "revision_id", .text "reconcile", .value "" "job_id",
      .text s.1.value]
  | revision s .. =>
    [.text "revision", .value "" "revision_id", .text "attempt", .value "" "job_attempt_id",
      .text s.1.value]
  | suggestionCreated _ => [.text "suggestion", .value "" "suggestion_id", .text "created"]
  | suggestion s .. =>
    [.text "suggestion", .value "" "suggestion_id", .value "v" "version", .text s.1.value]
  | mergedDocumentSaved .. =>
    [.text "merged_document", .value "" "session_id", .text "snapshot", .value "" "snapshot_id",
      .value "v" "version", .text "saved"]
  | mergedDocumentVersionCreated _ =>
    [.text "merged_document_version", .value "" "version_id", .text "created"]
  | comment s .. =>
    [.text "comment", .value "" "comment_id", .value "v" "version", .text s.1.value]

/-- The type of an event is supported and has the parts of its key. -/
theorem keyParts_call (e : EventIdentity) : e.eventType ∈ supportedAuditEventTypes ∧
    keyParts e.eventType e.isReconciled = e.parts := by
  -- The arguments are not looked at: a family has one case for each state, any other type one case.
  have hfamily : ∀ (states : List EventState) (P : EventState → Prop), (∀ s ∈ states, P s) →
      ∀ s : OneOf states, P s.1 := fun _ _ h s ↦ h s.1 s.2
  cases e with
  | friendship s =>
    exact hfamily _ (fun s ↦ "friendship." ++ s.value ∈ supportedAuditEventTypes ∧
      keyParts ("friendship." ++ s.value) false = [.text "friendship", .value "" "friendship_id",
        .text s.value, .text "aud", .value "" "audience_user_id"]) (by decide +kernel) s
  | session s =>
    exact hfamily _ (fun s ↦ "session." ++ s.value ∈ supportedAuditEventTypes ∧
      keyParts ("session." ++ s.value) false = [.text "session", .value "" "session_id",
        .value "state-v" "state_version", .text s.value]) (by decide +kernel) s
  | submission s =>
    exact hfamily _ (fun s ↦ "submission." ++ s.value ∈ supportedAuditEventTypes ∧
      keyParts ("submission." ++ s.value) false = [.text "submission", .value "" "submission_id",
        .text "revision", .value "" "revision_no", .text s.value]) (by decide +kernel) s
  | revisionReconciled s =>
    exact hfamily _ (fun s ↦ "source_revision." ++ s.value ∈ supportedAuditEventTypes ∧
      keyParts ("source_revision." ++ s.value) true = [.text "revision", .value "" "revision_id",
        .text "reconcile", .value "" "job_id", .text s.value]) (by decide +kernel) s
  | revision s =>
    exact hfamily _ (fun s ↦ "source_revision." ++ s.value ∈ supportedAuditEventTypes ∧
      keyParts ("source_revision." ++ s.value) false = [.text "revision", .value "" "revision_id",
        .text "attempt", .value "" "job_attempt_id", .text s.value]) (by decide +kernel) s
  | suggestion s =>
    exact hfamily _ (fun s ↦ "suggestion." ++ s.value ∈ supportedAuditEventTypes ∧
      keyParts ("suggestion." ++ s.value) false = [.text "suggestion", .value "" "suggestion_id",
        .value "v" "version", .text s.value]) (by decide +kernel) s
  | comment s =>
    exact hfamily _ (fun s ↦ "comment." ++ s.value ∈ supportedAuditEventTypes ∧
      keyParts ("comment." ++ s.value) false = [.text "comment", .value "" "comment_id",
        .value "v" "version", .text s.value]) (by decide +kernel) s
  | _ =>
    dsimp only [eventType, isReconciled, parts]
    decide +kernel

theorem mapM_parts (e : EventIdentity) : e.parts.mapM e.call.field = .ok e.keyFields := by
  cases e <;>
    simp [parts, keyFields, call, arguments, EventCall.field, EventCall.required, IdentityValue.str,
      List.lookup_cons]

/-- **The typed key is the one that `build_event_key` builds.** -/
theorem eventKey_call (e : EventIdentity) : e.call.eventKey = .ok (buildEventKey e) := by
  obtain ⟨htype, hparts⟩ := e.keyParts_call
  refine EventCall.eventKey_eq_ok.mpr ⟨htype, e.keyFields, ?_, rfl⟩
  exact mapM_eq_ok.mp (hparts.symm ▸ e.mapM_parts)

end EventIdentity

end MeetingRag
