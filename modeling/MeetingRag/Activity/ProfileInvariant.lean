import MeetingRag.Activity.Profiles

/-!
# The tables of the accounts in step

Every user has one profile and one row for each key of the preference matrix, and the ledger holds the
changes of each aggregate under the consecutive versions. A registration begins this way, and every
change keeps it: it touches the row of its user alone, and its event has a key that the ledger does not
know yet, since the key spells the version.
-/

open Outcome Py Table

namespace MeetingRag

namespace Account

/-! ## Rows by key -/

/-- A row that is looked up by its key, after an update of a row by its key. -/
theorem find?_updateWhere_key {α κ : Type*} [DecidableEq κ] {key : α → κ} {f : α → α}
    (hf : ∀ a, key (f a) = key a) (k k' : κ) (rows : List α) :
    (updateWhere (fun a ↦ key a = k) f rows).find? (fun a ↦ key a = k') =
      (rows.find? fun a ↦ key a = k').map fun a ↦ if k' = k then f a else a := by
  induction rows with
  | nil => rfl
  | cons a rows ih =>
    have hcons : updateWhere (fun a ↦ key a = k) f (a :: rows) =
        (if key a = k then f a else a) :: updateWhere (fun a ↦ key a = k) f rows := rfl
    rw [hcons, List.find?_cons, List.find?_cons, ih]
    by_cases hk : key a = k <;> by_cases hk' : key a = k'
    · subst hk hk'
      simp [hf]
    · simp [hk, hf, show ¬k = k' from fun h ↦ hk' (hk.trans h)]
    · subst hk'
      simp [hk]
    · simp [hk, hk']

/-- The rows of one user among those of all. -/
theorem filter_flatMap_pair {κ β : Type*} [DecidableEq κ] {keys : List β} {users : List κ}
    (hnodup : users.Nodup) (k : κ) :
    (users.flatMap fun u ↦ keys.map fun b ↦ (u, b)).filter (·.1 = k) =
      if k ∈ users then keys.map fun b ↦ (k, b) else [] := by
  induction users with
  | nil => rfl
  | cons u users ih =>
    rw [List.nodup_cons] at hnodup
    rw [List.flatMap_cons, List.filter_append, ih hnodup.2, List.filter_map]
    by_cases hk : u = k
    · subst hk
      rw [if_neg hnodup.1]
      simp [Function.comp_def]
    · simp [Function.comp_def, hk, Ne.symm hk]

@[simp] theorem get_nil (key : PreferenceKey) : get [] key = none := rfl

theorem get_cons (item : PreferenceKey × Bool) (items : List (PreferenceKey × Bool))
    (key : PreferenceKey) :
    get (item :: items) key = if item.1 = key then some item.2 else get items key := by
  rw [get, List.find?_cons]
  by_cases h : item.1 = key <;> simp [h, get]

theorem get_eq_none {values : List (PreferenceKey × Bool)} {key : PreferenceKey} :
    get values key = none ↔ key ∉ values.map Prod.fst := by
  induction values with
  | nil => simp
  | cons item items ih =>
    rw [get_cons, List.map_cons, List.mem_cons, not_or, ← ih]
    by_cases h : item.1 = key
    · simp [h]
    · simp [h, Ne.symm h]

theorem get_eq_some {values : List (PreferenceKey × Bool)} (h : (values.map Prod.fst).Nodup)
    {key : PreferenceKey} {b : Bool} : get values key = some b ↔ (key, b) ∈ values := by
  rw [get, Option.map_eq_some_iff]
  constructor
  · rintro ⟨⟨key', b'⟩, hfind, rfl⟩
    obtain ⟨hmem, hkey⟩ := (find?_eq_some_of_key h (k := key) fun r hr ↦ of_decide_eq_true hr).mp hfind
    obtain rfl := of_decide_eq_true hkey
    exact hmem
  · intro hmem
    exact ⟨(key, b), (find?_eq_some_of_key h (k := key) fun r hr ↦ of_decide_eq_true hr).mpr
      ⟨hmem, decide_eq_true rfl⟩, rfl⟩

theorem exists_get {values : List (PreferenceKey × Bool)} (h : (values.map Prod.fst).Nodup)
    {key : PreferenceKey} (hkey : key ∈ values.map Prod.fst) :
    ∃ b, get values key = some b ∧ (key, b) ∈ values := by
  obtain ⟨⟨key', b⟩, hmem, rfl⟩ := List.mem_map.mp hkey
  exact ⟨b, (get_eq_some h).mpr hmem, hmem⟩

/-! ## The invariant -/

def rowKey (p : NotificationPreference) : UUID × PreferenceKey := (p.userId, preferenceKey p)

/-- The events of one aggregate of a user in the ledger, by version. -/
def versionsIn (aggregate : EventIdentity → Option (UUID × ℕ)) (userId : UUID)
    (ledger : List AuditEvent) : List ℕ :=
  ledger.filterMap fun e ↦ (aggregate e.event).bind fun (u, v) ↦ if u = userId then some v else none

def profileEvent : EventIdentity → Option (UUID × ℕ)
  | .profileUpdated u v => some (u, v)
  | _ => none

def preferencesEvent : EventIdentity → Option (UUID × ℕ)
  | .preferencesUpdated u v => some (u, v)
  | _ => none

/-- The accounts that the ledger says were registered. -/
def registeredIn (ledger : List AuditEvent) : List UUID :=
  ledger.filterMap fun e ↦ match e.event with
    | .accountRegistered u => some u
    | _ => none

/-- A counter of a user's row. -/
def counter (count : UserProfileRow → ℕ) (t : AccountTables) (userId : UUID) : ℕ :=
  ((t.userProfiles.find? (·.userId = userId)).map count).getD 0

/-- What holds in every state: the tables are in step, and the ledger has counted every change. -/
structure Sound (t : AccountTables) : Prop where
  ids : (t.users.map (·.id)).Nodup
  profiles : t.userProfiles.map (·.userId) = t.users.map (·.id)
  preferences : t.activity.notificationPreferences.map rowKey =
    (t.users.map (·.id)).flatMap fun u ↦ defaultKeys.map fun key ↦ (u, key)
  registered : registeredIn t.activity.auditEvents = t.users.map (·.id)
  profileEvents : ∀ u, versionsIn profileEvent u t.activity.auditEvents =
    List.range' 1 (counter (·.profileVersion) t u)
  preferencesEvents : ∀ u, versionsIn preferencesEvent u t.activity.auditEvents =
    List.range' 1 (counter (·.preferencesVersion) t u)

theorem sound_noAccounts : Sound noAccounts :=
  ⟨List.nodup_nil, rfl, rfl, rfl, fun _ ↦ rfl, fun _ ↦ rfl⟩

section Sound

variable {t t' : AccountTables} {userId : UUID}

/-- The user is locked exactly when it is registered. -/
theorem Sound.lockProfile (h : Sound t) (userId : UUID) :
    (∃ user profile, Account.lockProfile t userId = .ok (user, profile)) ↔
      userId ∈ t.users.map (·.id) := by
  constructor
  · rintro ⟨user, profile, hlock⟩
    have hfind := (lockProfile_eq_ok.mp hlock).1
    exact List.mem_map.mpr ⟨user, List.mem_of_find?_eq_some hfind, by simpa using List.find?_some hfind⟩
  · intro hmem
    obtain ⟨user, huser, hid⟩ := List.mem_map.mp hmem
    rw [← h.profiles] at hmem
    obtain ⟨profile, hprofile, hid'⟩ := List.mem_map.mp hmem
    obtain ⟨user', huser'⟩ : ∃ user', t.users.find? (·.id = userId) = some user' :=
      Option.isSome_iff_exists.mp (List.find?_isSome.mpr ⟨user, huser, decide_eq_true hid⟩)
    obtain ⟨profile', hprofile'⟩ :
        ∃ profile', t.userProfiles.find? (·.userId = userId) = some profile' :=
      Option.isSome_iff_exists.mp (List.find?_isSome.mpr ⟨profile, hprofile, decide_eq_true hid'⟩)
    exact ⟨user', profile', lockProfile_eq_ok.mpr ⟨huser', hprofile'⟩⟩

/-- The keys of a registered user's preferences. -/
theorem Sound.keys (h : Sound t) (userId : UUID) :
    (preferenceItems t userId).map Prod.fst =
      if userId ∈ t.users.map (·.id) then defaultKeys else [] := by
  have hrows : ((t.activity.notificationPreferences.map rowKey).filter (·.1 = userId)).map Prod.snd =
      (preferenceItems t userId).map Prod.fst := by
    rw [List.filter_map, List.map_map, preferenceItems, List.map_map]
    rfl
  rw [← hrows, h.preferences, filter_flatMap_pair h.ids userId]
  split
  · simp [Function.comp_def]
  · rfl

theorem nodup_defaultKeys : defaultKeys.Nodup := by decide

theorem Sound.nodup_keys (h : Sound t) (userId : UUID) :
    ((preferenceItems t userId).map Prod.fst).Nodup := by
  rw [h.keys]
  split
  · exact nodup_defaultKeys
  · exact List.nodup_nil

/-- **No aggregate is incomplete.** -/
theorem Sound.complete (h : Sound t) (hmem : userId ∈ t.users.map (·.id)) :
    Complete (preferenceItems t userId) := by
  rw [Complete, h.keys, if_pos hmem]
  exact ⟨List.Subset.refl _, List.Subset.refl _⟩

end Sound

/-! ## The ledger -/

section Ledger

variable {aggregate : EventIdentity → Option (UUID × ℕ)} {ledger : List AuditEvent} {e : AuditEvent}

theorem appendEvent_of_fresh (h : ∀ r ∈ ledger, r.event ≠ e.event) :
    appendEvent e ledger = ledger ++ [e] :=
  insertIgnore_of_fresh fun r hr hclash ↦ h r hr (buildEventKey_injective hclash)

/-- An event of another kind. -/
theorem filterMap_appendEvent_of_none {α : Type*} {f : AuditEvent → Option α} (h : f e = none) :
    (appendEvent e ledger).filterMap f = ledger.filterMap f := by
  rw [appendEvent, insertIgnore]
  split
  · rfl
  · rw [List.filterMap_append, List.filterMap_cons_none h, List.filterMap_nil, List.append_nil]

theorem mem_versionsIn {u : UUID} {v : ℕ} :
    v ∈ versionsIn aggregate u ledger ↔ ∃ r ∈ ledger, aggregate r.event = some (u, v) := by
  simp only [versionsIn, List.mem_filterMap, Option.bind_eq_some_iff, Prod.exists,
    Option.ite_none_right_eq_some, Option.some.injEq]
  constructor
  · rintro ⟨r, hr, u', v', hevent, rfl, rfl⟩
    exact ⟨r, hr, hevent⟩
  · rintro ⟨r, hr, hevent⟩
    exact ⟨r, hr, u, v, hevent, rfl, rfl⟩

theorem versionsIn_appendEvent_of_none (h : aggregate e.event = none) (u : UUID) :
    versionsIn aggregate u (appendEvent e ledger) = versionsIn aggregate u ledger :=
  filterMap_appendEvent_of_none (by rw [h, Option.bind_none])

/-- **A change under the next version is recorded**: the key of its event is new. -/
theorem versionsIn_appendEvent {w : UUID} {n : ℕ} (he : aggregate e.event = some (w, n + 1))
    (h : versionsIn aggregate w ledger = List.range' 1 n) (u : UUID) :
    versionsIn aggregate u (appendEvent e ledger) =
      if u = w then List.range' 1 (n + 1) else versionsIn aggregate u ledger := by
  have hfresh : ∀ r ∈ ledger, r.event ≠ e.event := by
    intro r hr heq
    have hmem : n + 1 ∈ versionsIn aggregate w ledger := mem_versionsIn.mpr ⟨r, hr, heq ▸ he⟩
    -- the ledger has the versions up to `n` and no other
    rw [h, List.mem_range'_1] at hmem
    omega
  rw [appendEvent_of_fresh hfresh, versionsIn, List.filterMap_append]
  by_cases hu : u = w
  · subst hu
    rw [if_pos rfl, List.range'_1_concat, ← h, versionsIn]
    simp [he, Nat.add_comm]
  · rw [if_neg hu, versionsIn]
    simp [he, Ne.symm hu]

end Ledger

/-! ## What each call keeps -/

section Calls

variable {env : AuthEnv} {t t' : AccountTables} {now : Timestamp} {userId : UUID}

theorem map_rowKey_foldl_setPreference (items : List (PreferenceKey × Bool))
    (rows : List NotificationPreference) :
    (items.foldl (setPreference userId) rows).map rowKey = rows.map rowKey := by
  induction items generalizing rows with
  | nil => rfl
  | cons item items ih =>
    rw [List.foldl_cons, ih, setPreference]
    exact map_updateWhere_of_forall fun _ ↦ rfl

theorem counter_eq (count : UserProfileRow → ℕ) {profile : UserProfileRow}
    (hprofile : t.userProfiles.find? (·.userId = userId) = some profile) :
    counter count t userId = count profile := by
  rw [counter, hprofile]
  rfl

section Changed

variable {users : List UserRow} {f : UserProfileRow → UserProfileRow}
  {rows : List NotificationPreference} {e : AuditEvent} {profile : UserProfileRow}

/-- A counter after a change. -/
theorem counter_changed (hf : ∀ p, (f p).userId = p.userId) (count : UserProfileRow → ℕ)
    (hprofile : t.userProfiles.find? (·.userId = userId) = some profile) (u : UUID) :
    counter count (changed t userId users f rows e) u =
      if u = userId then count (f profile) else counter count t u := by
  rw [counter, changed, find?_updateWhere_key hf]
  by_cases hu : u = userId
  · subst hu
    simp [hprofile]
  · simp [counter, hu]

/-- A counter that the change leaves alone. -/
theorem counter_changed_of_eq (hf : ∀ p, (f p).userId = p.userId) (count : UserProfileRow → ℕ)
    (hcount : ∀ p, count (f p) = count p)
    (hprofile : t.userProfiles.find? (·.userId = userId) = some profile) (u : UUID) :
    counter count (changed t userId users f rows e) u = counter count t u := by
  rw [counter_changed hf count hprofile]
  split
  · next hu => rw [hcount, hu, counter_eq _ hprofile]
  · rfl

/-- The events and the counter of the aggregate that the change counts. -/
theorem versionsIn_changed (hf : ∀ p, (f p).userId = p.userId) {count : UserProfileRow → ℕ}
    (hcount : ∀ p, count (f p) = count p + 1)
    (hprofile : t.userProfiles.find? (·.userId = userId) = some profile)
    {aggregate : EventIdentity → Option (UUID × ℕ)}
    (he : aggregate e.event = some (userId, count profile + 1))
    (h : ∀ u, versionsIn aggregate u t.activity.auditEvents = List.range' 1 (counter count t u))
    (u : UUID) :
    versionsIn aggregate u (appendEvent e t.activity.auditEvents) =
      List.range' 1 (counter count (changed t userId users f rows e) u) := by
  have huser := h userId
  rw [counter_eq _ hprofile] at huser
  rw [versionsIn_appendEvent he huser, counter_changed hf count hprofile, hcount, h u]
  split <;> rfl

theorem Sound.changed (h : Sound t) (hf : ∀ p, (f p).userId = p.userId)
    (hids : users.map (·.id) = t.users.map (·.id))
    (hrows : rows.map rowKey = t.activity.notificationPreferences.map rowKey)
    (hregistered : registeredIn [e] = [])
    (hprofileEvents : ∀ u, versionsIn profileEvent u (appendEvent e t.activity.auditEvents) =
      List.range' 1 (counter (·.profileVersion) (changed t userId users f rows e) u))
    (hpreferencesEvents : ∀ u, versionsIn preferencesEvent u
      (appendEvent e t.activity.auditEvents) =
        List.range' 1 (counter (·.preferencesVersion) (changed t userId users f rows e) u)) :
    Sound (changed t userId users f rows e) where
  ids := hids ▸ h.ids
  profiles := by
    rw [Account.changed, map_updateWhere_of_forall hf, hids]
    exact h.profiles
  preferences := by
    rw [Account.changed, hids, ← h.preferences]
    exact hrows
  registered := by
    rw [Account.changed, hids, ← h.registered, registeredIn]
    refine filterMap_appendEvent_of_none ?_
    rw [registeredIn, List.filterMap_cons] at hregistered
    split at hregistered
    · next hnone => exact hnone
    · exact nomatch hregistered
  profileEvents := hprofileEvents
  preferencesEvents := hpreferencesEvents

end Changed

theorem Sound.updateProfile (h : Sound t) {expectedVersion : ℕ} {displayName : Str}
    {jobTitle : Option Str} {language : Language} {result : UpdateResult}
    (hcall : Account.updateProfile t now userId expectedVersion displayName jobTitle language =
      .ok (result, t')) : Sound t' := by
  obtain ⟨user, profile, hlock, rfl, ⟨-, -, rfl⟩ | ⟨-, -, rfl⟩⟩ := updateProfile_eq_ok hcall
  · exact h
  · have hprofile := (lockProfile_eq_ok.mp hlock).2
    refine h.changed (writeProfile_userId _ _) (map_updateWhere_of_forall (writeName_id _)) rfl rfl
      (fun u ↦ ?_) fun u ↦ ?_
    · refine versionsIn_changed (writeProfile_userId _ _) ?_ hprofile ?_ h.profileEvents u
      · exact writeProfile_profileVersion _ _
      · rfl
    · rw [versionsIn_appendEvent_of_none rfl, h.preferencesEvents]
      exact congrArg (List.range' 1) (counter_changed_of_eq (writeProfile_userId _ _)
        (·.preferencesVersion) (writeProfile_preferencesVersion _ _) hprofile u).symm

theorem Sound.updatePreferences (h : Sound t) {expectedVersion : ℕ} {values : PreferenceValues}
    {result : UpdateResult}
    (hcall : Account.updatePreferences t now userId expectedVersion values = .ok (result, t')) :
    Sound t' := by
  obtain ⟨-, -, user, profile, hlock, rfl, ⟨-, -, rfl⟩ | ⟨-, -, rfl⟩⟩ := updatePreferences_eq_ok hcall
  · exact h
  · have hprofile := (lockProfile_eq_ok.mp hlock).2
    refine h.changed (countPreferences_userId _) rfl (map_rowKey_foldl_setPreference _ _) rfl
      (fun u ↦ ?_) fun u ↦ ?_
    · rw [versionsIn_appendEvent_of_none rfl, h.profileEvents]
      exact congrArg (List.range' 1) (counter_changed_of_eq (countPreferences_userId _)
        (·.profileVersion) (countPreferences_profileVersion _) hprofile u).symm
    · refine versionsIn_changed (countPreferences_userId _) ?_ hprofile ?_ h.preferencesEvents u
      · exact countPreferences_preferencesVersion _
      · rfl

theorem map_rowKey_defaultRows (userId : UUID) :
    (defaultRows userId).map rowKey = defaultKeys.map fun key ↦ (userId, key) := rfl

theorem Sound.registerAccount (h : Sound t) {email password displayName passwordHash : Str}
    {user : UserRecord}
    (hcall : Account.registerAccount env t now email password displayName userId passwordHash =
      .ok (user, t')) : Sound t' := by
  obtain ⟨row, rfl, -, -, hfresh, hprofiles, rfl⟩ := registerAccount_eq_ok hcall
  have hnew : row.id ∉ t.users.map (·.id) := by simpa [List.mem_map] using hfresh
  -- an event in the ledger would mean that the user is there already
  have hledger : ∀ r ∈ t.activity.auditEvents, r.event ≠ .accountRegistered row.id := by
    intro r hr hevent
    refine hnew ?_
    rw [← h.registered, registeredIn, List.mem_filterMap]
    exact ⟨r, hr, by rw [hevent]⟩
  let profile : UserProfileRow := ⟨row.id, none, .ko, 0, 0, now, now⟩
  -- the new profile starts at 0, which is what a missing one counts for
  have hcounter : ∀ (count : UserProfileRow → ℕ), count profile = 0 → ∀ u,
      (((t.userProfiles ++ [profile]).find? (·.userId = u)).map count).getD 0 =
        counter count t u := by
    intro count hcount u
    rw [List.find?_append, counter]
    cases hfind : t.userProfiles.find? (·.userId = u) with
    | some p => rfl
    | none =>
      rw [Option.none_or, List.find?_singleton]
      split
      · simp [hcount]
      · rfl
  refine ⟨?_, ?_, ?_, ?_, fun u ↦ ?_, fun u ↦ ?_⟩
  · exact nodup_map_append_singleton h.ids hfresh
  · rw [List.map_append, List.map_append, h.profiles]
    rfl
  · rw [List.map_append, List.map_append, List.flatMap_append, h.preferences, map_rowKey_defaultRows]
    simp
  · rw [appendEvent_of_fresh hledger, registeredIn, List.filterMap_append, List.map_append,
      ← h.registered]
    rfl
  · rw [versionsIn_appendEvent_of_none rfl, h.profileEvents]
    exact congrArg (List.range' 1) (hcounter (·.profileVersion) rfl u).symm
  · rw [versionsIn_appendEvent_of_none rfl, h.preferencesEvents]
    exact congrArg (List.range' 1) (hcounter (·.preferencesVersion) rfl u).symm

theorem applyEffect_preferences {actorId : Option UUID} {eventKey : String}
    {effect : NotificationEffect} {a a' : ActivityTables}
    (h : applyEffect actorId eventKey a effect = .ok a') :
    a'.notificationPreferences = a.notificationPreferences := by
  simp only [applyEffect, bind_eq_ok] at h
  obtain ⟨_, -, _, -, ha'⟩ := h
  cases ha'
  rfl

theorem record_preferences {e : AuditEvent} {effects : List NotificationEffect}
    {a a' : ActivityTables} (h : record e effects a = .ok a') :
    a'.notificationPreferences = a.notificationPreferences := by
  rw [record] at h
  split at h
  · cases h
    rfl
  · refine foldlM_invariant (fun _ b ↦ b.notificationPreferences = a.notificationPreferences) h rfl ?_
    intro done effect b b' hb happly
    exact (applyEffect_preferences happly).trans hb

/-- An event of another service. -/
theorem Sound.activity (h : Sound t) {e : AuditEvent} {effects : List NotificationEffect}
    {a : ActivityTables} (hown : ¬OwnEvent e.event) (hrecord : record e effects t.activity = .ok a) :
    Sound { t with activity := a } := by
  have hledger := record_auditEvents hrecord
  refine ⟨h.ids, h.profiles, ?_, ?_, fun u ↦ ?_, fun u ↦ ?_⟩
  · rw [← h.preferences, record_preferences hrecord]
  · rw [← h.registered, registeredIn, hledger]
    refine filterMap_appendEvent_of_none ?_
    cases hevent : e.event <;> first | rfl | exact absurd (by rw [hevent]; trivial) hown
  · rw [hledger, versionsIn_appendEvent_of_none, h.profileEvents]
    · rfl
    · cases hevent : e.event <;> first | rfl | exact absurd (by rw [hevent]; trivial) hown
  · rw [hledger, versionsIn_appendEvent_of_none, h.preferencesEvents]
    · rfl
    · cases hevent : e.event <;> first | rfl | exact absurd (by rw [hevent]; trivial) hown

/-- A call whose reply is wrapped. -/
theorem exists_of_map_eq_ok {ε α β σ : Type*} {x : Except ε (α × σ)} {f : α → β} {b : β} {s : σ}
    (h : (x.map fun (a, s) ↦ (f a, s)) = .ok (b, s)) : ∃ a, x = .ok (a, s) ∧ f a = b := by
  cases x with
  | error e => exact nomatch h
  | ok r =>
    cases h
    exact ⟨r.1, rfl, rfl⟩

/-- **The invariant, step by step.** -/
theorem Sound.step (h : Sound t) {input : AccountInput} (henabled : (accountMachine env).enabled t input) :
    Sound ((accountMachine env).step t input).2 := by
  cases input with
  | register now email password displayName userId passwordHash =>
    refine transaction_snd_of h fun reply t' hbody ↦ ?_
    obtain ⟨user, hcall, -⟩ := exists_of_map_eq_ok hbody
    exact h.registerAccount hcall
  | getProfile userId => exact h
  | getPreferences userId => exact h
  | updateProfile now userId expectedVersion displayName jobTitle language =>
    refine transaction_snd_of h fun reply t' hbody ↦ ?_
    obtain ⟨result, hcall, -⟩ := exists_of_map_eq_ok hbody
    exact h.updateProfile hcall
  | updatePreferences now userId expectedVersion values =>
    refine transaction_snd_of h fun reply t' hbody ↦ ?_
    obtain ⟨result, hcall, -⟩ := exists_of_map_eq_ok hbody
    exact h.updatePreferences hcall
  | activity e effects =>
    change Sound (accountStep env t (.activity e effects)).2
    rw [accountStep]
    split
    · next a hrecord => exact h.activity henabled hrecord
    · exact h

end Calls

end Account

end MeetingRag
