import MeetingRag.Activity.Service
import MeetingRag.Auth.Login
import MeetingRag.Library.Simulation
import MeetingRag.Library.Versioned

/-!
# Profiles and notification preferences

An account has two aggregates, a profile and a matrix of notification preferences, each with a version
of its own. A client that changes one of them names the version it has read: the change is refused as
stale if the aggregate has moved on, and a change that changes nothing is neither counted nor recorded.

Every call locks the rows of its user, so the calls of a run take place one after another. Each
aggregate of each account is then a versioned register, and the two registers of an account do not see
each other.
-/

open Outcome Py Table

namespace MeetingRag

namespace Account

/-! ## Rows -/

inductive Language
  | ko | en | ja
deriving DecidableEq, Repr

/-- A row of `user_profiles`. -/
structure UserProfileRow where
  userId : UUID
  jobTitle : Option Str
  language : Language
  profileVersion : ℕ
  preferencesVersion : ℕ
  profileUpdatedAt : Timestamp
  preferencesUpdatedAt : Timestamp
deriving DecidableEq, Repr

/-- The tables of the accounts, with the ones behind the activity service. -/
structure AccountTables where
  users : List UserRow
  userProfiles : List UserProfileRow
  activity : ActivityTables
deriving DecidableEq

inductive ProfileError
  | valueError (message : String)
  | staleProfileVersion (message : String)
  | profileInvariant (message : String)
  | auth (e : AuthError)
  | activity (e : Error)
  | raised (e : Exc)
  | database (message : String)
deriving DecidableEq

/-- `UpdateResult` -/
structure UpdateResult where
  version : ℕ
  updated : Bool
deriving DecidableEq, Repr

/-- A kind of notification and a channel, as a key of the preferences. -/
abbrev PreferenceKey := String × String

/-- `DEFAULT_PREFERENCES` -/
def defaultPreferences : List (PreferenceKey × Bool) :=
  ["analysis_completed", "mention", "comment"].flatMap fun kind ↦
    ["in_app", "email_intent"].map fun channel ↦ ((kind, channel), channel = "in_app")

def defaultKeys : List PreferenceKey := defaultPreferences.map Prod.fst

/-- The keyword argument `values`, a dictionary. -/
structure PreferenceValues where
  items : List (PreferenceKey × Bool)
  nodup : (items.map Prod.fst).Nodup

/-- `values.get(key)` -/
def get (values : List (PreferenceKey × Bool)) (key : PreferenceKey) : Option Bool :=
  (values.find? (·.1 = key)).map Prod.snd

/-- `set(values) == set(DEFAULT_PREFERENCES)` -/
def Complete (values : List (PreferenceKey × Bool)) : Prop :=
  values.map Prod.fst ⊆ defaultKeys ∧ defaultKeys ⊆ values.map Prod.fst

instance (values : List (PreferenceKey × Bool)) : Decidable (Complete values) :=
  inferInstanceAs (Decidable (_ ∧ _))

/-! ## The repository -/

/-- `lock_profile` -/
def lockProfile (t : AccountTables) (userId : UUID) : Except ProfileError (UserRow × UserProfileRow) :=
  match t.users.find? (·.id = userId), t.userProfiles.find? (·.userId = userId) with
  | some user, some profile => .ok (user, profile)
  | _, _ => .error (.profileInvariant "profile aggregate is incomplete")

/-- The key of a row of `notification_preferences` among those of its user. -/
def preferenceKey (p : NotificationPreference) : PreferenceKey := (p.kind, p.channel.value)

/-- The rows that `preferences` selects. -/
def preferenceItems (t : AccountTables) (userId : UUID) : List (PreferenceKey × Bool) :=
  (t.activity.notificationPreferences.filter (·.userId = userId)).map fun p ↦
    (preferenceKey p, p.enabled)

/-- `preferences` -/
def preferences (t : AccountTables) (userId : UUID) :
    Except ProfileError (List (PreferenceKey × Bool)) := do
  let values := preferenceItems t userId
  require (Complete values) (.profileInvariant "profile aggregate is incomplete")
  .ok values

/-! ## The service -/

structure ProfileView where
  userId : UUID
  email : Str
  displayName : Str
  jobTitle : Option Str
  language : Language
  profileVersion : ℕ
  profileUpdatedAt : Timestamp
deriving DecidableEq, Repr

structure PreferencesView where
  values : List (PreferenceKey × Bool)
  preferencesVersion : ℕ
  preferencesUpdatedAt : Timestamp
deriving DecidableEq, Repr

/-- `get_profile` -/
def getProfile (t : AccountTables) (userId : UUID) : Except ProfileError ProfileView := do
  let (user, profile) ← lockProfile t userId
  .ok ⟨user.id, user.email, user.displayName, profile.jobTitle, profile.language,
    profile.profileVersion, profile.profileUpdatedAt⟩

/-- `get_preferences` -/
def getPreferences (t : AccountTables) (userId : UUID) : Except ProfileError PreferencesView := do
  let (_, profile) ← lockProfile t userId
  let values ← preferences t userId
  .ok ⟨values, profile.preferencesVersion, profile.preferencesUpdatedAt⟩

/-- `ActivityService.record` for an event without effects, in the transaction of the caller. -/
def recordEvent (event : EventIdentity) (userId : UUID) (t : AccountTables) :
    Except ProfileError AccountTables :=
  match record ⟨event, some userId, none, none⟩ [] t.activity with
  | .ok activity => .ok { t with activity := activity }
  | .error e => .error (.activity e)

/-- The largest value of an `INTEGER` column. -/
def maxInteger : ℕ := 2147483647

/-- `update_profile` -/
def updateProfile (t : AccountTables) (now : Timestamp) (userId : UUID) (expectedVersion : ℕ)
    (displayName : Str) (jobTitle : Option Str) (language : Language) :
    Except ProfileError (UpdateResult × AccountTables) := do
  let name := strip displayName
  let title := jobTitle.map strip
  require ((1 ≤ name.length ∧ name.length ≤ 200) ∧ ∀ x ∈ title, 1 ≤ x.length ∧ x.length ≤ 200)
    (.valueError "profile fields exceed approved bounds")
  let (user, profile) ← lockProfile t userId
  require (profile.profileVersion = expectedVersion) (.staleProfileVersion "stale profile version")
  if user.displayName = name ∧ profile.jobTitle = title ∧ profile.language = language then
    .ok (⟨expectedVersion, false⟩, t)
  else
    require (StorableText name ∧ ∀ x ∈ title, StorableText x) (.raised .unicodeEncodeError)
    let users := updateWhere (fun u : UserRow ↦ u.id = userId) ({ · with displayName := name }) t.users
    require (profile.profileVersion + 1 ≤ maxInteger) (.database "integer out of range")
    let userProfiles := updateWhere (fun p : UserProfileRow ↦ p.userId = userId)
      (fun p ↦ { p with
        jobTitle := title
        language := language
        profileVersion := p.profileVersion + 1
        profileUpdatedAt := now }) t.userProfiles
    let version := profile.profileVersion + 1
    let t' ← recordEvent (.profileUpdated userId version) userId
      { t with users := users, userProfiles := userProfiles }
    .ok (⟨version, true⟩, t')

/-- `UPDATE notification_preferences SET enabled=… WHERE user_id=… AND kind=… AND channel=…` -/
def setPreference (userId : UUID) (rows : List NotificationPreference) (item : PreferenceKey × Bool) :
    List NotificationPreference :=
  updateWhere (fun p : NotificationPreference ↦ p.userId = userId ∧ preferenceKey p = item.1)
    ({ · with enabled := item.2 }) rows

/-- `update_preferences` -/
def updatePreferences (t : AccountTables) (now : Timestamp) (userId : UUID) (expectedVersion : ℕ)
    (values : PreferenceValues) : Except ProfileError (UpdateResult × AccountTables) := do
  require (Complete values.items)
    (.valueError "preferences must provide the complete approved matrix")
  let (_, profile) ← lockProfile t userId
  require (profile.preferencesVersion = expectedVersion)
    (.staleProfileVersion "stale preferences version")
  let current ← preferences t userId
  let changed := values.items.filter fun item ↦ get current item.1 ≠ some item.2
  if changed = [] then
    .ok (⟨expectedVersion, false⟩, t)
  else
    let rows := changed.foldl (setPreference userId) t.activity.notificationPreferences
    require (profile.preferencesVersion + 1 ≤ maxInteger) (.database "integer out of range")
    let userProfiles := updateWhere (fun p : UserProfileRow ↦ p.userId = userId)
      (fun p ↦ { p with
        preferencesVersion := p.preferencesVersion + 1
        preferencesUpdatedAt := now }) t.userProfiles
    let version := profile.preferencesVersion + 1
    let t' ← recordEvent (.preferencesUpdated userId version) userId
      { t with
        userProfiles := userProfiles
        activity := { t.activity with notificationPreferences := rows } }
    .ok (⟨version, true⟩, t')

/-- The rows that a registration inserts into `notification_preferences`. -/
def defaultRows (userId : UUID) : List NotificationPreference :=
  ["analysis_completed", "mention", "comment"].flatMap fun kind ↦
    [Channel.inApp, .emailIntent].map fun channel ↦ ⟨userId, kind, channel, channel = .inApp⟩

def profileClash (a b : UserProfileRow) : Prop := a.userId = b.userId

instance : DecidableRel profileClash := fun a b ↦ inferInstanceAs (Decidable (a.userId = b.userId))

def preferenceClash (a b : NotificationPreference) : Prop :=
  a.userId = b.userId ∧ a.kind = b.kind ∧ a.channel = b.channel

instance : DecidableRel preferenceClash := fun a b ↦
  inferInstanceAs (Decidable (a.userId = b.userId ∧ a.kind = b.kind ∧ a.channel = b.channel))

/-- The row that a registration inserts into `users`. -/
def registerUser (env : AuthEnv) (users : List UserRow) (now : Timestamp)
    (email password displayName : Str) (userId : UUID) (passwordHash : Str) :
    Except ProfileError (UserRecord × List UserRow) :=
  match register env ⟨users, [], [], now⟩ email password displayName userId passwordHash with
  | .ok (user, s) => .ok (user, s.users)
  | .error e => .error (.auth e)

/-- `AuthService.register` with the rows of the two aggregates. A violated key is reported as a taken
e-mail address, whichever table it belongs to. -/
def registerAccount (env : AuthEnv) (t : AccountTables) (now : Timestamp)
    (email password displayName : Str) (userId : UUID) (passwordHash : Str) :
    Except ProfileError (UserRecord × AccountTables) := do
  let taken : ProfileError := .auth (.emailAlreadyRegistered "email is already registered")
  let (user, users) ← registerUser env t.users now email password displayName userId passwordHash
  let userProfiles ← insertUnique profileClash (fun _ ↦ taken) ⟨userId, none, .ko, 0, 0, now, now⟩
    t.userProfiles
  let rows ← (defaultRows userId).foldlM
    (fun rows row ↦ insertUnique preferenceClash (fun _ ↦ taken) row rows)
    t.activity.notificationPreferences
  let t' ← recordEvent (.accountRegistered userId) userId
    { t with
      users := users
      userProfiles := userProfiles
      activity := { t.activity with notificationPreferences := rows } }
  .ok (user, t')

/-! ## Runs -/

inductive AccountInput
  | register (now : Timestamp) (email password displayName : Str) (userId : UUID) (passwordHash : Str)
  | getProfile (userId : UUID)
  | getPreferences (userId : UUID)
  | updateProfile (now : Timestamp) (userId : UUID) (expectedVersion : ℕ) (displayName : Str)
      (jobTitle : Option Str) (language : Language)
  | updatePreferences (now : Timestamp) (userId : UUID) (expectedVersion : ℕ)
      (values : PreferenceValues)
  /-- Another service records an event of its own. -/
  | activity (e : AuditEvent) (effects : List NotificationEffect)

inductive AccountReply
  | registered (user : UserRecord)
  | profile (view : ProfileView)
  | preferences (view : PreferencesView)
  | updated (result : UpdateResult)
  | recorded
deriving DecidableEq

/-- The events of the account service itself. -/
def OwnEvent : EventIdentity → Prop
  | .accountRegistered _ | .profileUpdated _ _ | .preferencesUpdated _ _ => True
  | _ => False

def accountStep (env : AuthEnv) (t : AccountTables) :
    AccountInput → Except ProfileError AccountReply × AccountTables
  | .register now email password displayName userId passwordHash =>
    transaction t ((registerAccount env t now email password displayName userId passwordHash).map
      fun (user, t') ↦ (.registered user, t'))
  | .getProfile userId => ((getProfile t userId).map .profile, t)
  | .getPreferences userId => ((getPreferences t userId).map .preferences, t)
  | .updateProfile now userId expectedVersion displayName jobTitle language =>
    transaction t ((updateProfile t now userId expectedVersion displayName jobTitle language).map
      fun (result, t') ↦ (.updated result, t'))
  | .updatePreferences now userId expectedVersion values =>
    transaction t ((updatePreferences t now userId expectedVersion values).map
      fun (result, t') ↦ (.updated result, t'))
  | .activity e effects =>
    match record e effects t.activity with
    | .ok activity => (.ok .recorded, { t with activity := activity })
    | .error e => (.error (.activity e), t)

/-- The accounts under every order of calls. The other services record events of their own types. -/
def accountMachine (env : AuthEnv) :
    Machine AccountTables AccountInput (Except ProfileError AccountReply) where
  enabled _ input :=
    match input with
    | .activity e _ => ¬OwnEvent e.event
    | _ => True
  step := accountStep env

/-- No account yet. -/
def noAccounts : AccountTables := ⟨[], [], ⟨[], [], [], []⟩⟩

/-! ## What a call can do -/

/-- The content of a profile. -/
structure ProfileFields where
  displayName : Str
  jobTitle : Option Str
  language : Language
deriving DecidableEq, Repr

def fieldsOf (user : UserRow) (profile : UserProfileRow) : ProfileFields :=
  ⟨user.displayName, profile.jobTitle, profile.language⟩

/-- The content that a request asks for. -/
def requestedFields (displayName : Str) (jobTitle : Option Str) (language : Language) :
    ProfileFields :=
  ⟨strip displayName, jobTitle.map strip, language⟩

def writeName (name : Str) (user : UserRow) : UserRow := { user with displayName := name }

def writeProfile (fields : ProfileFields) (now : Timestamp) (p : UserProfileRow) : UserProfileRow :=
  { p with
    jobTitle := fields.jobTitle
    language := fields.language
    profileVersion := p.profileVersion + 1
    profileUpdatedAt := now }

def countPreferences (now : Timestamp) (p : UserProfileRow) : UserProfileRow :=
  { p with
    preferencesVersion := p.preferencesVersion + 1
    preferencesUpdatedAt := now }

@[simp] theorem writeName_id (name : Str) (user : UserRow) : (writeName name user).id = user.id := rfl

section Updates

variable (fields : ProfileFields) (now : Timestamp) (p : UserProfileRow)

@[simp] theorem writeProfile_userId : (writeProfile fields now p).userId = p.userId := rfl

@[simp] theorem writeProfile_profileVersion :
    (writeProfile fields now p).profileVersion = p.profileVersion + 1 := rfl

@[simp] theorem writeProfile_preferencesVersion :
    (writeProfile fields now p).preferencesVersion = p.preferencesVersion := rfl

@[simp] theorem countPreferences_userId : (countPreferences now p).userId = p.userId := rfl

@[simp] theorem countPreferences_profileVersion :
    (countPreferences now p).profileVersion = p.profileVersion := rfl

@[simp] theorem countPreferences_preferencesVersion :
    (countPreferences now p).preferencesVersion = p.preferencesVersion + 1 := rfl

end Updates

/-- The tables after a change of one aggregate: `f` updates the row of the user. -/
def changed (t : AccountTables) (userId : UUID) (users : List UserRow)
    (f : UserProfileRow → UserProfileRow) (rows : List NotificationPreference) (e : AuditEvent) :
    AccountTables :=
  ⟨users, updateWhere (fun p : UserProfileRow ↦ p.userId = userId) f t.userProfiles,
    { t.activity with
      notificationPreferences := rows
      auditEvents := appendEvent e t.activity.auditEvents }⟩

section Calls

variable {env : AuthEnv} {t t' : AccountTables} {now : Timestamp} {userId : UUID}

theorem lockProfile_eq_ok {user : UserRow} {profile : UserProfileRow} :
    lockProfile t userId = .ok (user, profile) ↔
      t.users.find? (·.id = userId) = some user ∧
        t.userProfiles.find? (·.userId = userId) = some profile := by
  rw [lockProfile]
  split <;> simp_all

theorem recordEvent_eq (event : EventIdentity) (t : AccountTables) :
    recordEvent event userId t = .ok { t with activity := { t.activity with
      auditEvents := appendEvent ⟨event, some userId, none, none⟩ t.activity.auditEvents } } := by
  rw [recordEvent, record_nil]

/-- **An accepted change of a profile.** -/
theorem updateProfile_eq_ok {expectedVersion : ℕ} {displayName : Str} {jobTitle : Option Str}
    {language : Language} {result : UpdateResult}
    (h : updateProfile t now userId expectedVersion displayName jobTitle language =
      .ok (result, t')) :
    ∃ user profile, lockProfile t userId = .ok (user, profile) ∧
      profile.profileVersion = expectedVersion ∧
      (fieldsOf user profile = requestedFields displayName jobTitle language ∧
          result = ⟨expectedVersion, false⟩ ∧ t' = t ∨
        fieldsOf user profile ≠ requestedFields displayName jobTitle language ∧
          result = ⟨expectedVersion + 1, true⟩ ∧
          t' = changed t userId
            (updateWhere (fun u : UserRow ↦ u.id = userId) (writeName (strip displayName)) t.users)
            (writeProfile (requestedFields displayName jobTitle language) now)
            t.activity.notificationPreferences
            ⟨.profileUpdated userId (expectedVersion + 1), some userId, none, none⟩) := by
  rw [updateProfile] at h
  obtain ⟨-, h⟩ := require_bind_eq_ok.mp h
  obtain ⟨⟨user, profile⟩, hlock, h⟩ := bind_eq_ok.mp h
  obtain ⟨rfl, h⟩ := require_bind_eq_ok.mp h
  refine ⟨user, profile, hlock, rfl, ?_⟩
  split at h
  · next hsame =>
    cases h
    refine Or.inl ⟨?_, rfl, rfl⟩
    rw [fieldsOf, requestedFields, hsame.1, hsame.2.1, hsame.2.2]
  · next hdiffers =>
    obtain ⟨-, h⟩ := require_bind_eq_ok.mp h
    obtain ⟨-, h⟩ := require_bind_eq_ok.mp h
    obtain ⟨recorded, hrecorded, h⟩ := bind_eq_ok.mp h
    rw [recordEvent_eq] at hrecorded
    cases hrecorded
    cases h
    refine Or.inr ⟨fun hsame ↦ hdiffers ?_, rfl, rfl⟩
    simpa [fieldsOf, requestedFields] using hsame

/-- The rows after an accepted change of the preferences. -/
def changedRows (t : AccountTables) (userId : UUID) (values : PreferenceValues) :
    List NotificationPreference :=
  (values.items.filter fun item ↦ get (preferenceItems t userId) item.1 ≠ some item.2).foldl
    (setPreference userId) t.activity.notificationPreferences

/-- **An accepted change of the preferences.** -/
theorem updatePreferences_eq_ok {expectedVersion : ℕ} {values : PreferenceValues}
    {result : UpdateResult}
    (h : updatePreferences t now userId expectedVersion values = .ok (result, t')) :
    Complete values.items ∧ Complete (preferenceItems t userId) ∧
      ∃ user profile, lockProfile t userId = .ok (user, profile) ∧
        profile.preferencesVersion = expectedVersion ∧
        ((∀ item ∈ values.items, get (preferenceItems t userId) item.1 = some item.2) ∧
            result = ⟨expectedVersion, false⟩ ∧ t' = t ∨
          (∃ item ∈ values.items, get (preferenceItems t userId) item.1 ≠ some item.2) ∧
            result = ⟨expectedVersion + 1, true⟩ ∧
            t' = changed t userId t.users (countPreferences now) (changedRows t userId values)
              ⟨.preferencesUpdated userId (expectedVersion + 1), some userId, none, none⟩) := by
  rw [updatePreferences] at h
  obtain ⟨hvalues, h⟩ := require_bind_eq_ok.mp h
  obtain ⟨⟨user, profile⟩, hlock, h⟩ := bind_eq_ok.mp h
  obtain ⟨rfl, h⟩ := require_bind_eq_ok.mp h
  obtain ⟨current, hcurrent, h⟩ := bind_eq_ok.mp h
  obtain ⟨hcomplete, hcurrent⟩ := require_bind_eq_ok.mp hcurrent
  cases hcurrent
  refine ⟨hvalues, hcomplete, user, profile, hlock, rfl, ?_⟩
  simp only at h
  split at h
  · next hnone =>
    cases h
    refine Or.inl ⟨fun item hitem ↦ ?_, rfl, rfl⟩
    by_contra hne
    exact List.filter_eq_nil_iff.mp hnone item hitem (decide_eq_true hne)
  · next hsome =>
    obtain ⟨-, h⟩ := require_bind_eq_ok.mp h
    obtain ⟨recorded, hrecorded, h⟩ := bind_eq_ok.mp h
    rw [recordEvent_eq] at hrecorded
    cases hrecorded
    cases h
    refine Or.inr ⟨?_, rfl, rfl⟩
    obtain ⟨item, hitem⟩ := List.exists_mem_of_ne_nil _ hsome
    exact ⟨item, (List.mem_filter.mp hitem).1, of_decide_eq_true (List.mem_filter.mp hitem).2⟩

/-- The aggregate of the user is missing. -/
def IsProfileInvariant (e : ProfileError) : Prop :=
  ∃ message, e = .profileInvariant message

/-- The aggregate has moved on. -/
def IsStale (e : ProfileError) : Prop :=
  ∃ message, e = .staleProfileVersion message

theorem lockProfile_not_stale : ¬Raises IsStale (lockProfile t userId) := by
  rw [lockProfile]
  split
  · exact not_raises_ok
  · rw [raises_error]
    exact nofun

/-- A change of a profile is refused as incomplete when there is nothing to lock, and as stale when
the locked profile has another version. -/
theorem updateProfile_raises {P : ProfileError → Prop} {expectedVersion : ℕ} {displayName : Str}
    {jobTitle : Option Str} {language : Language} (hvalue : ∀ message, ¬P (.valueError message))
    (hraised : ∀ e, ¬P (.raised e)) (hdatabase : ∀ message, ¬P (.database message))
    (h : Raises P (updateProfile t now userId expectedVersion displayName jobTitle language)) :
    Raises P (lockProfile t userId) ∨ ∃ user profile, lockProfile t userId = .ok (user, profile) ∧
      profile.profileVersion ≠ expectedVersion ∧ P (.staleProfileVersion "stale profile version") := by
  rw [updateProfile, raises_require_bind (hvalue _), raises_bind] at h
  rcases h.2 with hlock | ⟨⟨user, profile⟩, hlock, h⟩
  · exact Or.inl hlock
  · refine Or.inr ⟨user, profile, hlock, ?_⟩
    rw [raises_bind] at h
    rcases h with hversion | ⟨_, -, h⟩
    · obtain ⟨e, he, hP⟩ := hversion
      rw [require] at he
      split at he
      · cases he
      · next hne =>
        cases he
        exact ⟨hne, hP⟩
    · exfalso
      revert h
      split
      · exact not_raises_ok
      · refine not_raises_bind (not_raises_require (hraised _)) fun _ _ ↦ ?_
        refine not_raises_bind (not_raises_require (hdatabase _)) fun _ _ ↦ ?_
        refine not_raises_bind (not_raises_of_ok (recordEvent_eq _ _)) fun _ _ ↦ not_raises_ok

/-- The same of a change of the preferences. -/
theorem updatePreferences_raises {P : ProfileError → Prop} {expectedVersion : ℕ}
    {values : PreferenceValues} (hvalue : ∀ message, ¬P (.valueError message))
    (hdatabase : ∀ message, ¬P (.database message))
    (h : Raises P (updatePreferences t now userId expectedVersion values)) :
    Raises P (lockProfile t userId) ∨ ∃ user profile, lockProfile t userId = .ok (user, profile) ∧
      (¬Complete (preferenceItems t userId) ∨ profile.preferencesVersion ≠ expectedVersion ∧
        P (.staleProfileVersion "stale preferences version")) := by
  rw [updatePreferences, raises_require_bind (hvalue _), raises_bind] at h
  rcases h.2 with hlock | ⟨⟨user, profile⟩, hlock, h⟩
  · exact Or.inl hlock
  · refine Or.inr ⟨user, profile, hlock, ?_⟩
    rw [raises_bind] at h
    rcases h with hversion | ⟨_, -, h⟩
    · obtain ⟨e, he, hP⟩ := hversion
      rw [require] at he
      split at he
      · cases he
      · next hne =>
        cases he
        exact Or.inr ⟨hne, hP⟩
    · rw [raises_bind] at h
      rcases h with hpreferences | ⟨current, -, h⟩
      · refine Or.inl fun hcomplete ↦ ?_
        rw [preferences, require_of hcomplete] at hpreferences
        exact not_raises_ok hpreferences
      · exfalso
        revert h
        simp only
        split
        · exact not_raises_ok
        · refine not_raises_bind (not_raises_require (hdatabase _)) fun _ _ ↦ ?_
          refine not_raises_bind (not_raises_of_ok (recordEvent_eq _ _)) fun _ _ ↦ not_raises_ok

/-- **An accepted registration.** -/
theorem registerAccount_eq_ok {email password displayName passwordHash : Str} {user : UserRecord}
    (h : registerAccount env t now email password displayName userId passwordHash = .ok (user, t')) :
    ∃ row : UserRow, row.id = userId ∧ row.displayName = strip displayName ∧ user = row.record ∧
      (∀ r ∈ t.users, r.id ≠ userId) ∧
      (∀ r ∈ t.userProfiles, r.userId ≠ userId) ∧
      t' = ⟨t.users ++ [row], t.userProfiles ++ [⟨userId, none, .ko, 0, 0, now, now⟩],
        { t.activity with
          notificationPreferences := t.activity.notificationPreferences ++ defaultRows userId
          auditEvents := appendEvent ⟨.accountRegistered userId, some userId, none, none⟩
            t.activity.auditEvents }⟩ := by
  rw [registerAccount] at h
  obtain ⟨⟨record, users⟩, husers, h⟩ := bind_eq_ok.mp h
  obtain ⟨userProfiles, hprofiles, h⟩ := bind_eq_ok.mp h
  obtain ⟨rows, hrows, h⟩ := bind_eq_ok.mp h
  obtain ⟨recorded, hrecorded, h⟩ := bind_eq_ok.mp h
  rw [recordEvent_eq] at hrecorded
  cases hrecorded
  cases h
  rw [registerUser] at husers
  split at husers
  · next s hregister =>
    cases husers
    rw [register] at hregister
    obtain ⟨normalizedEmail, -, hregister⟩ := bind_eq_ok.mp hregister
    obtain ⟨name, hname, hregister⟩ := bind_eq_ok.mp hregister
    obtain ⟨-, hregister⟩ := require_bind_eq_ok.mp hregister
    obtain ⟨inserted, hinsert, hregister⟩ := bind_eq_ok.mp hregister
    cases hregister
    obtain ⟨-, hfresh, rfl⟩ := insertRow_eq_ok.mp hinsert
    obtain ⟨hnew, rfl⟩ := insertUnique_eq_ok.mp hprofiles
    obtain ⟨-, rfl⟩ := foldlM_insertUnique.mp hrows
    obtain ⟨-, hname⟩ := require_bind_eq_ok.mp hname
    cases hname
    exact ⟨_, rfl, rfl, rfl, fun r hr hid ↦ hfresh r hr (Or.inl hid), hnew, rfl⟩
  · exact nomatch husers

end Calls

end Account

end MeetingRag
