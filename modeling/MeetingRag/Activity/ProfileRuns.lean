import MeetingRag.Activity.ProfileInvariant

/-!
# Profiles and preferences under any order of calls

An account is two registers: what a run does to the profiles is a run of a versioned store, and what
it does to the preferences is a run of another one. Each store answers what the service answers, and
the calls on one of them are not steps of the other at all.

So no change is lost: of two clients that read the same version only the first can change it, and an
aggregate holds what its last change asked for.
-/

open Outcome Py Table Versioned

namespace MeetingRag

namespace Account

/-! ## Two registers for each account -/

/-- The values of the matrix, in the order of its keys. -/
abbrev Matrix := List (Option Bool)

def matrix (values : List (PreferenceKey × Bool)) : Matrix := defaultKeys.map (get values)

/-- The profiles as registers. -/
def profileCells (t : AccountTables) (userId : UUID) : Option (Cell ProfileFields) :=
  match lockProfile t userId with
  | .ok (user, profile) => some ⟨fieldsOf user profile, profile.profileVersion⟩
  | .error _ => none

/-- The preferences as registers. -/
def preferenceCells (t : AccountTables) (userId : UUID) : Option (Cell Matrix) :=
  match lockProfile t userId with
  | .ok (_, profile) => some ⟨matrix (preferenceItems t userId), profile.preferencesVersion⟩
  | .error _ => none

/-- The reply of a register to a write, read off what the service answers. -/
def writeReply {α : Type} : Except ProfileError AccountReply → Option (Reply α)
  | .ok (.updated result) =>
    some (if result.updated then .accepted result.version else .unchanged result.version)
  | .error (.staleProfileVersion _) => some .stale
  | .error (.profileInvariant _) => some .missing
  | _ => none

/-- What a call is for the profiles. -/
def observeProfile (input : AccountInput) (outcome : Except ProfileError AccountReply) :
    Option (Request UUID ProfileFields × Reply ProfileFields) :=
  match input, outcome with
  | .register _ _ _ displayName userId _, .ok _ =>
    some (.create userId ⟨strip displayName, none, .ko⟩, .created)
  | .getProfile userId, .ok (.profile view) =>
    some (.read userId, .found ⟨⟨view.displayName, view.jobTitle, view.language⟩, view.profileVersion⟩)
  | .getProfile userId, .error _ => some (.read userId, .missing)
  | .updateProfile _ userId expectedVersion displayName jobTitle language, outcome =>
    (writeReply outcome).map fun reply ↦
      (.write userId expectedVersion (requestedFields displayName jobTitle language), reply)
  | _, _ => none

/-- What a call is for the preferences. -/
def observePreferences (input : AccountInput) (outcome : Except ProfileError AccountReply) :
    Option (Request UUID Matrix × Reply Matrix) :=
  match input, outcome with
  | .register _ _ _ _ userId _, .ok _ => some (.create userId (matrix defaultPreferences), .created)
  | .getPreferences userId, .ok (.preferences view) =>
    some (.read userId, .found ⟨matrix view.values, view.preferencesVersion⟩)
  | .getPreferences userId, .error _ => some (.read userId, .missing)
  | .updatePreferences _ userId expectedVersion values, outcome =>
    (writeReply outcome).map fun reply ↦
      (.write userId expectedVersion (matrix values.items), reply)
  | _, _ => none

/-- The preferences of a user among the rows of all. -/
def itemsOf (rows : List NotificationPreference) (userId : UUID) : List (PreferenceKey × Bool) :=
  (rows.filter (·.userId = userId)).map fun p ↦ (preferenceKey p, p.enabled)

section Cells

variable {env : AuthEnv} {t t' : AccountTables} {now : Timestamp} {userId : UUID}

/-- What is locked after a change. -/
theorem lockProfile_changed {users : List UserRow} {name : UserRow → UserRow}
    (hname : ∀ u, users.find? (·.id = u) =
      (t.users.find? (·.id = u)).map fun r ↦ if u = userId then name r else r)
    {f : UserProfileRow → UserProfileRow} (hf : ∀ p, (f p).userId = p.userId)
    {rows : List NotificationPreference} {e : AuditEvent} {user : UserRow} {profile : UserProfileRow}
    (hlock : lockProfile t userId = .ok (user, profile)) (u : UUID) :
    lockProfile (changed t userId users f rows e) u =
      if u = userId then .ok (name user, f profile) else lockProfile t u := by
  obtain ⟨huser, hprofile⟩ := lockProfile_eq_ok.mp hlock
  rw [lockProfile, changed, hname, find?_updateWhere_key hf]
  by_cases hu : u = userId
  · subst hu
    simp [huser, hprofile]
  · simp [hu, lockProfile]

theorem find?_id (userId u : UUID) : t.users.find? (·.id = u) =
    (t.users.find? (·.id = u)).map fun r ↦ if u = userId then id r else r := by
  simp

theorem lockProfile_append {row : UserRow} {profile : UserProfileRow} {a : ActivityTables}
    (hid : row.id = profile.userId) (hfresh : ∀ r ∈ t.users, r.id ≠ row.id)
    (hprofiles : ∀ r ∈ t.userProfiles, r.userId ≠ row.id) (u : UUID) :
    lockProfile ⟨t.users ++ [row], t.userProfiles ++ [profile], a⟩ u =
      if u = row.id then .ok (row, profile) else lockProfile t u := by
  have husers : t.users.find? (·.id = row.id) = none := by simpa using hfresh
  have hprofiles : t.userProfiles.find? (·.userId = row.id) = none := by simpa using hprofiles
  rw [lockProfile, List.find?_append, List.find?_append, List.find?_singleton, List.find?_singleton]
  by_cases hu : u = row.id
  · subst hu
    simp [husers, hprofiles, ← hid]
  · rw [if_neg hu]
    simp [lockProfile, Ne.symm hu, ← hid]

theorem profileCells_of_ok {user : UserRow} {profile : UserProfileRow}
    (hlock : lockProfile t userId = .ok (user, profile)) :
    profileCells t userId = some ⟨fieldsOf user profile, profile.profileVersion⟩ := by
  rw [profileCells, hlock]

theorem profileCells_of_error {e : ProfileError} (hlock : lockProfile t userId = .error e) :
    profileCells t userId = none := by
  rw [profileCells, hlock]

theorem preferenceCells_of_ok {user : UserRow} {profile : UserProfileRow}
    (hlock : lockProfile t userId = .ok (user, profile)) :
    preferenceCells t userId =
      some ⟨matrix (preferenceItems t userId), profile.preferencesVersion⟩ := by
  rw [preferenceCells, hlock]

theorem preferenceCells_of_error {e : ProfileError} (hlock : lockProfile t userId = .error e) :
    preferenceCells t userId = none := by
  rw [preferenceCells, hlock]

/-- **A change of a profile is a write to its register.** -/
theorem updateProfile_simulates {expectedVersion : ℕ} {displayName : Str} {jobTitle : Option Str}
    {language : Language} {p : Reply ProfileFields}
    (h : writeReply ((accountMachine env).step t
      (.updateProfile now userId expectedVersion displayName jobTitle language)).1 = some p) :
    Versioned.step (profileCells t)
        (.write userId expectedVersion (requestedFields displayName jobTitle language)) =
      (p, profileCells ((accountMachine env).step t
        (.updateProfile now userId expectedVersion displayName jobTitle language)).2) := by
  change writeReply (transaction t _).1 = some p at h
  change _ = (p, profileCells (transaction t _).2)
  cases hcall : updateProfile t now userId expectedVersion displayName jobTitle language with
  | error e =>
    rw [hcall] at h
    simp only [Except.map, transaction_error] at h ⊢
    have hraises : ∀ P : ProfileError → Prop, P e →
        Raises P (updateProfile t now userId expectedVersion displayName jobTitle language) :=
      fun P hP ↦ ⟨e, hcall, hP⟩
    cases e with
    -- only these two errors are answers of the register
    | staleProfileVersion message =>
      cases h
      rcases updateProfile_raises (by rintro _ ⟨_, ⟨⟩⟩) (by rintro _ ⟨_, ⟨⟩⟩)
        (by rintro _ ⟨_, ⟨⟩⟩) (hraises IsStale ⟨message, rfl⟩) with
        hlock | ⟨user, profile, hlock, hversion, -⟩
      · exact absurd hlock lockProfile_not_stale
      · simp only [Versioned.step, profileCells_of_ok hlock, Cell.write, if_pos hversion]
        rw [← profileCells_of_ok hlock, Function.update_eq_self]
    | profileInvariant message =>
      cases h
      rcases updateProfile_raises (by rintro _ ⟨_, ⟨⟩⟩) (by rintro _ ⟨_, ⟨⟩⟩)
        (by rintro _ ⟨_, ⟨⟩⟩) (hraises IsProfileInvariant ⟨message, rfl⟩) with
        ⟨e, hlock, -⟩ | ⟨user, profile, -, -, hstale⟩
      · simp only [Versioned.step, profileCells_of_error hlock]
      · obtain ⟨_, ⟨⟩⟩ := hstale
    | valueError message => cases h
    | auth e => cases h
    | activity e => cases h
    | raised e => cases h
    | database message => cases h
  | ok r =>
    obtain ⟨result, t'⟩ := r
    rw [hcall] at h
    simp only [Except.map, transaction_ok] at h ⊢
    obtain ⟨user, profile, hlock, rfl, ⟨hsame, rfl, rfl⟩ | ⟨hdiffers, rfl, rfl⟩⟩ :=
      updateProfile_eq_ok hcall
    · cases h
      simp only [Versioned.step, profileCells_of_ok hlock, Cell.write, ne_eq, not_true_eq_false,
        if_false, if_pos hsame]
      rw [← profileCells_of_ok hlock, Function.update_eq_self]
      rfl
    · cases h
      simp only [Versioned.step, profileCells_of_ok hlock, Cell.write, ne_eq, not_true_eq_false,
        if_false, if_neg hdiffers]
      refine Prod.ext rfl (funext fun u ↦ ?_)
      change Function.update (profileCells t) userId _ u = profileCells _ u
      rw [profileCells, lockProfile_changed (find?_updateWhere_key (writeName_id _) userId · t.users)
        (writeProfile_userId _ _) hlock]
      by_cases hu : u = userId
      · subst hu
        rw [Function.update_self, if_pos rfl]
        rfl
      · rw [Function.update_of_ne hu, if_neg hu]
        rfl

theorem get_itemsOf (rows : List NotificationPreference) (u : UUID) (key : PreferenceKey) :
    get (itemsOf rows u) key = (rows.find? (rowKey · = (u, key))).map (·.enabled) := by
  rw [get, itemsOf, List.find?_map, List.find?_filter, Option.map_map]
  simp [rowKey, Function.comp_def]

/-- A lookup after one row was set. -/
theorem get_setPreference (rows : List NotificationPreference) (item : PreferenceKey × Bool) (u : UUID)
    (key : PreferenceKey) :
    get (itemsOf (setPreference userId rows item) u) key =
      (get (itemsOf rows u) key).map fun b ↦ if u = userId ∧ key = item.1 then item.2 else b := by
  have hrow : setPreference userId rows item =
      updateWhere (rowKey · = (userId, item.1)) ({ · with enabled := item.2 }) rows :=
    updateWhere_congr fun p _ ↦ by simp [rowKey]
  have hkey : ∀ p : NotificationPreference, rowKey { p with enabled := item.2 } = rowKey p :=
    fun _ ↦ rfl
  rw [hrow, get_itemsOf, get_itemsOf, find?_updateWhere_key hkey, Option.map_map, Option.map_map]
  congr 1
  funext p
  by_cases h : u = userId ∧ key = item.1 <;> simp [h]

/-- A lookup after the rows of a dictionary were set. -/
theorem get_foldl_setPreference {items : List (PreferenceKey × Bool)}
    (hnodup : (items.map Prod.fst).Nodup) (rows : List NotificationPreference) (u : UUID)
    (key : PreferenceKey) :
    get (itemsOf (items.foldl (setPreference userId) rows) u) key =
      (get (itemsOf rows u) key).map fun b ↦ if u = userId then (get items key).getD b else b := by
  induction items generalizing rows with
  | nil =>
    have hid : (fun b ↦ if u = userId then (get [] key).getD b else b) = id := by
      funext b
      simp
    rw [List.foldl_nil, hid, Option.map_id]
    rfl
  | cons item items ih =>
    rw [List.map_cons, List.nodup_cons] at hnodup
    rw [List.foldl_cons, ih hnodup.2, get_setPreference, Option.map_map]
    congr 1
    funext b
    rw [get_cons]
    by_cases hu : u = userId
    · by_cases hkey : item.1 = key
      · subst hkey
        simp [hu, get_eq_none.mpr hnodup.1]
      · simp [hu, hkey, Ne.symm hkey]
    · simp [hu]

/-- **The preferences after a change are the ones that were asked for.** -/
theorem matrix_changedRows (hsound : Sound t) (hmem : userId ∈ t.users.map (·.id))
    {values : PreferenceValues} (hvalues : Complete values.items) :
    matrix (itemsOf (changedRows t userId values) userId) = matrix values.items := by
  refine List.map_congr_left fun key hkey ↦ ?_
  have hcurrent : key ∈ (preferenceItems t userId).map Prod.fst := (hsound.complete hmem).2 hkey
  obtain ⟨b, hb, -⟩ := exists_get (hsound.nodup_keys userId) hcurrent
  obtain ⟨v, hv, hmemv⟩ := exists_get values.nodup (hvalues.2 hkey)
  let differing := values.items.filter fun item ↦ get (preferenceItems t userId) item.1 ≠ some item.2
  have hnodup : (differing.map Prod.fst).Nodup :=
    values.nodup.sublist (List.filter_sublist.map Prod.fst)
  -- A row that is not set holds the value that was asked for.
  have hdiffering : (get differing key).getD b = v := by
    by_cases hsame : b = v
    · cases hget : get differing key with
      | none => exact hsame
      | some w =>
        have hw := (List.mem_filter.mp ((get_eq_some hnodup).mp hget)).1
        exact Option.some.inj (((get_eq_some values.nodup).mpr hw).symm.trans hv)
    · have hset : get differing key = some v := by
        refine (get_eq_some hnodup).mpr (List.mem_filter.mpr ⟨hmemv, decide_eq_true ?_⟩)
        rw [hb]
        exact fun heq ↦ hsame (Option.some.inj heq)
      rw [hset, Option.getD_some]
  rw [changedRows, get_foldl_setPreference hnodup]
  change (get (preferenceItems t userId) key).map _ = _
  rw [hb, hv, Option.map_some, if_pos rfl, hdiffering]

/-- The preferences of the other users stay. -/
theorem matrix_changedRows_of_ne (values : PreferenceValues) {u : UUID} (hu : u ≠ userId) :
    matrix (itemsOf (changedRows t userId values) u) = matrix (preferenceItems t u) := by
  refine List.map_congr_left fun key _ ↦ ?_
  rw [changedRows, get_foldl_setPreference
    (values.nodup.sublist (List.filter_sublist.map Prod.fst))]
  simp only [if_neg hu]
  exact Option.map_id'

/-- A request that changes nothing asks for the values that are there. -/
theorem matrix_eq_iff {values : PreferenceValues}
    (hvalues : Complete values.items) :
    matrix (preferenceItems t userId) = matrix values.items ↔
      ∀ item ∈ values.items, get (preferenceItems t userId) item.1 = some item.2 := by
  rw [matrix, matrix, List.map_inj_left]
  constructor
  · intro h item hitem
    rw [h item.1 (hvalues.1 (List.mem_map_of_mem hitem)), get_eq_some values.nodup]
    exact hitem
  · intro h key hkey
    obtain ⟨v, hv, hmem⟩ := exists_get values.nodup (hvalues.2 hkey)
    rw [hv]
    exact h _ hmem

/-- **A change of the preferences is a write to their register.** -/
theorem updatePreferences_simulates (hsound : Sound t) {expectedVersion : ℕ} {values : PreferenceValues}
    {p : Reply Matrix}
    (h : writeReply ((accountMachine env).step t
      (.updatePreferences now userId expectedVersion values)).1 = some p) :
    Versioned.step (preferenceCells t) (.write userId expectedVersion (matrix values.items)) =
      (p, preferenceCells ((accountMachine env).step t
        (.updatePreferences now userId expectedVersion values)).2) := by
  change writeReply (transaction t _).1 = some p at h
  change _ = (p, preferenceCells (transaction t _).2)
  cases hcall : updatePreferences t now userId expectedVersion values with
  | error e =>
    rw [hcall] at h
    simp only [Except.map, transaction_error] at h ⊢
    have hraises : ∀ P : ProfileError → Prop, P e →
        Raises P (updatePreferences t now userId expectedVersion values) :=
      fun P hP ↦ ⟨e, hcall, hP⟩
    have hcomplete : ∀ {user profile}, lockProfile t userId = .ok (user, profile) →
        Complete (preferenceItems t userId) := fun hlock ↦
      hsound.complete ((hsound.lockProfile userId).mp ⟨_, _, hlock⟩)
    cases e with
    | staleProfileVersion message =>
      cases h
      rcases updatePreferences_raises (by rintro _ ⟨_, ⟨⟩⟩)
        (by rintro _ ⟨_, ⟨⟩⟩) (hraises IsStale ⟨message, rfl⟩) with
        hlock | ⟨user, profile, hlock, hincomplete | ⟨hversion, -⟩⟩
      · exact absurd hlock lockProfile_not_stale
      · exact absurd (hcomplete hlock) hincomplete
      -- an incomplete aggregate raises the same error, but there is none
      · simp only [Versioned.step, preferenceCells_of_ok hlock, Cell.write, if_pos hversion]
        rw [← preferenceCells_of_ok hlock, Function.update_eq_self]
    | profileInvariant message =>
      cases h
      rcases updatePreferences_raises (by rintro _ ⟨_, ⟨⟩⟩)
        (by rintro _ ⟨_, ⟨⟩⟩) (hraises IsProfileInvariant ⟨message, rfl⟩) with
        ⟨e, hlock, -⟩ | ⟨user, profile, hlock, hincomplete | ⟨-, hstale⟩⟩
      · simp only [Versioned.step, preferenceCells_of_error hlock]
      · exact absurd (hcomplete hlock) hincomplete
      · obtain ⟨_, ⟨⟩⟩ := hstale
    | valueError message => cases h
    | auth e => cases h
    | activity e => cases h
    | raised e => cases h
    | database message => cases h
  | ok r =>
    obtain ⟨result, t'⟩ := r
    rw [hcall] at h
    simp only [Except.map, transaction_ok] at h ⊢
    obtain ⟨hvalues, -, user, profile, hlock, rfl, ⟨hsame, rfl, rfl⟩ | ⟨hdiffers, rfl, rfl⟩⟩ :=
      updatePreferences_eq_ok hcall
    · cases h
      -- the code compares item by item, the register compares the values
      have hmatrix := (matrix_eq_iff hvalues).mpr hsame
      simp only [Versioned.step, preferenceCells_of_ok hlock, Cell.write, ne_eq, not_true_eq_false,
        if_false, if_pos hmatrix]
      rw [← preferenceCells_of_ok hlock, Function.update_eq_self]
      rfl
    · cases h
      have hmatrix : matrix (preferenceItems t userId) ≠ matrix values.items := by
        rw [ne_eq, matrix_eq_iff hvalues]
        exact fun h ↦ hdiffers.elim fun item hitem ↦ hitem.2 (h item hitem.1)
      simp only [Versioned.step, preferenceCells_of_ok hlock, Cell.write, ne_eq, not_true_eq_false,
        if_false, if_neg hmatrix]
      refine Prod.ext rfl (funext fun u ↦ ?_)
      change Function.update (preferenceCells t) userId _ u = preferenceCells _ u
      rw [preferenceCells, lockProfile_changed (find?_id userId) (countPreferences_userId _) hlock]
      by_cases hu : u = userId
      · subst hu
        rw [Function.update_self, if_pos rfl]
        have hmem := (hsound.lockProfile u).mp ⟨_, _, hlock⟩
        exact congrArg (fun m ↦ some (Cell.mk m _)) (matrix_changedRows hsound hmem hvalues).symm
      · rw [Function.update_of_ne hu, if_neg hu, preferenceCells]
        have hothers := matrix_changedRows_of_ne (t := t) values hu
        cases hother : lockProfile t u with
        | error e => rfl
        | ok r => exact congrArg (fun m ↦ some (Cell.mk m _)) hothers.symm

/-- The profiles do not see a change of the preferences. -/
theorem profileCells_updatePreferences {expectedVersion : ℕ} {values : PreferenceValues} :
    profileCells ((accountMachine env).step t
      (.updatePreferences now userId expectedVersion values)).2 = profileCells t := by
  change profileCells (transaction t _).2 = _
  refine transaction_snd_of (P := fun t' ↦ profileCells t' = profileCells t) rfl
    fun reply t' hbody ↦ ?_
  obtain ⟨result, hcall, -⟩ := exists_of_map_eq_ok hbody
  obtain ⟨-, -, user, profile, hlock, -, ⟨-, -, rfl⟩ | ⟨-, -, rfl⟩⟩ := updatePreferences_eq_ok hcall
  · rfl
  · funext u
    rw [profileCells, lockProfile_changed (find?_id userId) (countPreferences_userId _) hlock]
    by_cases hu : u = userId
    · subst hu
      rw [if_pos rfl, profileCells_of_ok hlock]
      rfl
    · rw [if_neg hu]
      rfl

/-- The preferences do not see a change of a profile. -/
theorem preferenceCells_updateProfile {expectedVersion : ℕ} {displayName : Str}
    {jobTitle : Option Str} {language : Language} :
    preferenceCells ((accountMachine env).step t
      (.updateProfile now userId expectedVersion displayName jobTitle language)).2 =
        preferenceCells t := by
  change preferenceCells (transaction t _).2 = _
  refine transaction_snd_of (P := fun t' ↦ preferenceCells t' = preferenceCells t) rfl
    fun reply t' hbody ↦ ?_
  obtain ⟨result, hcall, -⟩ := exists_of_map_eq_ok hbody
  obtain ⟨user, profile, hlock, -, ⟨-, -, rfl⟩ | ⟨-, -, rfl⟩⟩ := updateProfile_eq_ok hcall
  · rfl
  · funext u
    rw [preferenceCells, lockProfile_changed (find?_updateWhere_key (writeName_id _) userId · t.users)
      (writeProfile_userId _ _) hlock]
    by_cases hu : u = userId
    · subst hu
      rw [if_pos rfl, preferenceCells_of_ok hlock]
      rfl
    · rw [if_neg hu]
      rfl

theorem itemsOf_append (rows rows' : List NotificationPreference) (u : UUID) :
    itemsOf (rows ++ rows') u = itemsOf rows u ++ itemsOf rows' u := by
  rw [itemsOf, List.filter_append, List.map_append]
  rfl

theorem itemsOf_defaultRows (u : UUID) :
    itemsOf (defaultRows userId) u = if u = userId then defaultPreferences else [] := by
  by_cases hu : u = userId
  · subst hu
    simp [itemsOf, defaultRows, defaultPreferences, preferenceKey, Channel.value]
  · simp [itemsOf, defaultRows, hu, Ne.symm hu]

/-- **A registration creates the two registers of its account**, with the default values. -/
theorem registerAccount_creates (hsound : Sound t) {email password displayName passwordHash : Str}
    {user : UserRecord}
    (hcall : registerAccount env t now email password displayName userId passwordHash =
      .ok (user, t')) :
    profileCells t userId = none ∧ preferenceCells t userId = none ∧
      profileCells t' = Function.update (profileCells t) userId
        (some ⟨⟨strip displayName, none, .ko⟩, 0⟩) ∧
      preferenceCells t' = Function.update (preferenceCells t) userId
        (some ⟨matrix defaultPreferences, 0⟩) := by
  obtain ⟨row, rfl, hname, -, hfresh, hprofiles, rfl⟩ := registerAccount_eq_ok hcall
  have hnew : row.id ∉ t.users.map (·.id) := by simpa [List.mem_map] using hfresh
  obtain ⟨e, hmissing⟩ : ∃ e, lockProfile t row.id = .error e := by
    cases hlock : lockProfile t row.id with
    | error e => exact ⟨e, rfl⟩
    | ok r => exact absurd ((hsound.lockProfile row.id).mp ⟨r.1, r.2, hlock⟩) hnew
  refine ⟨profileCells_of_error hmissing, preferenceCells_of_error hmissing, funext fun u ↦ ?_,
    funext fun u ↦ ?_⟩
  · rw [profileCells, lockProfile_append rfl hfresh hprofiles]
    by_cases hu : u = row.id
    · subst hu
      rw [if_pos rfl, Function.update_self, ← hname]
      rfl
    · rw [if_neg hu, Function.update_of_ne hu, profileCells]
  · rw [preferenceCells, lockProfile_append rfl hfresh hprofiles]
    have hitems : preferenceItems ⟨t.users ++ [row],
        t.userProfiles ++ [⟨row.id, none, .ko, 0, 0, now, now⟩], { t.activity with
          notificationPreferences := t.activity.notificationPreferences ++ defaultRows row.id
          auditEvents := appendEvent ⟨.accountRegistered row.id, some row.id, none, none⟩
            t.activity.auditEvents }⟩ u =
        preferenceItems t u ++ if u = row.id then defaultPreferences else [] := by
      rw [← itemsOf_defaultRows u]
      exact itemsOf_append _ _ u
    rw [hitems]
    by_cases hu : u = row.id
    · subst hu
      have hnone : preferenceItems t row.id = [] := by
        have hkeys := hsound.keys row.id
        rw [if_neg hnew, List.map_eq_nil_iff] at hkeys
        exact hkeys
      rw [if_pos rfl, if_pos rfl, Function.update_self, hnone, List.nil_append]
    · rw [if_neg hu, if_neg hu, Function.update_of_ne hu, List.append_nil, preferenceCells]

end Cells

/-! ## The two stores -/

section Stores

variable {env : AuthEnv} {t : AccountTables}

/-- A refused change that no register sees left the tables as they were. -/
theorem transaction_of_writeReply_none {x : Except ProfileError (UpdateResult × AccountTables)}
    {α : Type}
    (h : writeReply (α := α) (transaction t (x.map fun (r, t') ↦ (AccountReply.updated r, t'))).1 =
      none) :
    (transaction t (x.map fun (r, t') ↦ (AccountReply.updated r, t'))).2 = t := by
  cases x with
  | error e => rfl
  | ok r => exact nomatch h

theorem lockProfile_activity {a : ActivityTables} (u : UUID) :
    lockProfile { t with activity := a } u = lockProfile t u := rfl

theorem profileCells_activity {e : AuditEvent} {effects : List NotificationEffect} :
    profileCells ((accountMachine env).step t (.activity e effects)).2 = profileCells t := by
  change profileCells (accountStep env t (.activity e effects)).2 = _
  rw [accountStep]
  split <;> rfl

theorem preferenceCells_activity {e : AuditEvent} {effects : List NotificationEffect} :
    preferenceCells ((accountMachine env).step t (.activity e effects)).2 = preferenceCells t := by
  change preferenceCells (accountStep env t (.activity e effects)).2 = _
  rw [accountStep]
  split
  · next a hrecord =>
    funext u
    have hitems : preferenceItems { t with activity := a } u = preferenceItems t u := by
      rw [preferenceItems, record_preferences hrecord, preferenceItems]
    rw [preferenceCells, hitems, lockProfile_activity, preferenceCells]
  · rfl

/-- What a read of a profile answers. -/
theorem getProfile_simulates {userId : UUID} {k : Request UUID ProfileFields} {p : Reply ProfileFields}
    (h : observeProfile (.getProfile userId) ((getProfile t userId).map .profile) = some (k, p)) :
    (store UUID ProfileFields).enabled (profileCells t) k ∧
      Versioned.step (profileCells t) k = (p, profileCells t) := by
  rw [getProfile] at h
  cases hlock : lockProfile t userId with
  | error e =>
    rw [hlock] at h
    cases h
    exact ⟨trivial, by simp [Versioned.step, profileCells_of_error hlock]⟩
  | ok r =>
    rw [hlock] at h
    cases h
    exact ⟨trivial, by simp [Versioned.step, profileCells_of_ok hlock, fieldsOf]⟩

/-- What a read of the preferences answers. -/
theorem getPreferences_simulates (hsound : Sound t) {userId : UUID} {k : Request UUID Matrix}
    {p : Reply Matrix}
    (h : observePreferences (.getPreferences userId) ((getPreferences t userId).map .preferences) =
      some (k, p)) :
    (store UUID Matrix).enabled (preferenceCells t) k ∧
      Versioned.step (preferenceCells t) k = (p, preferenceCells t) := by
  rw [getPreferences] at h
  cases hlock : lockProfile t userId with
  | error e =>
    rw [hlock] at h
    cases h
    exact ⟨trivial, by simp [Versioned.step, preferenceCells_of_error hlock]⟩
  | ok r =>
    have hcomplete := hsound.complete ((hsound.lockProfile userId).mp ⟨r.1, r.2, hlock⟩)
    have hpreferences : preferences t userId = .ok (preferenceItems t userId) := by
      rw [preferences, require_of hcomplete]
      rfl
    rw [hlock] at h
    simp only [ok_bind, hpreferences] at h
    cases h
    exact ⟨trivial, by simp [Versioned.step, preferenceCells_of_ok hlock]⟩

variable (env)

/-- **The profiles are a versioned store.** -/
def profileStore : (accountMachine env).Simulation (store UUID ProfileFields) where
  abs := profileCells
  observe := observeProfile
  inv := Sound
  keeps _ _ hsound henabled := hsound.step henabled
  stutters t input hsound henabled hnone := by
    cases input with
    | register now email password displayName userId passwordHash =>
      change profileCells (transaction t _).2 = _
      change observeProfile _ (transaction t _).1 = none at hnone
      cases hcall : registerAccount env t now email password displayName userId passwordHash with
      | error e => rfl
      | ok r =>
        rw [hcall] at hnone
        exact nomatch hnone
    | getProfile userId => rfl
    | getPreferences userId => rfl
    | updateProfile now userId expectedVersion displayName jobTitle language =>
      exact congrArg profileCells (transaction_of_writeReply_none (Option.map_eq_none_iff.mp hnone))
    | updatePreferences now userId expectedVersion values => exact profileCells_updatePreferences
    | activity e effects => exact profileCells_activity
  simulates t input k p hsound henabled hobserve := by
    cases input with
    | register now email password displayName userId passwordHash =>
      change observeProfile _ (transaction t _).1 = _ at hobserve
      change _ ∧ _ = (p, profileCells (transaction t _).2)
      cases hcall : registerAccount env t now email password displayName userId passwordHash with
      | error e =>
        rw [hcall] at hobserve
        exact nomatch hobserve
      | ok r =>
        rw [hcall] at hobserve
        cases hobserve
        obtain ⟨hfresh, -, hnew, -⟩ := registerAccount_creates hsound hcall
        exact ⟨hfresh, Prod.ext rfl hnew.symm⟩
    | getProfile userId => exact getProfile_simulates hobserve
    | getPreferences userId => exact nomatch hobserve
    | updateProfile now userId expectedVersion displayName jobTitle language =>
      obtain ⟨reply, hreply, heq⟩ := Option.map_eq_some_iff.mp hobserve
      cases heq
      exact ⟨trivial, updateProfile_simulates hreply⟩
    | updatePreferences now userId expectedVersion values => exact nomatch hobserve
    | activity e effects => exact nomatch hobserve

/-- **The preferences are a versioned store.** -/
def preferenceStore : (accountMachine env).Simulation (store UUID Matrix) where
  abs := preferenceCells
  observe := observePreferences
  inv := Sound
  keeps _ _ hsound henabled := hsound.step henabled
  stutters t input hsound henabled hnone := by
    cases input with
    | register now email password displayName userId passwordHash =>
      change preferenceCells (transaction t _).2 = _
      change observePreferences _ (transaction t _).1 = none at hnone
      cases hcall : registerAccount env t now email password displayName userId passwordHash with
      | error e => rfl
      | ok r =>
        rw [hcall] at hnone
        exact nomatch hnone
    | getProfile userId => rfl
    | getPreferences userId => rfl
    | updateProfile now userId expectedVersion displayName jobTitle language =>
      exact preferenceCells_updateProfile
    | updatePreferences now userId expectedVersion values =>
      exact congrArg preferenceCells (transaction_of_writeReply_none (Option.map_eq_none_iff.mp hnone))
    | activity e effects => exact preferenceCells_activity
  simulates t input k p hsound henabled hobserve := by
    cases input with
    | register now email password displayName userId passwordHash =>
      change observePreferences _ (transaction t _).1 = _ at hobserve
      change _ ∧ _ = (p, preferenceCells (transaction t _).2)
      cases hcall : registerAccount env t now email password displayName userId passwordHash with
      | error e =>
        rw [hcall] at hobserve
        exact nomatch hobserve
      | ok r =>
        rw [hcall] at hobserve
        cases hobserve
        obtain ⟨-, hfresh, -, hnew⟩ := registerAccount_creates hsound hcall
        exact ⟨hfresh, Prod.ext rfl hnew.symm⟩
    | getProfile userId => exact nomatch hobserve
    | getPreferences userId => exact getPreferences_simulates hsound hobserve
    | updateProfile now userId expectedVersion displayName jobTitle language => exact nomatch hobserve
    | updatePreferences now userId expectedVersion values =>
      obtain ⟨reply, hreply, heq⟩ := Option.map_eq_some_iff.mp hobserve
      cases heq
      exact ⟨trivial, updatePreferences_simulates hsound hreply⟩
    | activity e effects => exact nomatch hobserve

end Stores

/-! ## Every run -/

theorem sessionTtl_pos : 0 < 10 := by decide

/-- A service that keeps passwords as they are. -/
def plainEnv : AuthEnv :=
  ⟨Url.Casing.onlyAscii, fun hash password ↦ decide (hash = password), fun _ ↦ false,
    fun token ↦ token ++ token, 10, sessionTtl_pos⟩

def registration : AccountInput :=
  .register 5 (lit "a@b.c") (lit "password") (lit "A") 1 (lit "hash")

section Runs

variable {env : AuthEnv} {inputs : List AccountInput}

/-- **Two independent stores of registers.** A run of the account service, read at the profiles, is a
run of a versioned store with the same answers, and read at the preferences it is a run of another
one. -/
theorem account_refines_stores (h : (accountMachine env).Legal noAccounts inputs) :
    ((store UUID ProfileFields).history Versioned.empty
        ((profileStore env).inputs ((accountMachine env).history noAccounts inputs)) =
      (profileStore env).observed ((accountMachine env).history noAccounts inputs) ∧
    (store UUID ProfileFields).exec Versioned.empty
        ((profileStore env).inputs ((accountMachine env).history noAccounts inputs)) =
      profileCells ((accountMachine env).exec noAccounts inputs)) ∧
    ((store UUID Matrix).history Versioned.empty
        ((preferenceStore env).inputs ((accountMachine env).history noAccounts inputs)) =
      (preferenceStore env).observed ((accountMachine env).history noAccounts inputs) ∧
    (store UUID Matrix).exec Versioned.empty
        ((preferenceStore env).inputs ((accountMachine env).history noAccounts inputs)) =
      preferenceCells ((accountMachine env).exec noAccounts inputs)) :=
  ⟨((profileStore env).run h sound_noAccounts).2, ((preferenceStore env).run h sound_noAccounts).2⟩

theorem account_refines_stores_of_run :
    let inputs : List AccountInput := [registration,
      .updateProfile 6 1 0 (lit "B") none .en, .getProfile 1]
    (store UUID ProfileFields).exec Versioned.empty
        ((profileStore plainEnv).inputs ((accountMachine plainEnv).history noAccounts inputs)) 1 =
      some ⟨⟨lit "B", none, .en⟩, 1⟩ := by
  intro inputs
  have hlegal : (accountMachine plainEnv).Legal noAccounts inputs := ⟨trivial, trivial, trivial, trivial⟩
  rw [(account_refines_stores hlegal).1.2]
  decide +kernel

/-- The versions and contents that the effective changes of a profile named, in their order. -/
def profileUpdates (userId : UUID)
    (history : List (AccountInput × Except ProfileError AccountReply)) : List (ℕ × ProfileFields) :=
  history.filterMap fun
    | (.updateProfile _ u expectedVersion displayName jobTitle language, .ok (.updated ⟨_, true⟩)) =>
      if u = userId then some (expectedVersion, requestedFields displayName jobTitle language) else none
    | _ => none

/-- The versions and values that the effective changes of the preferences named, in their order. -/
def preferenceUpdates (userId : UUID)
    (history : List (AccountInput × Except ProfileError AccountReply)) : List (ℕ × Matrix) :=
  history.filterMap fun
    | (.updatePreferences _ u expectedVersion values, .ok (.updated ⟨_, true⟩)) =>
      if u = userId then some (expectedVersion, matrix values.items) else none
    | _ => none

theorem acceptedWrites_profile (userId : UUID)
    (history : List (AccountInput × Except ProfileError AccountReply)) :
    acceptedWrites userId ((profileStore env).observed history) = profileUpdates userId history := by
  rw [acceptedWrites, Machine.Simulation.observed, List.filterMap_filterMap, profileUpdates]
  refine List.filterMap_congr fun e _ ↦ ?_
  obtain ⟨input, outcome⟩ := e
  cases input with
  | updateProfile now u expectedVersion displayName jobTitle language =>
    rcases outcome with (_ | _) | (_ | _ | _ | ⟨_, _ | _⟩ | _) <;> rfl
  | _ => rcases outcome with (_ | _) | (_ | _ | _ | _ | _) <;> rfl

theorem acceptedWrites_preferences (userId : UUID)
    (history : List (AccountInput × Except ProfileError AccountReply)) :
    acceptedWrites userId ((preferenceStore env).observed history) =
      preferenceUpdates userId history := by
  rw [acceptedWrites, Machine.Simulation.observed, List.filterMap_filterMap, preferenceUpdates]
  refine List.filterMap_congr fun e _ ↦ ?_
  obtain ⟨input, outcome⟩ := e
  cases input with
  | updatePreferences now u expectedVersion values =>
    rcases outcome with (_ | _) | (_ | _ | _ | ⟨_, _ | _⟩ | _) <;> rfl
  | _ => rcases outcome with (_ | _) | (_ | _ | _ | _ | _) <;> rfl

/-- The account was registered in the run under this name. -/
def RegisteredAs (userId : UUID) (displayName : Str)
    (history : List (AccountInput × Except ProfileError AccountReply)) : Prop :=
  ∃ now email password passwordHash reply,
    (.register now email password displayName userId passwordHash, .ok reply) ∈ history

theorem registeredAs_of_create {userId : UUID} {fields : ProfileFields}
    {history : List (AccountInput × Except ProfileError AccountReply)}
    (h : .create userId fields ∈ (profileStore env).inputs history) :
    ∃ displayName, RegisteredAs userId displayName history ∧ fields = ⟨strip displayName, none, .ko⟩ := by
  obtain ⟨⟨request, reply⟩, hmem, rfl⟩ := List.mem_map.mp h
  obtain ⟨⟨input, outcome⟩, hentry, hobserve⟩ := List.mem_filterMap.mp hmem
  change observeProfile input outcome = _ at hobserve
  cases input with
  | register now email password displayName u passwordHash =>
    cases outcome with
    | error e => exact nomatch hobserve
    | ok r =>
      cases hobserve
      exact ⟨displayName, ⟨now, email, password, passwordHash, r, hentry⟩, rfl⟩
  | updateProfile now u expectedVersion displayName jobTitle language =>
    obtain ⟨_, -, heq⟩ := Option.map_eq_some_iff.mp hobserve
    exact nomatch heq
  | getProfile u => rcases outcome with _ | (_ | _ | _ | _ | _) <;> exact nomatch hobserve
  | getPreferences u => exact nomatch hobserve
  | updatePreferences now u expectedVersion values => exact nomatch hobserve
  | activity e effects => exact nomatch hobserve

theorem default_of_create {userId : UUID} {m : Matrix}
    {history : List (AccountInput × Except ProfileError AccountReply)}
    (h : .create userId m ∈ (preferenceStore env).inputs history) : m = matrix defaultPreferences := by
  obtain ⟨⟨request, reply⟩, hmem, rfl⟩ := List.mem_map.mp h
  obtain ⟨⟨input, outcome⟩, -, hobserve⟩ := List.mem_filterMap.mp hmem
  change observePreferences input outcome = _ at hobserve
  cases input with
  | register now email password displayName u passwordHash =>
    cases outcome with
    | error e => exact nomatch hobserve
    | ok r =>
      cases hobserve
      rfl
  | updatePreferences now u expectedVersion values =>
    obtain ⟨_, -, heq⟩ := Option.map_eq_some_iff.mp hobserve
    exact nomatch heq
  | getPreferences u => rcases outcome with _ | (_ | _ | _ | _ | _) <;> exact nomatch hobserve
  | getProfile u => exact nomatch hobserve
  | updateProfile now u expectedVersion displayName jobTitle language => exact nomatch hobserve
  | activity e effects => exact nomatch hobserve

/-- **No change is lost.** In every run, each effective change of an aggregate named the version that
the one before it had made, from 0 on, and the aggregate holds what the last of them asked for. -/
theorem no_update_lost (h : (accountMachine env).Legal noAccounts inputs) {userId : UUID}
    {user : UserRow} {profile : UserProfileRow}
    (hlock : lockProfile ((accountMachine env).exec noAccounts inputs) userId = .ok (user, profile)) :
    (∃ displayName, RegisteredAs userId displayName ((accountMachine env).history noAccounts inputs) ∧
      Chain ⟨⟨strip displayName, none, .ko⟩, 0⟩ ⟨fieldsOf user profile, profile.profileVersion⟩
        (profileUpdates userId ((accountMachine env).history noAccounts inputs))) ∧
      Chain ⟨matrix defaultPreferences, 0⟩
        ⟨matrix (preferenceItems ((accountMachine env).exec noAccounts inputs) userId),
          profile.preferencesVersion⟩
        (preferenceUpdates userId ((accountMachine env).history noAccounts inputs)) := by
  constructor
  · obtain ⟨hlegal, hhistory, hexec⟩ := (profileStore env).run h sound_noAccounts
    have hcell := (congrFun hexec userId).trans (profileCells_of_ok hlock)
    rcases chain_of_creation hlegal (k := userId) rfl with ⟨hnone, -⟩ | ⟨a, c, hcreate, hc, hchain⟩
    · exact nomatch hnone.symm.trans hcell
    · cases hc.symm.trans hcell
      obtain ⟨displayName, hregistered, rfl⟩ := registeredAs_of_create hcreate
      rw [hhistory, acceptedWrites_profile] at hchain
      exact ⟨displayName, hregistered, hchain⟩
  · obtain ⟨hlegal, hhistory, hexec⟩ := (preferenceStore env).run h sound_noAccounts
    have hcell := (congrFun hexec userId).trans (preferenceCells_of_ok hlock)
    rcases chain_of_creation hlegal (k := userId) rfl with ⟨hnone, -⟩ | ⟨a, c, hcreate, hc, hchain⟩
    · exact nomatch hnone.symm.trans hcell
    · cases hc.symm.trans hcell
      obtain rfl := default_of_create hcreate
      rw [hhistory, acceptedWrites_preferences] at hchain
      exact hchain

theorem no_update_lost_of_run :
    let inputs : List AccountInput := [registration,
      .updateProfile 6 1 0 (lit "B") none .en, .updateProfile 7 1 0 (lit "C") none .ko]
    let updates := profileUpdates 1 ((accountMachine plainEnv).history noAccounts inputs)
    updates.map Prod.fst = [0] ∧ lastValue ⟨lit "A", none, .ko⟩ updates = ⟨lit "B", none, .en⟩ := by
  intro inputs updates
  have hlegal : (accountMachine plainEnv).Legal noAccounts inputs := ⟨trivial, trivial, trivial, trivial⟩
  obtain ⟨⟨displayName, -, hchain⟩, -⟩ := @no_update_lost plainEnv inputs hlegal 1
    ⟨1, lit "a@b.c", lit "hash", lit "B"⟩ ⟨1, none, .en, 1, 0, 6, 5⟩ (by decide +kernel)
  have hlength : updates.length = 1 := by
    have hversion : 1 = 0 + updates.length := hchain.version
    omega
  constructor
  · have hversions : updates.map Prod.fst = List.range' 0 updates.length := hchain.versions
    rw [hversions, hlength]
    rfl
  · obtain ⟨update, hupdate⟩ := List.length_eq_one_iff.mp hlength
    have hvalue : _ = lastValue _ updates := hchain.value
    rw [hupdate] at hvalue ⊢
    exact hvalue.symm

/-- **The ledger counts the changes.** After every run the ledger holds one registration for each
account and, for each of its aggregates, one event for each version from 1 to the current one. -/
theorem ledger_counts_updates (h : (accountMachine env).Legal noAccounts inputs) :
    let t := (accountMachine env).exec noAccounts inputs
    registeredIn t.activity.auditEvents = t.users.map (·.id) ∧ (t.users.map (·.id)).Nodup ∧
      ∀ u user profile, lockProfile t u = .ok (user, profile) →
        versionsIn profileEvent u t.activity.auditEvents = List.range' 1 profile.profileVersion ∧
          versionsIn preferencesEvent u t.activity.auditEvents =
            List.range' 1 profile.preferencesVersion := by
  have hsound := (profileStore env).inv_exec h sound_noAccounts
  refine ⟨hsound.registered, hsound.ids, fun u user profile hlock ↦ ?_⟩
  have hprofile := (lockProfile_eq_ok.mp hlock).2
  constructor
  · rw [← counter_eq (·.profileVersion) hprofile]
    exact hsound.profileEvents u
  · rw [← counter_eq (·.preferencesVersion) hprofile]
    exact hsound.preferencesEvents u

theorem ledger_counts_updates_of_run :
    let inputs : List AccountInput := [registration,
      .updateProfile 6 1 0 (lit "B") none .en]
    let t := (accountMachine plainEnv).exec noAccounts inputs
    versionsIn profileEvent 1 t.activity.auditEvents = [1] := by
  intro inputs t
  have hlegal : (accountMachine plainEnv).Legal noAccounts inputs := ⟨trivial, trivial, trivial⟩
  obtain ⟨-, -, hcounts⟩ := ledger_counts_updates hlegal
  exact (hcounts 1 ⟨1, lit "a@b.c", lit "hash", lit "B"⟩ ⟨1, none, .en, 1, 0, 6, 5⟩
    (by decide +kernel)).1

theorem raises_map {ε α β : Type} {P : ε → Prop} {x : Except ε α} {f : α → β} :
    Raises P (x.map f) ↔ Raises P x := by
  cases x with
  | error e => rw [Except.map, raises_error, raises_error]
  | ok a => exact iff_of_false not_raises_ok not_raises_ok

theorem Sound.not_raises_getPreferences {t : AccountTables} (hsound : Sound t) {u : UUID}
    (hmem : u ∈ t.users.map (·.id)) : ¬Raises IsProfileInvariant (getPreferences t u) := by
  obtain ⟨user, profile, hlock⟩ := (hsound.lockProfile u).mpr hmem
  refine not_raises_bind (not_raises_of_ok hlock) fun _ _ ↦ not_raises_bind ?_ fun _ _ ↦ not_raises_ok
  rw [Account.preferences, require_of (hsound.complete hmem)]
  exact not_raises_ok

/-- The user that a call is about. -/
def requestUser : AccountInput → Option UUID
  | .getProfile u | .getPreferences u | .updateProfile _ u _ _ _ _ | .updatePreferences _ u _ _ => some u
  | .register .. | .activity .. => none

/-- **No aggregate is ever incomplete.** After every run, a call for a registered user does not find
its aggregates incomplete, whatever its arguments, and a read for another user does. -/
theorem aggregates_complete (h : (accountMachine env).Legal noAccounts inputs) {input : AccountInput}
    {u : UUID} (hu : requestUser input = some u) :
    let t := (accountMachine env).exec noAccounts inputs
    (u ∈ t.users.map (·.id) → Complete (preferenceItems t u) ∧
        ¬Raises IsProfileInvariant ((accountMachine env).step t input).1) ∧
      (u ∉ t.users.map (·.id) → Raises IsProfileInvariant (getProfile t u) ∧
        Raises IsProfileInvariant (getPreferences t u)) := by
  intro t
  have hsound : Sound t := (profileStore env).inv_exec h sound_noAccounts
  constructor
  · intro hmem
    refine ⟨hsound.complete hmem, ?_⟩
    obtain ⟨user, profile, hlock⟩ := (hsound.lockProfile u).mpr hmem
    have hlocked : ¬Raises IsProfileInvariant (lockProfile t u) := not_raises_of_ok hlock
    cases input with
    | register now email password displayName userId passwordHash => cases hu
    | activity e effects => cases hu
    | getProfile userId =>
      cases hu
      change ¬Raises IsProfileInvariant ((getProfile t u).map _)
      rw [raises_map]
      exact not_raises_bind hlocked fun _ _ ↦ not_raises_ok
    | getPreferences userId =>
      cases hu
      change ¬Raises IsProfileInvariant ((getPreferences t u).map _)
      rw [raises_map]
      exact hsound.not_raises_getPreferences hmem
    | updateProfile now userId expectedVersion displayName jobTitle language =>
      cases hu
      change ¬Raises IsProfileInvariant (transaction t _).1
      rw [raises_transaction, raises_map]
      intro hraises
      rcases updateProfile_raises (by rintro _ ⟨_, ⟨⟩⟩) (by rintro _ ⟨_, ⟨⟩⟩)
        (by rintro _ ⟨_, ⟨⟩⟩) hraises with hlock | ⟨_, _, -, -, hstale⟩
      · exact hlocked hlock
      · obtain ⟨_, ⟨⟩⟩ := hstale
    | updatePreferences now userId expectedVersion values =>
      cases hu
      change ¬Raises IsProfileInvariant (transaction t _).1
      rw [raises_transaction, raises_map]
      intro hraises
      rcases updatePreferences_raises (by rintro _ ⟨_, ⟨⟩⟩)
        (by rintro _ ⟨_, ⟨⟩⟩) hraises with hlock | ⟨_, _, -, hcomplete | ⟨-, hstale⟩⟩
      · exact hlocked hlock
      · exact hcomplete (hsound.complete hmem)
      · obtain ⟨_, ⟨⟩⟩ := hstale
  · intro hmem
    have hlock : Raises IsProfileInvariant (lockProfile t u) := by
      cases hlock : lockProfile t u with
      | error e =>
        rw [lockProfile] at hlock
        split at hlock
        · cases hlock
        · cases hlock
          exact raises_error.mpr ⟨_, rfl⟩
      | ok r => exact absurd ((hsound.lockProfile u).mp ⟨r.1, r.2, hlock⟩) hmem
    exact ⟨raises_bind.mpr (Or.inl hlock), raises_bind.mpr (Or.inl hlock)⟩

theorem aggregates_complete_of_run :
    let inputs : List AccountInput := [registration]
    let t := (accountMachine plainEnv).exec noAccounts inputs
    Complete (preferenceItems t 1) ∧ Raises IsProfileInvariant (getProfile t 2) := by
  intro inputs t
  have hlegal : (accountMachine plainEnv).Legal noAccounts inputs := ⟨trivial, trivial⟩
  exact ⟨((@aggregates_complete plainEnv inputs hlegal (.getProfile 1) 1 rfl).1 (by decide +kernel)).1,
    ((@aggregates_complete plainEnv inputs hlegal (.getProfile 2) 2 rfl).2 (by decide +kernel)).1⟩

end Runs

end Account

end MeetingRag
