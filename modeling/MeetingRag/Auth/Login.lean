import Mathlib.Data.List.Induction
import MeetingRag.Domain.Models
import MeetingRag.Library.Machine
import MeetingRag.Library.Regex
import MeetingRag.Library.Sha256
import MeetingRag.Library.Table
import MeetingRag.Library.Url

/-!
# Login sessions

A login takes the lock of the user's row, revokes the sessions of the user that are not yet revoked, and
inserts a new one, in one transaction. A logout is one statement about one session and takes no lock of
the user. Between the statements of a login anything may happen that its locks do not forbid: other
users log in, tokens are checked, sessions that the login has not written to are revoked.

So a login is four steps here: it begins, revokes, commits, or is rolled back. What it has written is
kept beside the tables until it commits, and nobody else may write to those rows before.
-/

open Outcome Py Table

namespace MeetingRag

/-! ## Rows and values -/

/-- The exceptions of the service, and what its statements may raise. -/
inductive AuthError
  | invalidCredentials (message : String)
  | sessionAuthentication (message : String)
  | emailAlreadyRegistered (message : String)
  | registrationValidation (message : String)
  | raised (e : Exc)
  | database (constraint : String)
deriving DecidableEq, Repr

structure UserRow where
  id : UUID
  email : Str
  passwordHash : Str
  displayName : Str
deriving DecidableEq, Repr

structure AuthSessionRow where
  id : UUID
  tokenHash : Str
  csrfSecretHash : Str
  userId : UUID
  expiresAt : Timestamp
  revokedAt : Option Timestamp
deriving DecidableEq, Repr

/-- `UserRecord` -/
structure UserRecord where
  id : UUID
  email : Str
  displayName : Str
deriving DecidableEq, Repr

def UserRow.record (user : UserRow) : UserRecord := ⟨user.id, user.email, user.displayName⟩

/-- `LoginResult` -/
structure LoginResult where
  user : UserRecord
  sessionId : UUID
  sessionToken : Str
  csrfToken : Str
  expiresAt : Timestamp
deriving DecidableEq, Repr

/-- `AuthenticatedSession` -/
structure AuthenticatedSession where
  id : UUID
  user : UserRecord
  sessionToken : Str
  csrfSecretHash : Str
  expiresAt : Timestamp
deriving DecidableEq, Repr

/-- A login between its first statement and its end. -/
structure LoginTransaction where
  user : UserRow
  sessionId : UUID
  sessionToken : Str
  /-- The new verifier of the password, where the old one needs a rehash. -/
  rehashed : Option Str
  /-- The rows that the login has revoked, and when. -/
  revoked : Option (List UUID × Timestamp)
deriving DecidableEq, Repr

structure AuthState where
  users : List UserRow
  sessions : List AuthSessionRow
  /-- The logins that hold the lock of their user's row. -/
  logins : List LoginTransaction
  now : Timestamp
deriving DecidableEq, Repr

/-- What the service is built with. -/
structure AuthEnv where
  casing : Url.Casing
  /-- `hasher.verify(password_hash, password)` -/
  verify : Str → Str → Bool
  /-- `hasher.check_needs_rehash(password_hash)` -/
  needsRehash : Str → Bool
  deriveCsrfToken : Str → Str
  sessionTtl : ℕ
  ttl_pos : 0 < sessionTtl

/-! ## Validation -/

/-- `secret_hash` -/
def secretHash (value : Str) : Except AuthError Str := do
  require (value ≠ []) (.raised (.valueError "secret must not be empty"))
  require (Scalar value) (.raised .unicodeEncodeError)
  .ok (sha256Hex (encodeUtf8 value))

/-- `_normalize_email_for_login` -/
def normalizeEmailForLogin (env : AuthEnv) (email : Str) : Except AuthError Str := do
  let normalized := env.casing.lower (strip email)
  require (normalized ≠ [] ∧ normalized.length ≤ 320 ∧ normalized.all (32 ≤ ·.val))
    (.invalidCredentials "invalid credentials")
  .ok normalized

/-- `_normalize_email` -/
def normalizeEmail (env : AuthEnv) (email : Str) : Except AuthError Str := do
  let normalized ← normalizeEmailForLogin env email
  require (3 ≤ normalized.length ∧ normalized.length ≤ 320 ∧ 64 ∈ normalized)
    (.registrationValidation "email must be a valid address")
  .ok normalized

/-- `_normalize_display_name` -/
def normalizeDisplayName (displayName : Str) : Except AuthError Str := do
  let normalized := strip displayName
  require (normalized ≠ [] ∧ normalized.length ≤ 200 ∧ 0 ∉ normalized)
    (.registrationValidation "display name is invalid")
  .ok normalized

/-! ## The service -/

/-- The unique keys of `users`. -/
def usersKey (a b : UserRow) : Prop := a.id = b.id ∨ a.email = b.email

instance : DecidableRel usersKey := fun a b ↦
  inferInstanceAs (Decidable (a.id = b.id ∨ a.email = b.email))

/-- The unique keys of `auth_sessions`. -/
def authSessionsKey (a b : AuthSessionRow) : Prop := a.id = b.id ∨ a.tokenHash = b.tokenHash

instance : DecidableRel authSessionsKey := fun a b ↦
  inferInstanceAs (Decidable (a.id = b.id ∨ a.tokenHash = b.tokenHash))

section Service

variable (env : AuthEnv)

/-- `register`, given the id of the account and the verifier of the password. -/
def register (s : AuthState) (email password displayName : Str) (userId : UUID) (passwordHash : Str) :
    Except AuthError (UserRecord × AuthState) := do
  let normalizedEmail ← normalizeEmail env email
  let normalizedDisplayName ← normalizeDisplayName displayName
  require (8 ≤ password.length ∧ password.length ≤ 1024)
    (.registrationValidation "password must be between 8 and 1024 characters")
  let user : UserRow := ⟨userId, normalizedEmail, passwordHash, normalizedDisplayName⟩
  let users ← insertRow (fun u : UserRow ↦ StorableText u.email ∧ StorableText u.displayName) usersKey
    (.raised .unicodeEncodeError) (.emailAlreadyRegistered "email is already registered") s.users user
  .ok (user.record, { s with users := users })

/-- The start of `login`, up to the lock and the check of the password: an unknown user fails like a
wrong password. -/
def beginLogin (s : AuthState) (email password : Str) (sessionId : UUID) (sessionToken newHash : Str) :
    Except AuthError LoginTransaction := do
  let normalized ← normalizeEmailForLogin env email
  require (1 ≤ password.length ∧ password.length ≤ 1024) (.invalidCredentials "invalid credentials")
  match s.users.find? (·.email = normalized) with
  | none => .error (.invalidCredentials "invalid credentials")
  | some user => do
    require (env.verify user.passwordHash password = true) (.invalidCredentials "invalid credentials")
    .ok ⟨user, sessionId, sessionToken,
      if env.needsRehash user.passwordHash then some newHash else none, none⟩

/-- The sessions of a user that are not revoked. -/
def ActiveOf (userId : UUID) (row : AuthSessionRow) : Prop :=
  row.userId = userId ∧ row.revokedAt = none

instance (userId : UUID) : DecidablePred (ActiveOf userId) := fun row ↦
  inferInstanceAs (Decidable (row.userId = userId ∧ row.revokedAt = none))

/-- The `UPDATE` of `login`: the rows that it finds when it runs. -/
def LoginTransaction.revoke (login : LoginTransaction) (s : AuthState) : LoginTransaction :=
  { login with revoked := some ((s.sessions.filter (ActiveOf login.user.id ·)).map (·.id), s.now) }

/-- The rest of `login`. -/
def commitLogin (s : AuthState) (login : LoginTransaction) (ids : List UUID) (stamp : Timestamp) :
    Except AuthError (LoginResult × AuthState) := do
  let csrfToken := env.deriveCsrfToken login.sessionToken
  let tokenHash ← secretHash login.sessionToken
  let csrfSecretHash ← secretHash csrfToken
  let expiresAt := s.now + env.sessionTtl
  let sessions ← insertUnique authSessionsKey (fun _ ↦ .database "auth_sessions_key")
    ⟨login.sessionId, tokenHash, csrfSecretHash, login.user.id, expiresAt, none⟩
    (updateWhere (·.id ∈ ids) (fun row ↦ { row with revokedAt := some stamp }) s.sessions)
  let users := match login.rehashed with
    | some newHash =>
      updateWhere (·.id = login.user.id) (fun u ↦ { u with passwordHash := newHash }) s.users
    | none => s.users
  .ok (⟨login.user.record, login.sessionId, login.sessionToken, csrfToken, expiresAt⟩,
    { s with users := users, sessions := sessions })

/-- `authenticate` -/
def authenticate (s : AuthState) (sessionToken : Option Str) :
    Except AuthError AuthenticatedSession := do
  match sessionToken with
  | none => .error (.sessionAuthentication "authentication required")
  | some token => do
    require (token ≠ []) (.sessionAuthentication "authentication required")
    let tokenHash ← secretHash token
    match s.sessions.findSome? fun row ↦
      if row.tokenHash = tokenHash ∧ row.revokedAt = none ∧ s.now < row.expiresAt then
        (s.users.find? (·.id = row.userId)).map fun user ↦
          (⟨row.id, user.record, token, row.csrfSecretHash, row.expiresAt⟩ : AuthenticatedSession)
      else none with
    | some session => .ok session
    | none => .error (.sessionAuthentication "authentication required")

/-- `logout` of the session that was authenticated. -/
def logout (s : AuthState) (id : UUID) : Except AuthError (Unit × AuthState) := do
  require (rowcount (fun row : AuthSessionRow ↦ row.id = id ∧ row.revokedAt = none) s.sessions = 1)
    (.sessionAuthentication "authentication required")
  let sessions := updateWhere (fun row : AuthSessionRow ↦ row.id = id ∧ row.revokedAt = none)
    (fun row ↦ { row with revokedAt := some s.now }) s.sessions
  .ok ((), { s with sessions := sessions })

/-! ## Steps -/

inductive AuthInput
  | register (email password displayName : Str) (userId : UUID) (passwordHash : Str)
  | beginLogin (email password : Str) (sessionId : UUID) (sessionToken newHash : Str)
  | revoke (userId : UUID)
  | commit (userId : UUID)
  /-- The login of a user is rolled back. -/
  | abort (userId : UUID)
  | authenticate (sessionToken : Option Str)
  | logout (id : UUID)
  | advance (microseconds : ℕ)
deriving DecidableEq, Repr

inductive AuthReply
  | done
  | registered (user : UserRecord)
  | loggedIn (result : LoginResult)
  | authenticated (session : AuthenticatedSession)
deriving DecidableEq, Repr

/-- The login of a user. -/
def AuthState.loginOf (s : AuthState) (userId : UUID) : Option LoginTransaction :=
  s.logins.find? (·.user.id = userId)

/-- The state without the login of a user. -/
def AuthState.without (s : AuthState) (userId : UUID) : AuthState :=
  { s with logins := s.logins.filter (·.user.id ≠ userId) }

/-- The inputs that no lock holds up, with issued tokens from a set. -/
def AuthEnabled (tokens : Str → Prop) (s : AuthState) : AuthInput → Prop
  | .beginLogin email _ _ sessionToken _ => tokens sessionToken ∧
    ∀ login ∈ s.logins, normalizeEmailForLogin env email ≠ .ok login.user.email
  | .revoke userId => ∃ login ∈ s.loginOf userId, login.revoked = none
  | .commit userId => ∃ login ∈ s.loginOf userId, login.revoked ≠ none
  -- the row is locked by the login that has revoked it
  | .logout id => ∀ login ∈ s.logins, ∀ revoked ∈ login.revoked, id ∉ revoked.1
  | .register .. | .abort _ | .authenticate _ | .advance _ => True

instance instDecidableAuthEnabled (tokens : Str → Prop) [DecidablePred tokens] (s : AuthState) :
    ∀ input, Decidable (AuthEnabled env tokens s input)
  | .beginLogin email _ _ sessionToken _ => inferInstanceAs (Decidable (tokens sessionToken ∧
      ∀ login ∈ s.logins, normalizeEmailForLogin env email ≠ .ok login.user.email))
  | .revoke userId => inferInstanceAs (Decidable (∃ login ∈ s.loginOf userId, login.revoked = none))
  | .commit userId => inferInstanceAs (Decidable (∃ login ∈ s.loginOf userId, login.revoked ≠ none))
  | .logout id => inferInstanceAs
      (Decidable (∀ login ∈ s.logins, ∀ revoked ∈ login.revoked, id ∉ revoked.1))
  | .register .. | .abort _ | .authenticate _ | .advance _ => .isTrue trivial

/-- A transaction that keeps the state when it fails. -/
def keeping {α : Type} (s : AuthState) (reply : α → AuthReply)
    (body : Except AuthError (α × AuthState)) : Except AuthError AuthReply × AuthState :=
  match body with
  | .ok (a, s') => (.ok (reply a), s')
  | .error e => (.error e, s)

def authStep (s : AuthState) : AuthInput → Except AuthError AuthReply × AuthState
  | .register email password displayName userId passwordHash =>
    keeping s .registered (register env s email password displayName userId passwordHash)
  | .beginLogin email password sessionId sessionToken newHash =>
    match beginLogin env s email password sessionId sessionToken newHash with
    | .ok login => (.ok .done, { s with logins := s.logins ++ [login] })
    | .error e => (.error e, s)
  | .revoke userId =>
    let logins := updateWhere (·.user.id = userId) (fun login ↦ login.revoke s) s.logins
    (.ok .done, { s with logins := logins })
  | .commit userId =>
    match s.loginOf userId with
    | some login =>
      match login.revoked with
      | some (ids, stamp) =>
        keeping (s.without userId) .loggedIn (commitLogin env (s.without userId) login ids stamp)
      | none => (.ok .done, s)
    | none => (.ok .done, s)
  | .abort userId => (.ok .done, s.without userId)
  | .authenticate sessionToken =>
    keeping s .authenticated ((authenticate s sessionToken).map (·, s))
  | .logout id => keeping s (fun _ ↦ .done) (logout s id)
  | .advance microseconds => (.ok .done, { s with now := s.now + microseconds })

/-- The service under every interleaving. -/
def authMachine (tokens : Str → Prop) :
    Machine AuthState AuthInput (Except AuthError AuthReply) where
  enabled := AuthEnabled env tokens
  step := authStep env

instance instDecidableAuthMachineEnabled (tokens : Str → Prop) [DecidablePred tokens]
    (s : AuthState) (input : AuthInput) : Decidable ((authMachine env tokens).enabled s input) :=
  instDecidableAuthEnabled env tokens s input

end Service

/-- No account yet. -/
def emptyAuth (now : Timestamp) : AuthState := ⟨[], [], [], now⟩

/-! ## One login at a time -/

/-- The logins of a user that have succeeded, in order. -/
def loginsOf (history : List (AuthInput × Except AuthError AuthReply)) (userId : UUID) :
    List LoginResult :=
  history.filterMap fun e ↦
    match e.2 with
    | .ok (.loggedIn result) => if result.user.id = userId then some result else none
    | _ => none

/-- The session belongs to the last login. -/
def IssuedBy (tokens : Str → Prop) (row : AuthSessionRow) (result : LoginResult) : Prop :=
  result.sessionId = row.id ∧ secretHash result.sessionToken = .ok row.tokenHash ∧
    tokens result.sessionToken

/-- What holds in every state, with the logins of each user up to now. -/
structure OneLogin (tokens : Str → Prop) (past : UUID → List LoginResult) (s : AuthState) : Prop where
  users : (s.users.map (·.id)).Nodup
  sessions : (s.sessions.map (·.id)).Nodup
  locks : s.logins.Pairwise fun a b ↦ a.user.id ≠ b.user.id
  known : ∀ login ∈ s.logins, ∃ u ∈ s.users, u.id = login.user.id ∧ u.email = login.user.email
  issued : ∀ login ∈ s.logins, tokens login.sessionToken
  latest : ∀ row ∈ s.sessions, row.revokedAt = none →
    ∃ result, (past row.userId).getLast? = some result ∧ IssuedBy tokens row result
  covered : ∀ login ∈ s.logins, ∀ revoked ∈ login.revoked, ∀ row ∈ s.sessions,
    ActiveOf login.user.id row → row.id ∈ revoked.1

section Invariant

variable {env : AuthEnv} {tokens : Str → Prop} {past : UUID → List LoginResult} {s : AuthState}

theorem oneLogin_empty (now : Timestamp) : OneLogin tokens (fun _ ↦ []) (emptyAuth now) :=
  ⟨List.nodup_nil, List.nodup_nil, List.Pairwise.nil, List.forall_mem_nil _, List.forall_mem_nil _,
    List.forall_mem_nil _, List.forall_mem_nil _⟩

theorem OneLogin.unique (h : OneLogin tokens past s) : ∀ a ∈ s.sessions, ∀ b ∈ s.sessions,
    a.userId = b.userId → a.revokedAt = none → b.revokedAt = none → a = b := by
  intro a ha b hb huser harevoked hbrevoked
  obtain ⟨r, hr, hid, -⟩ := h.latest a ha harevoked
  obtain ⟨r', hr', hid', -⟩ := h.latest b hb hbrevoked
  rw [huser, hr', Option.some.injEq] at hr
  exact eq_of_key_eq h.sessions ha hb (hid.symm.trans (hr ▸ hid'))

theorem OneLogin.without (h : OneLogin tokens past s) (userId : UUID) :
    OneLogin tokens past (s.without userId) :=
  ⟨h.users, h.sessions, h.locks.sublist List.filter_sublist,
    fun login hlogin ↦ h.known login (List.mem_of_mem_filter hlogin),
    fun login hlogin ↦ h.issued login (List.mem_of_mem_filter hlogin), h.latest,
    fun login hlogin ↦ h.covered login (List.mem_of_mem_filter hlogin)⟩

theorem OneLogin.register (h : OneLogin tokens past s) {email password displayName : Str}
    {userId : UUID} {passwordHash : Str} {user : UserRecord} {s' : AuthState}
    (hs : register env s email password displayName userId passwordHash = .ok (user, s')) :
    OneLogin tokens past s' := by
  obtain ⟨_, -, hs⟩ := bind_eq_ok.mp hs
  obtain ⟨_, -, hs⟩ := bind_eq_ok.mp hs
  obtain ⟨-, hs⟩ := require_bind_eq_ok.mp hs
  obtain ⟨users, husers, hs⟩ := bind_eq_ok.mp hs
  obtain ⟨-, hfresh, rfl⟩ := insertRow_eq_ok.mp husers
  obtain ⟨-, rfl⟩ := Prod.mk.inj (Except.ok.inj hs)
  refine ⟨nodup_map_append_singleton h.users fun u hu hid ↦ hfresh u hu (Or.inl hid),
    h.sessions, h.locks, fun login hlogin ↦ ?_, h.issued, h.latest, h.covered⟩
  obtain ⟨u, hu, hknown⟩ := h.known login hlogin
  exact ⟨u, List.mem_append_left _ hu, hknown⟩

theorem OneLogin.beginLogin (h : OneLogin tokens past s) {email password : Str} {sessionId : UUID}
    {sessionToken newHash : Str} {login : LoginTransaction} (htoken : tokens sessionToken)
    (hfree : ∀ other ∈ s.logins, normalizeEmailForLogin env email ≠ .ok other.user.email)
    (hs : beginLogin env s email password sessionId sessionToken newHash = .ok login) :
    OneLogin tokens past { s with logins := s.logins ++ [login] } := by
  obtain ⟨normalized, hnormalized, hs⟩ := bind_eq_ok.mp hs
  obtain ⟨-, hs⟩ := require_bind_eq_ok.mp hs
  split at hs
  · exact nomatch hs
  · next user hfound =>
    obtain ⟨-, hs⟩ := require_bind_eq_ok.mp hs
    cases hs
    have hmem := List.mem_of_find?_eq_some hfound
    have hemail : user.email = normalized := of_decide_eq_true (List.find?_some hfound :)
    refine ⟨h.users, h.sessions, ?_, ?_, ?_, h.latest, ?_⟩
    · refine List.pairwise_append.mpr ⟨h.locks, List.pairwise_singleton _ _, fun other hother l hl ↦ ?_⟩
      rw [List.mem_singleton.mp hl]
      intro hid
      obtain ⟨u, hu, huid, huemail⟩ := h.known other hother
      have hsame : u = user := eq_of_key_eq h.users hu hmem (huid.trans hid)
      refine hfree other hother ?_
      rw [hnormalized, ← huemail, hsame, hemail]
    · exact List.forall_mem_append.mpr ⟨h.known, List.forall_mem_singleton.mpr ⟨user, hmem, rfl, rfl⟩⟩
    · exact List.forall_mem_append.mpr ⟨h.issued, List.forall_mem_singleton.mpr htoken⟩
    · refine List.forall_mem_append.mpr ⟨h.covered, List.forall_mem_singleton.mpr ?_⟩
      exact fun _ hrevoked ↦ nomatch hrevoked

theorem OneLogin.revoke (h : OneLogin tokens past s) (userId : UUID) :
    OneLogin tokens past { s with
      logins := updateWhere (·.user.id = userId) (fun login ↦ login.revoke s) s.logins } := by
  have hlogin : ∀ login ∈ updateWhere (·.user.id = userId) (fun login ↦ login.revoke s) s.logins,
      ∃ old ∈ s.logins, login.user = old.user ∧ login.sessionToken = old.sessionToken ∧
        (login.revoked = old.revoked ∨ login = old.revoke s) := by
    intro login hmem
    rcases mem_updateWhere.mp hmem with ⟨old, hold, -, rfl⟩ | ⟨hold, -⟩
    · exact ⟨old, hold, rfl, rfl, Or.inr rfl⟩
    · exact ⟨login, hold, rfl, rfl, Or.inl rfl⟩
  refine ⟨h.users, h.sessions, ?_, fun login hmem ↦ ?_, fun login hmem ↦ ?_, h.latest,
    fun login hmem revoked hrevoked row hrow hactive ↦ ?_⟩
  · have hids : (updateWhere (fun login : LoginTransaction ↦ login.user.id = userId)
        (fun login ↦ login.revoke s) s.logins).map (·.user.id) = s.logins.map (·.user.id) :=
      map_updateWhere_of_forall fun _ ↦ rfl
    apply List.pairwise_map.mp
    rw [hids]
    exact List.pairwise_map.mpr h.locks
  · obtain ⟨old, hold, huser, -⟩ := hlogin login hmem
    exact huser ▸ h.known old hold
  · obtain ⟨old, hold, -, htoken, -⟩ := hlogin login hmem
    exact htoken ▸ h.issued old hold
  · obtain ⟨old, hold, huser, -, hkept | rfl⟩ := hlogin login hmem
    · exact h.covered old hold revoked (hkept ▸ hrevoked) row hrow (huser ▸ hactive)
    · cases hrevoked
      exact List.mem_map_of_mem (List.mem_filter.mpr ⟨hrow, decide_eq_true hactive⟩)

/-- The logins of each user after one more. -/
def withLogin (past : UUID → List LoginResult) (result : LoginResult) (userId : UUID) :
    List LoginResult :=
  if result.user.id = userId then past userId ++ [result] else past userId

theorem getLast?_withLogin (past : UUID → List LoginResult) (result : LoginResult) :
    (withLogin past result result.user.id).getLast? = some result := by
  rw [withLogin, if_pos rfl, List.getLast?_concat]

theorem OneLogin.commit (h : OneLogin tokens past s) {login : LoginTransaction} {ids : List UUID}
    {stamp : Timestamp} {result : LoginResult} {s' : AuthState} (htoken : tokens login.sessionToken)
    (hcovered : ∀ row ∈ s.sessions, ActiveOf login.user.id row → row.id ∈ ids)
    (hlock : ∀ other ∈ s.logins, other.user.id ≠ login.user.id)
    (hs : commitLogin env s login ids stamp = .ok (result, s')) :
    OneLogin tokens (withLogin past result) s' := by
  obtain ⟨tokenHash, hhash, hs⟩ := bind_eq_ok.mp hs
  obtain ⟨csrfSecretHash, -, hs⟩ := bind_eq_ok.mp hs
  obtain ⟨sessions, hsessions, hs⟩ := bind_eq_ok.mp hs
  obtain ⟨hfresh, rfl⟩ := insertUnique_eq_ok.mp hsessions
  obtain ⟨rfl, rfl⟩ := Prod.mk.inj (Except.ok.inj hs)
  have hids : (updateWhere (fun row : AuthSessionRow ↦ row.id ∈ ids)
      (fun row ↦ { row with revokedAt := some stamp }) s.sessions).map (·.id) =
        s.sessions.map (·.id) := map_updateWhere_of_forall fun _ ↦ rfl
  -- a row that is still active was not written to
  have hactive : ∀ row ∈ updateWhere (fun row : AuthSessionRow ↦ row.id ∈ ids)
      (fun row ↦ { row with revokedAt := some stamp }) s.sessions, row.revokedAt = none →
        row ∈ s.sessions ∧ row.userId ≠ login.user.id := by
    intro row hrow hnone
    rcases mem_updateWhere.mp hrow with ⟨old, -, -, rfl⟩ | ⟨hold, hnot⟩
    · exact nomatch hnone
    · exact ⟨hold, fun huser ↦ hnot (hcovered row hold ⟨huser, hnone⟩)⟩
  refine ⟨?_, ?_, h.locks, ?_, h.issued, ?_, ?_⟩
  · dsimp only
    split
    · next newHash _ =>
      have hids : (updateWhere (fun u : UserRow ↦ u.id = login.user.id)
          (fun u ↦ { u with passwordHash := newHash }) s.users).map (·.id) = s.users.map (·.id) :=
        map_updateWhere_of_forall fun _ ↦ rfl
      rw [hids]
      exact h.users
    · exact h.users
  · refine nodup_map_append_singleton (hids ▸ h.sessions) fun row hrow hid ↦ ?_
    exact hfresh row hrow (Or.inl hid)
  · intro other hother
    obtain ⟨u, hu, hknown⟩ := h.known other hother
    dsimp only
    split
    · next newHash _ =>
      by_cases hsame : u.id = login.user.id
      · exact ⟨_, mem_updateWhere_of_mem hu hsame, hknown⟩
      · exact ⟨u, mem_updateWhere_of_not hu hsame, hknown⟩
    · exact ⟨u, hu, hknown⟩
  · refine List.forall_mem_append.mpr ⟨fun row hrow hnone ↦ ?_, List.forall_mem_singleton.mpr ?_⟩
    · obtain ⟨hold, huser⟩ := hactive row hrow hnone
      rw [withLogin, if_neg fun heq ↦ huser heq.symm]
      exact h.latest row hold hnone
    · intro _
      exact ⟨_, getLast?_withLogin past ⟨login.user.record, login.sessionId, login.sessionToken,
        env.deriveCsrfToken login.sessionToken, s.now + env.sessionTtl⟩, rfl, hhash, htoken⟩
  · intro other hother revoked hrevoked
    refine List.forall_mem_append.mpr ⟨fun row hrow hrowActive ↦ ?_, List.forall_mem_singleton.mpr ?_⟩
    · exact h.covered other hother revoked hrevoked row (hactive row hrow hrowActive.2).1 hrowActive
    · exact fun hnew ↦ absurd hnew.1.symm (hlock other hother)

theorem OneLogin.logout (h : OneLogin tokens past s) {id : UUID} {s' : AuthState}
    (hs : logout s id = .ok ((), s')) : OneLogin tokens past s' := by
  obtain ⟨-, hs⟩ := require_bind_eq_ok.mp hs
  obtain ⟨-, rfl⟩ := Prod.mk.inj (Except.ok.inj hs)
  have hactive : ∀ row ∈ updateWhere (fun row : AuthSessionRow ↦ row.id = id ∧ row.revokedAt = none)
      (fun row ↦ { row with revokedAt := some s.now }) s.sessions, row.revokedAt = none →
        row ∈ s.sessions := by
    intro row hrow hnone
    rcases mem_updateWhere.mp hrow with ⟨old, -, -, rfl⟩ | ⟨hold, -⟩
    · exact nomatch hnone
    · exact hold
  refine ⟨h.users, ?_, h.locks, h.known, h.issued, fun row hrow hnone ↦ ?_,
    fun login hlogin revoked hrevoked row hrow hrowActive ↦ ?_⟩
  · have hids : (updateWhere (fun row : AuthSessionRow ↦ row.id = id ∧ row.revokedAt = none)
        (fun row ↦ { row with revokedAt := some s.now }) s.sessions).map (·.id) =
          s.sessions.map (·.id) := map_updateWhere_of_forall fun _ ↦ rfl
    rw [hids]
    exact h.sessions
  · exact h.latest row (hactive row hrow hnone) hnone
  · exact h.covered login hlogin revoked hrevoked row (hactive row hrow hrowActive.2) hrowActive

theorem AuthState.mem_of_loginOf {userId : UUID} {login : LoginTransaction}
    (h : s.loginOf userId = some login) : login ∈ s.logins ∧ login.user.id = userId :=
  ⟨List.mem_of_find?_eq_some h, of_decide_eq_true (List.find?_some h :)⟩

theorem OneLogin.advance (h : OneLogin tokens past s) (now : Timestamp) :
    OneLogin tokens past { s with now := now } :=
  ⟨h.users, h.sessions, h.locks, h.known, h.issued, h.latest, h.covered⟩

/-- What an input adds to the logins of each user. -/
def loginsAfter (past : UUID → List LoginResult) (reply : Except AuthError AuthReply) :
    UUID → List LoginResult :=
  match reply with
  | .ok (.loggedIn result) => withLogin past result
  | _ => past

/-- A transaction that fails keeps the state and adds no login. -/
theorem OneLogin.keeping {α : Type} (h : OneLogin tokens past s) {reply : α → AuthReply}
    {body : Except AuthError (α × AuthState)}
    (hbody : ∀ a s', body = .ok (a, s') → OneLogin tokens (loginsAfter past (.ok (reply a))) s') :
    OneLogin tokens (loginsAfter past (keeping s reply body).1) (keeping s reply body).2 := by
  cases body with
  | error e => exact h
  | ok r => exact hbody r.1 r.2 rfl

/-- The step lemma. -/
theorem OneLogin.step (h : OneLogin tokens past s) {input : AuthInput}
    (hinput : AuthEnabled env tokens s input) :
    OneLogin tokens (loginsAfter past (authStep env s input).1) (authStep env s input).2 := by
  cases input with
  | register email password displayName userId passwordHash =>
    exact h.keeping fun _ _ hs ↦ h.register hs
  | beginLogin email password sessionId sessionToken newHash =>
    rw [authStep]
    split
    · next login hs => exact h.beginLogin hinput.1 hinput.2 hs
    · exact h
  | revoke userId => exact h.revoke userId
  | commit userId =>
    obtain ⟨login, hlogin, hrevoked⟩ := hinput
    obtain ⟨⟨ids, stamp⟩, hrevoked⟩ := Option.ne_none_iff_exists'.mp hrevoked
    obtain ⟨hmem, rfl⟩ := AuthState.mem_of_loginOf hlogin
    simp only [authStep, Option.mem_def.mp hlogin, hrevoked]
    apply (h.without login.user.id).keeping
    intro result s' hs
    refine (h.without login.user.id).commit (h.issued login hmem) (h.covered login hmem _ hrevoked) ?_ hs
    exact fun other hother ↦ of_decide_eq_true (List.mem_filter.mp hother).2
  | abort userId => exact h.without userId
  | authenticate sessionToken =>
    apply h.keeping
    intro session s' hs
    cases hauth : authenticate s sessionToken <;> rw [hauth] at hs <;> cases hs
    exact h
  | logout id => exact h.keeping fun _ _ hs ↦ h.logout hs
  | advance microseconds => exact h.advance _

theorem loginsOf_concat (history : List (AuthInput × Except AuthError AuthReply)) (input : AuthInput)
    (reply : Except AuthError AuthReply) :
    loginsOf (history ++ [(input, reply)]) = loginsAfter (loginsOf history) reply := by
  funext userId
  rw [loginsOf, List.filterMap_append]
  match reply with
  | .ok (.loggedIn result) =>
    simp only [loginsAfter, withLogin]
    by_cases huser : result.user.id = userId
    · simp only [List.filterMap, if_pos huser]
      rfl
    · simp only [List.filterMap, if_neg huser, List.append_nil]
      rfl
  | .ok .done | .ok (.registered _) | .ok (.authenticated _) | .error _ => exact List.append_nil _

/-- The run lemma: an induction on the inputs from the left, with the last one split off. -/
theorem oneLogin_of_legal {now : Timestamp} {inputs : List AuthInput}
    (hlegal : (authMachine env tokens).Legal (emptyAuth now) inputs) :
    OneLogin tokens (loginsOf ((authMachine env tokens).history (emptyAuth now) inputs))
      ((authMachine env tokens).exec (emptyAuth now) inputs) := by
  induction inputs using List.reverseRecOn with
  | nil => exact oneLogin_empty now
  | append_singleton inputs input ih =>
    obtain ⟨hbefore, hinput, -⟩ := Machine.along_append.mp hlegal
    rw [Machine.exec_concat, Machine.history_append]
    have h := (ih hbefore).step hinput
    rw [← loginsOf_concat _ input] at h
    exact h

end Invariant

theorem authenticate_eq_ok {s : AuthState} {token : Str} {session : AuthenticatedSession}
    (h : authenticate s (some token) = .ok session) :
    ∃ tokenHash, secretHash token = .ok tokenHash ∧ ∃ row ∈ s.sessions, row.tokenHash = tokenHash ∧
      row.revokedAt = none ∧ s.now < row.expiresAt ∧ session.id = row.id ∧
        session.user.id = row.userId ∧ session.expiresAt = row.expiresAt := by
  obtain ⟨-, h⟩ := require_bind_eq_ok.mp h
  obtain ⟨tokenHash, hhash, h⟩ := bind_eq_ok.mp h
  split at h
  · next found hfound =>
    cases h
    obtain ⟨row, hrow, hsome⟩ := List.exists_of_findSome?_eq_some hfound
    split at hsome
    · next hmatch =>
      obtain ⟨user, huser, rfl⟩ := Option.map_eq_some_iff.mp hsome
      exact ⟨tokenHash, hhash, row, hrow, hmatch.1, hmatch.2.1, hmatch.2.2, rfl,
        of_decide_eq_true (List.find?_some huser :), rfl⟩
    · exact nomatch hsome
  · exact nomatch h

/-- Without repetition, a list whose entries are all equal has at most one. -/
theorem length_le_one_of_nodup {α : Type*} {l : List α} (hnodup : l.Nodup)
    (heq : ∀ a ∈ l, ∀ b ∈ l, a = b) : l.length ≤ 1 := by
  match l, hnodup with
  | [], _ => exact Nat.zero_le _
  | [_], _ => exact le_rfl
  | a :: b :: l, hnodup =>
    have hab : a = b := heq a List.mem_cons_self b (List.mem_cons_of_mem _ List.mem_cons_self)
    exact absurd (hab ▸ List.mem_cons_self) (List.nodup_cons.mp hnodup).1

/-- In every state of every run, a user has at most one session that is not revoked, and a token is
accepted only while it is the one that the user's last login issued, neither revoked nor expired. -/
theorem single_login {env : AuthEnv} {tokens : Str → Prop}
    (hhash : ∀ a b h, tokens a → tokens b → secretHash a = .ok h → secretHash b = .ok h → a = b)
    {now : Timestamp} {inputs : List AuthInput}
    (hlegal : (authMachine env tokens).Legal (emptyAuth now) inputs) :
    let s := (authMachine env tokens).exec (emptyAuth now) inputs
    let past := loginsOf ((authMachine env tokens).history (emptyAuth now) inputs)
    (∀ userId, (s.sessions.filter (ActiveOf userId ·)).length ≤ 1) ∧
      ∀ token session, authenticate s (some token) = .ok session →
        ∃ result, (past session.user.id).getLast? = some result ∧ result.sessionId = session.id ∧
          secretHash result.sessionToken = secretHash token ∧
            (tokens token → result.sessionToken = token) ∧
              ∃ row ∈ s.sessions, row.id = session.id ∧ row.revokedAt = none ∧
                s.now < row.expiresAt := by
  intro s past
  have h : OneLogin tokens past s := oneLogin_of_legal hlegal
  constructor
  · intro userId
    apply length_le_one_of_nodup ((h.sessions.of_map _).filter _)
    intro a ha b hb
    obtain ⟨ha, hactive⟩ := List.mem_filter.mp ha
    obtain ⟨hb, hactive'⟩ := List.mem_filter.mp hb
    have hof := of_decide_eq_true hactive
    have hof' := of_decide_eq_true hactive'
    exact h.unique a ha b hb (hof.1.trans hof'.1.symm) hof.2 hof'.2
  · intro token session hs
    obtain ⟨tokenHash, htoken, row, hrow, rfl, hnone, hexpires, hid, huser, -⟩ :=
      authenticate_eq_ok hs
    obtain ⟨result, hlast, hsession, hissued, hresult⟩ := h.latest row hrow hnone
    refine ⟨result, huser ▸ hlast, hsession.trans hid.symm, hissued.trans htoken.symm, ?_, row, hrow,
      hid.symm, hnone, hexpires⟩
    exact fun hmem ↦ hhash _ _ _ hresult hmem hissued htoken

theorem single_login_of_run :
    let env : AuthEnv := ⟨Url.Casing.onlyAscii, fun hash password ↦ decide (hash = password), fun _ ↦ false,
      fun token ↦ token ++ token, 10, by decide⟩
    let inputs : List AuthInput := [.register (lit "A@b.c") (lit "password") (lit "A") 1 (lit "password"),
      .beginLogin (lit "a@B.c") (lit "password") 2 (lit "token") [], .revoke 1, .commit 1, .advance 4]
    let s := (authMachine env (· = lit "token")).exec (emptyAuth 0) inputs
    (s.sessions.filter (ActiveOf 1 ·)).length ≤ 1 ∧
      ∃ result, (loginsOf ((authMachine env (· = lit "token")).history (emptyAuth 0) inputs) 1).getLast? =
        some result ∧ result.sessionToken = lit "token" := by
  intro env inputs s
  have hlegal : (authMachine env (· = lit "token")).Legal (emptyAuth 0) inputs := by
    decide +kernel
  obtain ⟨hunique, hlast⟩ := single_login
    (fun a b _ (ha : a = lit "token") (hb : b = lit "token") _ _ ↦ ha.trans hb.symm) hlegal
  obtain ⟨result, hresult, -, -, htoken, -⟩ := hlast (lit "token")
    ⟨2, ⟨1, lit "a@b.c", lit "A"⟩, lit "token", sha256Hex (encodeUtf8 (lit "tokentoken")), 10⟩
    (by decide +kernel)
  exact ⟨hunique 1, result, hresult, htoken rfl⟩

end MeetingRag
