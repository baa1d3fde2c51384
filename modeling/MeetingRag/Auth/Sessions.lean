import MeetingRag.Auth.Requests

/-!
# The life of a session

Every row of `auth_sessions` is the trace of one login, whose result holds the two tokens that the row
has the digests of. The row is written once, except for the time of its revocation, which is set at most
once. Which requests a session lets in, and for how long, follows from that.
-/

open Outcome Py Table

namespace MeetingRag

/-- A search that only one entry answers. -/
theorem findSome?_eq_some_of_unique {α β : Type*} {l : List α} {f : α → Option β} {a : α} {b : β}
    (ha : a ∈ l) (hb : f a = some b) (hunique : ∀ x ∈ l, f x ≠ none → x = a) :
    l.findSome? f = some b := by
  cases hfound : l.findSome? f with
  | none =>
    have hnone := List.findSome?_eq_none_iff.mp hfound a ha
    exact nomatch hb.symm.trans hnone
  | some c =>
    obtain ⟨x, hx, hc⟩ := List.exists_of_findSome?_eq_some hfound
    rw [hunique x hx (by rw [hc]; nofun), hb] at hc
    exact hc.symm

/-! ## Rows and logins -/

/-- The columns that are written once. -/
def AuthSessionRow.columns (row : AuthSessionRow) : AuthSessionRow := { row with revokedAt := none }

/-- The row is the one that the login has inserted. -/
structure LoginBacks (env : AuthEnv) (result : LoginResult) (row : AuthSessionRow) : Prop where
  session : result.sessionId = row.id
  user : result.user.id = row.userId
  token : secretHash result.sessionToken = .ok row.tokenHash
  csrf : secretHash result.csrfToken = .ok row.csrfSecretHash
  derived : result.csrfToken = env.deriveCsrfToken result.sessionToken
  expires : result.expiresAt = row.expiresAt

/-- The sessions and the logins up to now belong together. A login in progress has revoked rows of its
own user only. -/
structure SessionsIssued (env : AuthEnv) (past : UUID → List LoginResult) (s : AuthState) : Prop where
  rows : ∀ row ∈ s.sessions.map (·.columns), row.userId ∈ s.users.map (·.id) ∧
    ∃ result ∈ past row.userId, LoginBacks env result row
  results : ∀ userId, ∀ result ∈ past userId, ∃ row ∈ s.sessions.map (·.columns),
    row.userId = userId ∧ LoginBacks env result row
  tokens : ((s.sessions.map (·.columns)).map (·.tokenHash)).Nodup
  held : ∀ login ∈ s.logins, ∀ revoked ∈ login.revoked, ∀ id ∈ revoked.1,
    ∃ row ∈ s.sessions.map (·.columns), row.id = id ∧ row.userId = login.user.id

section Invariant

variable {env : AuthEnv} {tokens : Str → Prop} {past : UUID → List LoginResult} {s s' : AuthState}

theorem issued_empty (now : Timestamp) : SessionsIssued env (fun _ ↦ []) (emptyAuth now) :=
  ⟨List.forall_mem_nil _, fun _ ↦ List.forall_mem_nil _, List.nodup_nil, List.forall_mem_nil _⟩

/-- A revocation writes none of the columns. -/
theorem map_columns_updateWhere (p : AuthSessionRow → Prop) [DecidablePred p] (stamp : Timestamp)
    (sessions : List AuthSessionRow) :
    (updateWhere p (fun row ↦ { row with revokedAt := some stamp }) sessions).map (·.columns) =
      sessions.map (·.columns) :=
  map_updateWhere_of_forall fun _ ↦ rfl

theorem SessionsIssued.congr (h : SessionsIssued env past s)
    (hsessions : s'.sessions.map (·.columns) = s.sessions.map (·.columns))
    (husers : s.users.map (·.id) ⊆ s'.users.map (·.id)) (hlogins : s'.logins = s.logins) :
    SessionsIssued env past s' := by
  refine ⟨?_, ?_, ?_, ?_⟩
  · rw [hsessions]
    exact fun row hrow ↦ ⟨husers (h.rows row hrow).1, (h.rows row hrow).2⟩
  · rw [hsessions]
    exact h.results
  · rw [hsessions]
    exact h.tokens
  · rw [hsessions, hlogins]
    exact h.held

theorem SessionsIssued.without (h : SessionsIssued env past s) (userId : UUID) :
    SessionsIssued env past (s.without userId) :=
  ⟨h.rows, h.results, h.tokens, fun login hlogin ↦ h.held login (List.mem_of_mem_filter hlogin)⟩

theorem SessionsIssued.register (h : SessionsIssued env past s) {email password displayName : Str}
    {userId : UUID} {passwordHash : Str} {user : UserRecord}
    (hs : register env s email password displayName userId passwordHash = .ok (user, s')) :
    SessionsIssued env past s' := by
  obtain ⟨_, -, hs⟩ := bind_eq_ok.mp hs
  obtain ⟨_, -, hs⟩ := bind_eq_ok.mp hs
  obtain ⟨-, hs⟩ := require_bind_eq_ok.mp hs
  obtain ⟨users, husers, hs⟩ := bind_eq_ok.mp hs
  obtain ⟨-, -, rfl⟩ := insertRow_eq_ok.mp husers
  obtain ⟨-, rfl⟩ := Prod.mk.inj (Except.ok.inj hs)
  refine h.congr rfl ?_ rfl
  rw [List.map_append]
  exact List.subset_append_left _ _

theorem SessionsIssued.beginLogin (h : SessionsIssued env past s) {email password : Str} {sessionId : UUID}
    {sessionToken newHash : Str} {login : LoginTransaction}
    (hs : beginLogin env s email password sessionId sessionToken newHash = .ok login) :
    SessionsIssued env past { s with logins := s.logins ++ [login] } := by
  have hrevoked : login.revoked = none := by
    obtain ⟨_, -, hs⟩ := bind_eq_ok.mp hs
    obtain ⟨-, hs⟩ := require_bind_eq_ok.mp hs
    split at hs
    · exact nomatch hs
    · obtain ⟨-, hs⟩ := require_bind_eq_ok.mp hs
      cases hs
      rfl
  refine ⟨h.rows, h.results, h.tokens, List.forall_mem_append.mpr ⟨h.held, ?_⟩⟩
  rw [List.forall_mem_singleton, hrevoked]
  exact nofun

theorem SessionsIssued.revoke (h : SessionsIssued env past s) (userId : UUID) :
    SessionsIssued env past { s with
      logins := updateWhere (·.user.id = userId) (fun login ↦ login.revoke s) s.logins } := by
  refine ⟨h.rows, h.results, h.tokens, fun login hlogin revoked hrevoked id hid ↦ ?_⟩
  rcases mem_updateWhere.mp hlogin with ⟨old, -, -, rfl⟩ | ⟨hold, -⟩
  · -- the rows that the statement has found
    cases hrevoked
    obtain ⟨row, hrow, rfl⟩ := List.mem_map.mp hid
    obtain ⟨hmem, hactive⟩ := List.mem_filter.mp hrow
    exact ⟨row.columns, List.mem_map_of_mem hmem, rfl, (of_decide_eq_true hactive).1⟩
  · exact h.held login hold revoked hrevoked id hid

/-- What a login that commits leaves: its row behind those of before, some of them revoked. -/
theorem commitLogin_eq_ok {login : LoginTransaction} {ids : List UUID} {stamp : Timestamp}
    {result : LoginResult} (hs : commitLogin env s login ids stamp = .ok (result, s')) :
    ∃ row, row.revokedAt = none ∧ LoginBacks env result row ∧ row.userId = login.user.id ∧
      result.user.id = login.user.id ∧
      s'.sessions = updateWhere (fun row : AuthSessionRow ↦ row.id ∈ ids)
        (fun row ↦ { row with revokedAt := some stamp }) s.sessions ++ [row] ∧
      (∀ old ∈ s.sessions, old.id ≠ row.id ∧ old.tokenHash ≠ row.tokenHash) ∧
      s'.users.map (·.id) = s.users.map (·.id) ∧ s'.logins = s.logins ∧ s'.now = s.now := by
  obtain ⟨tokenHash, hhash, hs⟩ := bind_eq_ok.mp hs
  obtain ⟨csrfSecretHash, hcsrf, hs⟩ := bind_eq_ok.mp hs
  obtain ⟨sessions, hsessions, hs⟩ := bind_eq_ok.mp hs
  obtain ⟨hfresh, rfl⟩ := insertUnique_eq_ok.mp hsessions
  obtain ⟨rfl, rfl⟩ := Prod.mk.inj (Except.ok.inj hs)
  refine ⟨_, rfl, ⟨rfl, rfl, hhash, hcsrf, rfl, rfl⟩, rfl, rfl, rfl, fun old hold ↦ ?_, ?_, rfl, rfl⟩
  · -- a revoked row has kept its keys
    by_cases hid : old.id ∈ ids
    · have hnew := hfresh _ (mem_updateWhere_of_mem hold hid)
      exact ⟨fun h ↦ hnew (Or.inl h), fun h ↦ hnew (Or.inr h)⟩
    · have hnew := hfresh _ (mem_updateWhere_of_not hold hid)
      exact ⟨fun h ↦ hnew (Or.inl h), fun h ↦ hnew (Or.inr h)⟩
  · dsimp only
    split
    · exact map_updateWhere_of_forall fun _ ↦ rfl
    · rfl

/-- **A login that commits** inserts the row of its result. -/
theorem SessionsIssued.commit (h : SessionsIssued env past s) {login : LoginTransaction} {ids : List UUID}
    {stamp : Timestamp} {result : LoginResult} (hknown : login.user.id ∈ s.users.map (·.id))
    (hs : commitLogin env s login ids stamp = .ok (result, s')) :
    SessionsIssued env (withLogin past result) s' := by
  obtain ⟨row, hnone, hbacks, hrow, huser, hsessions, hfresh, husers, hlogins, -⟩ :=
    commitLogin_eq_ok hs
  have hcolumns : s'.sessions.map (·.columns) = s.sessions.map (·.columns) ++ [row] := by
    rw [hsessions, List.map_append, map_columns_updateWhere, List.map_singleton, AuthSessionRow.columns,
      ← hnone]
  refine ⟨?_, fun userId old hold ↦ ?_, ?_, ?_⟩
  · rw [hcolumns, husers]
    refine List.forall_mem_append.mpr ⟨fun r hr ↦ ?_, List.forall_mem_singleton.mpr ?_⟩
    · obtain ⟨hmem, old, hold, holdBacks⟩ := h.rows r hr
      refine ⟨hmem, old, ?_, holdBacks⟩
      rw [withLogin]
      split
      · exact List.mem_append_left _ hold
      · exact hold
    · refine ⟨hrow ▸ hknown, result, ?_, hbacks⟩
      rw [withLogin, if_pos (huser.trans hrow.symm)]
      exact List.mem_append_right _ (List.mem_singleton_self _)
  · rw [hcolumns]
    rw [withLogin] at hold
    split at hold
    · next hsame =>
      rcases List.mem_append.mp hold with hold | hnew
      · obtain ⟨r, hr, hof⟩ := h.results userId old hold
        exact ⟨r, List.mem_append_left _ hr, hof⟩
      · rw [List.mem_singleton.mp hnew]
        exact ⟨row, List.mem_append_right _ (List.mem_singleton_self _),
          hrow.trans (huser.symm.trans hsame), hbacks⟩
    · obtain ⟨r, hr, hof⟩ := h.results userId old hold
      exact ⟨r, List.mem_append_left _ hr, hof⟩
  · rw [hcolumns]
    refine nodup_map_append_singleton h.tokens fun r hr ↦ ?_
    obtain ⟨old, hold, rfl⟩ := List.mem_map.mp hr
    exact (hfresh old hold).2
  · rw [hcolumns, hlogins]
    intro other hother revoked hrevoked id hid
    obtain ⟨r, hr, hof⟩ := h.held other hother revoked hrevoked id hid
    exact ⟨r, List.mem_append_left _ hr, hof⟩

theorem SessionsIssued.keeping {α : Type} (h : SessionsIssued env past s) {reply : α → AuthReply}
    {body : Except AuthError (α × AuthState)}
    (hbody : ∀ a s', body = .ok (a, s') → SessionsIssued env (loginsAfter past (.ok (reply a))) s') :
    SessionsIssued env (loginsAfter past (keeping s reply body).1) (keeping s reply body).2 := by
  cases body with
  | error e => exact h
  | ok r => exact hbody r.1 r.2 rfl

/-- The step lemma. -/
theorem SessionsIssued.step (h : SessionsIssued env past s) (hone : OneLogin tokens past s)
    {input : AuthInput} (hinput : AuthEnabled env tokens s input) :
    SessionsIssued env (loginsAfter past (authStep env s input).1) (authStep env s input).2 := by
  cases input with
  | register email password displayName userId passwordHash =>
    exact h.keeping fun _ _ hs ↦ h.register hs
  | beginLogin email password sessionId sessionToken newHash =>
    rw [authStep]
    split
    · next login hs => exact h.beginLogin hs
    · exact h
  | revoke userId => exact h.revoke userId
  | commit userId =>
    obtain ⟨login, hlogin, hrevoked⟩ := hinput
    obtain ⟨⟨ids, stamp⟩, hrevoked⟩ := Option.ne_none_iff_exists'.mp hrevoked
    obtain ⟨hmem, rfl⟩ := AuthState.mem_of_loginOf hlogin
    simp only [authStep, Option.mem_def.mp hlogin, hrevoked]
    apply (h.without login.user.id).keeping
    intro result s' hs
    -- the login has begun with a user that is still there
    obtain ⟨u, hu, hid, -⟩ := hone.known login hmem
    exact (h.without login.user.id).commit (hid ▸ List.mem_map_of_mem hu) hs
  | abort userId => exact h.without userId
  | authenticate sessionToken =>
    apply h.keeping
    intro session s' hs
    cases hauth : authenticate s sessionToken <;> rw [hauth] at hs <;> cases hs
    exact h
  | logout id =>
    apply h.keeping
    intro _ s' hs
    obtain ⟨-, hs⟩ := require_bind_eq_ok.mp hs
    obtain ⟨-, rfl⟩ := Prod.mk.inj (Except.ok.inj hs)
    exact h.congr (map_columns_updateWhere _ _ _) (List.Subset.refl _) rfl
  | advance microseconds => exact h.congr rfl (List.Subset.refl _) rfl

/-- The run lemma. -/
theorem issued_of_legal {now : Timestamp} {inputs : List AuthInput}
    (hlegal : (authMachine env tokens).Legal (emptyAuth now) inputs) :
    SessionsIssued env (loginsOf ((authMachine env tokens).history (emptyAuth now) inputs))
      ((authMachine env tokens).exec (emptyAuth now) inputs) := by
  induction inputs using List.reverseRecOn with
  | nil => exact issued_empty now
  | append_singleton inputs input ih =>
    obtain ⟨hbefore, hinput, -⟩ := Machine.along_append.mp hlegal
    rw [Machine.exec_concat, Machine.history_append]
    have h := (ih hbefore).step (oneLogin_of_legal hbefore) hinput
    rw [← loginsOf_concat _ input] at h
    exact h

end Invariant

/-! ## Who is let in -/

/-- The session of the row is neither revoked nor over. -/
def SessionAlive (s : AuthState) (row : AuthSessionRow) : Prop :=
  row.revokedAt = none ∧ s.now < row.expiresAt

instance (s : AuthState) : DecidablePred (SessionAlive s) := fun row ↦
  inferInstanceAs (Decidable (row.revokedAt = none ∧ s.now < row.expiresAt))

section Authenticate

variable {env : AuthEnv} {past : UUID → List LoginResult} {s : AuthState} {token : Str}
  {session : AuthenticatedSession}

theorem SessionsIssued.nodup_tokenHash (h : SessionsIssued env past s) :
    (s.sessions.map (·.tokenHash)).Nodup := by
  have htokens := h.tokens
  rw [List.map_map] at htokens
  exact htokens

/-- **What a token opens**: the living session with its digest, if there is one. -/
theorem SessionsIssued.authenticate_eq_ok (h : SessionsIssued env past s) :
    authenticate s (some token) = .ok session ↔
      ∃ row ∈ s.sessions, secretHash token = .ok row.tokenHash ∧ SessionAlive s row ∧
        ∃ user, s.users.find? (·.id = row.userId) = some user ∧
          session = ⟨row.id, user.record, token, row.csrfSecretHash, row.expiresAt⟩ := by
  constructor
  · intro hs
    obtain ⟨-, hs⟩ := require_bind_eq_ok.mp hs
    obtain ⟨tokenHash, hhash, hs⟩ := bind_eq_ok.mp hs
    split at hs
    · next found hfound =>
      cases hs
      obtain ⟨row, hrow, hsome⟩ := List.exists_of_findSome?_eq_some hfound
      split at hsome
      · next hmatch =>
        obtain ⟨user, huser, rfl⟩ := Option.map_eq_some_iff.mp hsome
        exact ⟨row, hrow, hhash.trans (congrArg _ hmatch.1.symm), hmatch.2, user, huser, rfl⟩
      · exact nomatch hsome
    · exact nomatch hs
  · rintro ⟨row, hrow, hhash, halive, user, huser, rfl⟩
    have hfound : (s.sessions.findSome? fun r ↦
        if r.tokenHash = row.tokenHash ∧ r.revokedAt = none ∧ s.now < r.expiresAt then
          (s.users.find? (·.id = r.userId)).map fun user ↦
            (⟨r.id, user.record, token, r.csrfSecretHash, r.expiresAt⟩ : AuthenticatedSession)
        else none) = some ⟨row.id, user.record, token, row.csrfSecretHash, row.expiresAt⟩ := by
      apply findSome?_eq_some_of_unique hrow
      · rw [if_pos ⟨rfl, halive⟩, huser]
        rfl
      · -- no other row has the digest
        intro r hr hne
        have hsame : r.tokenHash = row.tokenHash := by
          by_contra hother
          exact hne (if_neg fun hmatch ↦ hother hmatch.1)
        exact eq_of_key_eq h.nodup_tokenHash hr hrow hsame
    refine require_bind_eq_ok.mpr ⟨(secretHash_eq_ok hhash).1, bind_eq_ok.mpr ⟨_, hhash, ?_⟩⟩
    simp only [hfound]

/-- Every living session belongs to a user that is there. -/
theorem SessionsIssued.user_of_row (h : SessionsIssued env past s) {row : AuthSessionRow}
    (hrow : row ∈ s.sessions) :
    ∃ user, s.users.find? (·.id = row.userId) = some user ∧ user.id = row.userId := by
  obtain ⟨hmem, -⟩ := h.rows row.columns (List.mem_map_of_mem hrow)
  obtain ⟨u, hu, hid⟩ := List.mem_map.mp hmem
  have hsome : (s.users.find? (·.id = row.userId)).isSome :=
    List.find?_isSome.mpr ⟨u, hu, decide_eq_true hid⟩
  obtain ⟨user, huser⟩ := Option.isSome_iff_exists.mp hsome
  exact ⟨user, huser, of_decide_eq_true (List.find?_some huser :)⟩

/-- The login behind a row. -/
theorem SessionsIssued.backs_of_row (h : SessionsIssued env past s) {row : AuthSessionRow}
    (hrow : row ∈ s.sessions) :
    ∃ result ∈ past row.userId, LoginBacks env result row := by
  obtain ⟨-, result, hresult, hbacks⟩ := h.rows row.columns (List.mem_map_of_mem hrow)
  exact ⟨result, hresult,
    ⟨hbacks.session, hbacks.user, hbacks.token, hbacks.csrf, hbacks.derived, hbacks.expires⟩⟩

/-- The row behind a login. -/
theorem SessionsIssued.row_of_result (h : SessionsIssued env past s) {userId : UUID}
    {result : LoginResult} (hresult : result ∈ past userId) :
    ∃ row ∈ s.sessions, row.userId = userId ∧ LoginBacks env result row := by
  obtain ⟨columns, hcolumns, huser, hbacks⟩ := h.results userId result hresult
  obtain ⟨row, hrow, rfl⟩ := List.mem_map.mp hcolumns
  exact ⟨row, hrow, huser,
    ⟨hbacks.session, hbacks.user, hbacks.token, hbacks.csrf, hbacks.derived, hbacks.expires⟩⟩

theorem LoginBacks.isSha256 {result : LoginResult} {row : AuthSessionRow}
    (h : LoginBacks env result row) :
    IsSha256 row.csrfSecretHash := by
  rw [(secretHash_eq_ok h.csrf).2]
  exact isSha256_sha256Hex _

end Authenticate

/-! ## A run -/

/-- An environment whose verifiers are the passwords themselves. -/
def plainEnv : AuthEnv :=
  ⟨Url.Casing.onlyAscii, fun hash password ↦ decide (hash = password), fun _ ↦ false,
    fun token ↦ token ++ token, 10, by decide⟩

/-- A user registers and logs in. -/
def registeredLogin : List AuthInput :=
  [.register (lit "A@b.c") (lit "password") (lit "A") 1 (lit "password"),
    .beginLogin (lit "a@B.c") (lit "password") 2 (lit "token") [], .revoke 1, .commit 1]

/-- The row of the login. -/
def loginRow : AuthSessionRow :=
  ⟨2, sha256Hex (encodeUtf8 (lit "token")), sha256Hex (encodeUtf8 (lit "tokentoken")), 1, 10, none⟩

/-- The result of the login. -/
def loginResult : LoginResult :=
  ⟨⟨1, lit "a@b.c", lit "A"⟩, 2, lit "token", lit "tokentoken", 10⟩

/-- The defaults of `_phase3_policy`. -/
def localPolicy : BrowserSecurityPolicy :=
  ⟨lit "http://localhost:3000", lit "localhost:3000", lit "axit_session", by decide, by decide,
    by decide⟩

/-- A request of the user's browser. -/
def browserRequest : BrowserRequest where
  cookies name := if name = lit "axit_session" then some (lit "token") else none
  origin := some (lit "http://localhost:3000")
  originalHost := some (lit "localhost:3000")
  csrfToken := some (lit "tokentoken")

theorem browserRequest_cookie :
    browserRequest.cookies localPolicy.cookieName = some (lit "token") := by
  change (if lit "axit_session" = lit "axit_session" then some (lit "token") else none) = _
  exact if_pos rfl

theorem registeredLogin_run :
    (authMachine plainEnv (· = lit "token")).Legal (emptyAuth 0) (registeredLogin ++ [.logout 2]) ∧
      loginRow ∈ ((authMachine plainEnv (· = lit "token")).exec (emptyAuth 0)
        registeredLogin).sessions ∧
      SessionAlive ((authMachine plainEnv (· = lit "token")).exec (emptyAuth 0) registeredLogin)
        loginRow ∧
      loginsOf ((authMachine plainEnv (· = lit "token")).history (emptyAuth 0) registeredLogin) 1 =
        [loginResult] := by
  decide +kernel

theorem registeredLogin_legal :
    (authMachine plainEnv (· = lit "token")).Legal (emptyAuth 0) registeredLogin :=
  (Machine.along_append.mp registeredLogin_run.1).1

theorem secretHash_lit {text : String} (h : lit text ≠ []) :
    secretHash (lit text) = .ok (sha256Hex (encodeUtf8 (lit text))) := by
  rw [secretHash, require_of h, ok_bind, require_of (scalar_lit _), ok_bind]

/-! ## Results -/

/-- **Which requests may change something.** In every state of every run a request is let in for a user
exactly when it comes from the configured origin and host, and its cookie and its header have the digests
of the two tokens that the user's last login has returned, whose session is still alive. -/
theorem mutation_admitted_iff {env : AuthEnv} {tokens : Str → Prop} {policy : BrowserSecurityPolicy}
    {now : Timestamp} {inputs : List AuthInput}
    (hlegal : (authMachine env tokens).Legal (emptyAuth now) inputs) (request : BrowserRequest)
    (userId : UUID) :
    let s := (authMachine env tokens).exec (emptyAuth now) inputs
    let past := loginsOf ((authMachine env tokens).history (emptyAuth now) inputs)
    (∃ session, authenticatedMutation policy s request = .ok session ∧ session.user.id = userId) ↔
      request.originalHost = some policy.publicHost ∧ request.origin = some policy.publicOrigin ∧
        ∃ result, (past userId).getLast? = some result ∧
          (∃ row ∈ s.sessions, row.id = result.sessionId ∧ SessionAlive s row) ∧
          (∃ cookie ∈ request.cookies policy.cookieName, SameDigest cookie result.sessionToken) ∧
          ∃ csrf ∈ request.csrfToken, SameDigest csrf result.csrfToken := by
  intro s past
  have hone : OneLogin tokens past s := oneLogin_of_legal hlegal
  have hissued : SessionsIssued env past s := issued_of_legal hlegal
  constructor
  · rintro ⟨session, hs, rfl⟩
    cases hcookie : request.cookies policy.cookieName with
    | none =>
      rw [authenticatedMutation, authenticateRequest, hcookie] at hs
      cases hs
    | some cookie =>
      have hauth : authenticate s (some cookie) = .ok session := by
        rw [authenticatedMutation, authenticateRequest, hcookie] at hs
        obtain ⟨found, hfound, hs⟩ := bind_eq_ok.mp hs
        obtain ⟨_, -, hs⟩ := bind_eq_ok.mp hs
        cases hs
        exact mapError_eq_ok.mp hfound
      obtain ⟨row, hrow, hdigest, halive, user, huser, rfl⟩ := hissued.authenticate_eq_ok.mp hauth
      obtain ⟨result, hresult, hbacks⟩ := hissued.backs_of_row hrow
      obtain ⟨-, hhost, horigin, csrf, hcsrf, hcsrfDigest⟩ :=
        (authenticatedMutation_eq_ok hbacks.isSha256).mp hs
      -- the login behind a row that is not revoked is the last one
      obtain ⟨last, hlast, hid, -⟩ := hone.latest row hrow halive.1
      obtain ⟨other, hother, -, hlastBacks⟩ := hissued.row_of_result (List.mem_of_getLast? hlast)
      obtain rfl : other = row :=
        eq_of_key_eq hone.sessions hother hrow (hlastBacks.session.symm.trans hid)
      have hof : user.id = other.userId := of_decide_eq_true (List.find?_some huser :)
      rw [← hof] at hlast
      refine ⟨hhost, horigin, last, hlast, ⟨other, hrow, hid.symm, halive⟩, ?_, ?_⟩
      · exact ⟨cookie, rfl, _, hdigest, hlastBacks.token⟩
      · exact ⟨csrf, hcsrf, _, hcsrfDigest, hlastBacks.csrf⟩
  · rintro ⟨hhost, horigin, result, hlast, ⟨row, hrow, hid, halive⟩, ⟨cookie, hcookie, d, hcookieDigest,
      hresultDigest⟩, csrf, hcsrf, d', hcsrfDigest, hresultCsrf⟩
    obtain ⟨other, hother, huserId, hbacks⟩ := hissued.row_of_result (List.mem_of_getLast? hlast)
    obtain rfl : other = row :=
      eq_of_key_eq hone.sessions hother hrow (hbacks.session.symm.trans hid.symm)
    obtain ⟨user, huser, hof⟩ := hissued.user_of_row hrow
    have hd : d = other.tokenHash := Except.ok.inj (hresultDigest.symm.trans hbacks.token)
    have hd' : d' = other.csrfSecretHash := Except.ok.inj (hresultCsrf.symm.trans hbacks.csrf)
    have hauth : authenticate s (some cookie) = .ok
        ⟨other.id, user.record, cookie, other.csrfSecretHash, other.expiresAt⟩ :=
      hissued.authenticate_eq_ok.mpr ⟨other, hrow, hd ▸ hcookieDigest, halive, user, huser, rfl⟩
    refine ⟨⟨other.id, user.record, cookie, other.csrfSecretHash, other.expiresAt⟩,
      (authenticatedMutation_eq_ok hbacks.isSha256).mpr ⟨?_, hhost, horigin, csrf, hcsrf, ?_⟩,
      hof.trans huserId⟩
    · rw [Option.mem_def.mp hcookie]
      exact hauth
    · exact hd' ▸ hcsrfDigest

theorem mutation_admitted_iff_registeredLogin :
    ∃ session, authenticatedMutation localPolicy ((authMachine plainEnv (· = lit "token")).exec
      (emptyAuth 0) registeredLogin) browserRequest = .ok session ∧ session.user.id = 1 := by
  obtain ⟨-, hrow, halive, hpast⟩ := registeredLogin_run
  refine (mutation_admitted_iff registeredLogin_legal browserRequest 1).mpr ⟨rfl, rfl, loginResult,
    ?_, ⟨loginRow, hrow, rfl, halive⟩, ⟨lit "token", ?_, _, secretHash_lit (by decide),
      secretHash_lit (by decide)⟩, lit "tokentoken", rfl, _, secretHash_lit (by decide),
      secretHash_lit (by decide)⟩
  · rw [hpast]
    rfl
  · exact browserRequest_cookie

/-- **The token of the endpoint is the one that is accepted.** What the endpoint for the header answers
to a cookie is let in with that cookie, for the same session; and to the cookie of a living login it
answers with the token that the login has returned. -/
theorem csrf_round_trip {env : AuthEnv} {tokens : Str → Prop} {policy : BrowserSecurityPolicy}
    {now : Timestamp} {inputs : List AuthInput}
    (hlegal : (authMachine env tokens).Legal (emptyAuth now) inputs) (request : BrowserRequest) :
    let s := (authMachine env tokens).exec (emptyAuth now) inputs
    let past := loginsOf ((authMachine env tokens).history (emptyAuth now) inputs)
    (∀ csrf, getCsrf env policy s request = .ok csrf →
      ∃ session, authenticatedRead policy s request = .ok session ∧
        authenticatedMutation policy s { request with
          origin := some policy.publicOrigin
          csrfToken := some csrf } = .ok session) ∧
    ∀ userId, ∀ result ∈ past userId,
      (∃ row ∈ s.sessions, row.id = result.sessionId ∧ SessionAlive s row) →
      request.originalHost = some policy.publicHost →
      request.cookies policy.cookieName = some result.sessionToken →
        getCsrf env policy s request = .ok result.csrfToken := by
  intro s past
  have hone : OneLogin tokens past s := oneLogin_of_legal hlegal
  have hissued : SessionsIssued env past s := issued_of_legal hlegal
  constructor
  · intro csrf hcsrf
    obtain ⟨session, hread, hcsrf⟩ := bind_eq_ok.mp hcsrf
    obtain ⟨hhost, hauth⟩ := require_bind_eq_ok.mp hread
    have hauth : authenticate s (request.cookies policy.cookieName) = .ok session :=
      mapError_eq_ok.mp hauth
    obtain ⟨verified, hverified, hrest⟩ := bind_eq_ok.mp (mapError_eq_ok.mp hcsrf)
    obtain ⟨rfl, hcsrf⟩ := require_bind_eq_ok.mp hrest
    cases hcookie : request.cookies policy.cookieName with
    | none =>
      rw [hcookie] at hauth
      exact nomatch hauth
    | some cookie =>
      rw [hcookie] at hauth
      obtain ⟨row, hrow, -, -, user, -, rfl⟩ := hissued.authenticate_eq_ok.mp hauth
      obtain ⟨result, -, hbacks⟩ := hissued.backs_of_row hrow
      refine ⟨_, hread, (authenticatedMutation_eq_ok hbacks.isSha256).mpr
        ⟨hcookie ▸ hauth, hhost, rfl, csrf, rfl, ?_⟩⟩
      rw [← Except.ok.inj hcsrf]
      exact (verifySecret_eq_true hbacks.isSha256).mp hverified
  · rintro userId result hresult ⟨row, hrow, hid, halive⟩ hhost hcookie
    obtain ⟨other, hother, -, hbacks⟩ := hissued.row_of_result hresult
    obtain rfl : other = row :=
      eq_of_key_eq hone.sessions hother hrow (hbacks.session.symm.trans hid.symm)
    obtain ⟨user, huser, -⟩ := hissued.user_of_row hrow
    have hauth := hissued.authenticate_eq_ok.mpr ⟨other, hrow, hbacks.token, halive, user, huser, rfl⟩
    have hread : authenticatedRead policy s request = .ok
        ⟨other.id, user.record, result.sessionToken, other.csrfSecretHash, other.expiresAt⟩ := by
      rw [authenticatedRead, requireTrustedOriginalHost, require_of hhost, ok_bind, authenticateRequest,
        hcookie, hauth]
      rfl
    have hverified : verifySecret (env.deriveCsrfToken result.sessionToken) other.csrfSecretHash =
        .ok true := (verifySecret_eq_true hbacks.isSha256).mpr (hbacks.derived ▸ hbacks.csrf)
    rw [getCsrf, hread, ok_bind, csrfTokenFor, hbacks.derived]
    dsimp only
    rw [hverified]
    rfl

theorem csrf_round_trip_registeredLogin :
    getCsrf plainEnv localPolicy ((authMachine plainEnv (· = lit "token")).exec (emptyAuth 0)
      registeredLogin) browserRequest = .ok (lit "tokentoken") := by
  obtain ⟨-, hrow, halive, hpast⟩ := registeredLogin_run
  refine (csrf_round_trip registeredLogin_legal browserRequest).2 1 loginResult ?_
    ⟨loginRow, hrow, rfl, halive⟩ rfl browserRequest_cookie
  rw [hpast]
  exact List.mem_singleton_self _

/-! ## How long a session is let in -/

/-- A row and what has become of it. -/
structure SessionLater (row row' : AuthSessionRow) : Prop where
  columns : row' = { row with revokedAt := row'.revokedAt }
  revoked : row.revokedAt ≠ none → row'.revokedAt ≠ none

/-- The calls that end a session before its time. -/
def EndsSession (row : AuthSessionRow) (input : AuthInput) : Prop :=
  input = .commit row.userId ∨ input = .logout row.id

section Life

variable {env : AuthEnv} {tokens : Str → Prop} {past : UUID → List LoginResult} {s : AuthState}
  {row row' : AuthSessionRow}

theorem SessionLater.refl (row : AuthSessionRow) : SessionLater row row := ⟨rfl, id⟩

theorem SessionLater.trans {row'' : AuthSessionRow} (h : SessionLater row row')
    (h' : SessionLater row' row'') : SessionLater row row'' := by
  refine ⟨h'.columns.trans ?_, fun hrevoked ↦ h'.revoked (h.revoked hrevoked)⟩
  rw [h.columns]

theorem sessionLater_revoke (row : AuthSessionRow) (stamp : Timestamp) :
    SessionLater row { row with revokedAt := some stamp } := ⟨rfl, fun _ ↦ nofun⟩

/-- What one call does to a row. -/
theorem session_step (hone : OneLogin tokens past s) (hissued : SessionsIssued env past s)
    {input : AuthInput} (hinput : AuthEnabled env tokens s input) (hrow : row ∈ s.sessions) :
    ∃ row' ∈ (authStep env s input).2.sessions, SessionLater row row' ∧
      (¬EndsSession row input → row'.revokedAt = row.revokedAt) ∧ s.now ≤ (authStep env s input).2.now := by
  have hsame : ∃ row' ∈ s.sessions, SessionLater row row' ∧
      (¬EndsSession row input → row'.revokedAt = row.revokedAt) ∧ s.now ≤ s.now :=
    ⟨row, hrow, SessionLater.refl row, fun _ ↦ rfl, le_rfl⟩
  cases input with
  | register email password displayName userId passwordHash =>
    rw [authStep]
    cases hs : MeetingRag.register env s email password displayName userId passwordHash with
    | error e => exact hsame
    | ok r =>
      obtain ⟨_, -, hs⟩ := bind_eq_ok.mp hs
      obtain ⟨_, -, hs⟩ := bind_eq_ok.mp hs
      obtain ⟨-, hs⟩ := require_bind_eq_ok.mp hs
      obtain ⟨_, -, hs⟩ := bind_eq_ok.mp hs
      rw [← Except.ok.inj hs]
      exact hsame
  | beginLogin email password sessionId sessionToken newHash =>
    rw [authStep]
    split
    · exact hsame
    · exact hsame
  | revoke userId => exact hsame
  | commit userId =>
    obtain ⟨login, hlogin, hrevoked⟩ := hinput
    obtain ⟨⟨ids, stamp⟩, hrevoked⟩ := Option.ne_none_iff_exists'.mp hrevoked
    obtain ⟨hmem, rfl⟩ := AuthState.mem_of_loginOf hlogin
    simp only [authStep, Option.mem_def.mp hlogin, hrevoked]
    cases hs : commitLogin env (s.without login.user.id) login ids stamp with
    | error e => exact hsame
    | ok r =>
      obtain ⟨new, -, -, -, -, hsessions, -, -, -, hnow⟩ := commitLogin_eq_ok hs
      change ∃ row' ∈ r.2.sessions, _ ∧ _ ∧ s.now ≤ r.2.now
      rw [hsessions, hnow]
      by_cases hid : row.id ∈ ids
      · refine ⟨{ row with revokedAt := some stamp }, List.mem_append_left _
          (mem_updateWhere_of_mem hrow hid), sessionLater_revoke row stamp, fun hends ↦ ?_, le_rfl⟩
        -- the login has revoked rows of its own user only
        obtain ⟨columns, hcolumns, hsameId, huser⟩ := hissued.held login hmem _ hrevoked row.id hid
        obtain ⟨other, hother, rfl⟩ := List.mem_map.mp hcolumns
        obtain rfl : other = row := eq_of_key_eq hone.sessions hother hrow hsameId
        exact absurd (Or.inl (congrArg _ huser.symm)) hends
      · exact ⟨row, List.mem_append_left _ (mem_updateWhere_of_not hrow hid), SessionLater.refl row,
          fun _ ↦ rfl, le_rfl⟩
  | abort userId => exact hsame
  | authenticate sessionToken =>
    rw [authStep]
    cases authenticate s sessionToken <;> exact hsame
  | logout id =>
    rw [authStep]
    cases hs : logout s id with
    | error e => exact hsame
    | ok r =>
      obtain ⟨-, hs⟩ := require_bind_eq_ok.mp hs
      rw [← Except.ok.inj hs]
      change ∃ row' ∈ updateWhere (fun r : AuthSessionRow ↦ r.id = id ∧ r.revokedAt = none)
        (fun r ↦ { r with revokedAt := some s.now }) s.sessions, _ ∧ _ ∧ s.now ≤ s.now
      by_cases hid : row.id = id ∧ row.revokedAt = none
      · refine ⟨{ row with revokedAt := some s.now }, mem_updateWhere_of_mem hrow hid,
          sessionLater_revoke row s.now, fun hends ↦ ?_, le_rfl⟩
        exact absurd (Or.inr (congrArg _ hid.1.symm)) hends
      · exact ⟨row, mem_updateWhere_of_not hrow hid, SessionLater.refl row, fun _ ↦ rfl, le_rfl⟩
  | advance microseconds =>
    refine ⟨row, hrow, SessionLater.refl row, fun _ ↦ rfl, ?_⟩
    exact Int.le_add_of_nonneg_right (Int.natCast_nonneg microseconds)

/-- What a run does to a row. -/
theorem session_run {inputs : List AuthInput} (hone : OneLogin tokens past s)
    (hissued : SessionsIssued env past s) (hlegal : (authMachine env tokens).Legal s inputs)
    (hrow : row ∈ s.sessions) :
    ∃ row' ∈ ((authMachine env tokens).exec s inputs).sessions, SessionLater row row' ∧
      ((∀ input ∈ inputs, ¬EndsSession row input) → row'.revokedAt = row.revokedAt) ∧
      s.now ≤ ((authMachine env tokens).exec s inputs).now := by
  induction inputs generalizing s past row with
  | nil => exact ⟨row, hrow, SessionLater.refl row, fun _ ↦ rfl, le_rfl⟩
  | cons input inputs ih =>
    obtain ⟨hinput, hrest⟩ := hlegal
    obtain ⟨mid, hmid, hlater, hkept, hle⟩ := session_step hone hissued hinput hrow
    obtain ⟨row', hrow', hlater', hkept', hle'⟩ := ih (hone.step hinput) (hissued.step hone hinput)
      hrest hmid
    refine ⟨row', hrow', hlater.trans hlater', fun hnone ↦ ?_, hle.trans hle'⟩
    rw [← hkept (hnone input List.mem_cons_self)]
    apply hkept'
    intro i hi hends
    rw [hlater.columns] at hends
    exact hnone i (List.mem_cons_of_mem _ hi) hends

end Life

/-- **A session is let in until it ends, and never again.** A token whose session is revoked or over is
refused in every later state; one whose session is alive opens it in every later state that comes before
its time is over, unless its user has logged in again or it was logged out. -/
theorem session_lifetime {env : AuthEnv} {tokens : Str → Prop} {now : Timestamp}
    {before after : List AuthInput}
    (hlegal : (authMachine env tokens).Legal (emptyAuth now) (before ++ after)) {row : AuthSessionRow}
    (hrow : row ∈ ((authMachine env tokens).exec (emptyAuth now) before).sessions) {token : Str}
    (htoken : secretHash token = .ok row.tokenHash) :
    let s := (authMachine env tokens).exec (emptyAuth now) before
    let s' := (authMachine env tokens).exec (emptyAuth now) (before ++ after)
    (¬SessionAlive s row → authenticate s' (some token) =
      .error (.sessionAuthentication "authentication required")) ∧
    (SessionAlive s row → (∀ input ∈ after, ¬EndsSession row input) → s'.now < row.expiresAt →
      ∃ session, authenticate s' (some token) = .ok session ∧ session.id = row.id ∧
        session.user.id = row.userId) := by
  intro s s'
  obtain ⟨hbefore, hafter⟩ := Machine.along_append.mp hlegal
  have hissued' : SessionsIssued env _ s' := issued_of_legal hlegal
  obtain ⟨row', hrow', hlater, hkept, hle⟩ := session_run (oneLogin_of_legal hbefore)
    (issued_of_legal hbefore) hafter hrow
  rw [← Machine.exec_append] at hrow' hle
  have htoken' : row'.tokenHash = row.tokenHash := by rw [hlater.columns]
  have hexpires : row'.expiresAt = row.expiresAt := by rw [hlater.columns]
  constructor
  · intro hdead
    have hrefused : ∀ session, authenticate s' (some token) ≠ .ok session := by
      intro session hs
      obtain ⟨found, hfound, hdigest, halive, -⟩ := hissued'.authenticate_eq_ok.mp hs
      have hsame : found.tokenHash = row'.tokenHash :=
        (Except.ok.inj (hdigest.symm.trans htoken)).trans htoken'.symm
      obtain rfl : found = row' := eq_of_key_eq hissued'.nodup_tokenHash hfound hrow' hsame
      refine hdead ⟨?_, hle.trans_lt (hexpires ▸ halive.2)⟩
      by_contra hrevoked
      exact hlater.revoked hrevoked halive.1
    have hreturns : ∀ outcome, authenticate s' (some token) = outcome →
        outcome = .error (.sessionAuthentication "authentication required") := by
      intro outcome houtcome
      cases outcome with
      | ok session => exact absurd houtcome (hrefused session)
      | error e =>
        rw [authenticate, require_of (secretHash_eq_ok htoken).1, ok_bind, htoken, ok_bind] at houtcome
        split at houtcome
        · exact nomatch houtcome
        · exact houtcome.symm
    exact hreturns _ rfl
  · intro halive hnone hin
    obtain ⟨user, huser, hof⟩ := hissued'.user_of_row hrow'
    refine ⟨⟨row'.id, user.record, token, row'.csrfSecretHash, row'.expiresAt⟩,
      hissued'.authenticate_eq_ok.mpr ⟨row', hrow', htoken' ▸ htoken, ?_, user, huser, rfl⟩, ?_, ?_⟩
    · exact ⟨(hkept hnone).trans halive.1, hexpires ▸ hin⟩
    · rw [hlater.columns]
    · exact hof.trans (by rw [hlater.columns])

theorem session_lifetime_registeredLogin :
    let s := (authMachine plainEnv (· = lit "token")).exec (emptyAuth 0) registeredLogin
    let s' := (authMachine plainEnv (· = lit "token")).exec (emptyAuth 0)
      (registeredLogin ++ [.logout 2])
    (¬SessionAlive s loginRow → authenticate s' (some (lit "token")) =
      .error (.sessionAuthentication "authentication required")) ∧
    (SessionAlive s loginRow → (∀ input ∈ [AuthInput.logout 2], ¬EndsSession loginRow input) →
      s'.now < loginRow.expiresAt →
        ∃ session, authenticate s' (some (lit "token")) = .ok session ∧ session.id = loginRow.id ∧
          session.user.id = loginRow.userId) :=
  session_lifetime registeredLogin_run.1 registeredLogin_run.2.1 (secretHash_lit (by decide))

end MeetingRag
