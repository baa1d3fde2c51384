import MeetingRag.Auth.Login

/-!
# Requests of a browser

A request that changes something is let in when it comes from the configured origin and host, its cookie
is the token of a session that is alive, and its header is the token that was derived from that session.
The tables hold digests of both tokens only, so a request is told from another up to the digest.

A session is alive from its login until its user logs in again, it is logged out, or its time is over,
and it does not come back.
-/

open Outcome Py Table

namespace MeetingRag

/-! ## The policy -/

/-- `BrowserSecurityPolicy` -/
structure BrowserSecurityPolicy where
  publicOrigin : Str
  publicHost : Str
  cookieName : Str
  origin_set : ¬Blank publicOrigin
  host_set : ¬Blank publicHost
  cookie_set : ¬Blank cookieName

/-- What is read of a request: its cookies and three of its headers. -/
structure BrowserRequest where
  cookies : Str → Option Str
  origin : Option Str
  originalHost : Option Str
  csrfToken : Option Str

/-- The subclasses of `SecurityPolicyError`, and what the service raises. -/
inductive RequestError
  | untrustedOriginalHost (message : String)
  | untrustedOrigin (message : String)
  | missingCsrfToken (message : String)
  | invalidCsrfToken (message : String)
  | auth (e : AuthError)
deriving DecidableEq

/-- `verify_secret`; `hmac.compare_digest` refuses text that is not ASCII. -/
def verifySecret (value expectedHash : Str) : Except AuthError Bool :=
  if value = [] ∨ expectedHash.length ≠ 64 then .ok false
  else do
    let digest ← secretHash value
    require (∀ c ∈ expectedHash, c.val < 128) (.raised .typeError)
    .ok (decide (digest = expectedHash))

/-- `require_trusted_original_host` -/
def requireTrustedOriginalHost (policy : BrowserSecurityPolicy) (originalHost : Option Str) :
    Except RequestError Unit :=
  require (originalHost = some policy.publicHost) (.untrustedOriginalHost "untrusted original host")

/-- `require_pre_auth_request` -/
def requirePreAuthRequest (policy : BrowserSecurityPolicy) (origin originalHost : Option Str) :
    Except RequestError Unit := do
  requireTrustedOriginalHost policy originalHost
  require (origin = some policy.publicOrigin) (.untrustedOrigin "untrusted origin")

/-- `require_unsafe_authenticated_request` -/
def requireUnsafeAuthenticatedRequest (policy : BrowserSecurityPolicy)
    (origin originalHost csrfToken : Option Str) (csrfSecretHash : Str) :
    Except RequestError Unit := do
  requirePreAuthRequest policy origin originalHost
  match csrfToken with
  | none => .error (.missingCsrfToken "missing CSRF token")
  | some csrfToken => do
    require (csrfToken ≠ []) (.missingCsrfToken "missing CSRF token")
    let verified ← (verifySecret csrfToken csrfSecretHash).mapError RequestError.auth
    require (verified = true) (.invalidCsrfToken "invalid CSRF token")

/-! ## The routes -/

/-- `csrf_token_for` -/
def csrfTokenFor (env : AuthEnv) (authenticated : AuthenticatedSession) : Except AuthError Str := do
  let csrfToken := env.deriveCsrfToken authenticated.sessionToken
  let verified ← verifySecret csrfToken authenticated.csrfSecretHash
  require (verified = true) (.sessionAuthentication "authentication required")
  .ok csrfToken

/-- `_authenticate` -/
def authenticateRequest (policy : BrowserSecurityPolicy) (s : AuthState) (request : BrowserRequest) :
    Except RequestError AuthenticatedSession :=
  (authenticate s (request.cookies policy.cookieName)).mapError .auth

/-- `_authenticated_read` -/
def authenticatedRead (policy : BrowserSecurityPolicy) (s : AuthState) (request : BrowserRequest) :
    Except RequestError AuthenticatedSession := do
  requireTrustedOriginalHost policy request.originalHost
  authenticateRequest policy s request

/-- `_authenticated_mutation` -/
def authenticatedMutation (policy : BrowserSecurityPolicy) (s : AuthState) (request : BrowserRequest) :
    Except RequestError AuthenticatedSession := do
  let authenticated ← authenticateRequest policy s request
  requireUnsafeAuthenticatedRequest policy request.origin request.originalHost request.csrfToken
    authenticated.csrfSecretHash
  .ok authenticated

/-- `get_csrf_contract` -/
def getCsrf (env : AuthEnv) (policy : BrowserSecurityPolicy) (s : AuthState) (request : BrowserRequest) :
    Except RequestError Str := do
  let authenticated ← authenticatedRead policy s request
  (csrfTokenFor env authenticated).mapError .auth

/-! ## Digests -/

/-- Two secrets that the tables do not tell apart. -/
def SameDigest (a b : Str) : Prop := ∃ digest, secretHash a = .ok digest ∧ secretHash b = .ok digest

section Digests

variable {value digest : Str}

theorem secretHash_eq_ok (h : secretHash value = .ok digest) :
    value ≠ [] ∧ digest = sha256Hex (encodeUtf8 value) := by
  obtain ⟨hne, h⟩ := require_bind_eq_ok.mp h
  obtain ⟨-, h⟩ := require_bind_eq_ok.mp h
  exact ⟨hne, (Except.ok.inj h).symm⟩

theorem ascii_of_isSha256 (h : IsSha256 digest) : ∀ c ∈ digest, c.val < 128 := by
  intro c hc
  have hhex := h.2 c hc
  simp only [isLowerHex, Bool.or_eq_true, Bool.and_eq_true, decide_eq_true_eq] at hhex
  omega

/-- A verifier that is a digest accepts exactly the secrets with that digest. -/
theorem verifySecret_eq_true (hexpected : IsSha256 digest) :
    verifySecret value digest = .ok true ↔ secretHash value = .ok digest := by
  rw [verifySecret]
  by_cases hempty : value = []
  · rw [if_pos (Or.inl hempty)]
    exact ⟨nofun, fun h ↦ absurd hempty (secretHash_eq_ok h).1⟩
  · rw [if_neg (by simp [hempty, hexpected.1]), bind_eq_ok]
    simp only [require_bind_eq_ok, Except.ok.injEq, decide_eq_true_eq]
    constructor
    · rintro ⟨found, hfound, -, rfl⟩
      exact hfound
    · exact fun h ↦ ⟨digest, h, ascii_of_isSha256 hexpected, rfl⟩

end Digests

/-! ## What the checks let through -/

section Checks

variable {policy : BrowserSecurityPolicy} {s : AuthState} {request : BrowserRequest}
  {session : AuthenticatedSession}

theorem mapError_eq_ok {ε ε' α : Type} {x : Except ε α} {f : ε → ε'} {a : α} :
    x.mapError f = .ok a ↔ x = .ok a := by
  cases x with
  | error e => exact ⟨nofun, nofun⟩
  | ok b => exact ⟨fun h ↦ congrArg _ (Except.ok.inj h), fun h ↦ congrArg _ (Except.ok.inj h)⟩

theorem requireUnsafeAuthenticatedRequest_eq_ok {origin originalHost csrfToken : Option Str}
    {csrfSecretHash : Str} (hhash : IsSha256 csrfSecretHash) {w : Unit} :
    requireUnsafeAuthenticatedRequest policy origin originalHost csrfToken csrfSecretHash = .ok w ↔
      originalHost = some policy.publicHost ∧ origin = some policy.publicOrigin ∧
        ∃ csrf ∈ csrfToken, secretHash csrf = .ok csrfSecretHash := by
  unfold requireUnsafeAuthenticatedRequest
  rw [requirePreAuthRequest, requireTrustedOriginalHost, bind_assoc, require_bind_eq_ok,
    require_bind_eq_ok]
  refine and_congr_right fun _ ↦ and_congr_right fun _ ↦ ?_
  cases csrfToken with
  | none => exact ⟨nofun, fun ⟨_, h, _⟩ ↦ nomatch h⟩
  | some csrf =>
    simp only [bind_eq_ok, mapError_eq_ok, require_eq_ok, Option.mem_def, Option.some.injEq,
      exists_eq_left']
    constructor
    · rintro ⟨_, -, verified, hverified, rfl⟩
      exact (verifySecret_eq_true hhash).mp hverified
    · intro h
      exact ⟨⟨⟩, (secretHash_eq_ok h).1, true, (verifySecret_eq_true hhash).mpr h, rfl⟩

theorem authenticatedMutation_eq_ok (hhash : IsSha256 session.csrfSecretHash) :
    authenticatedMutation policy s request = .ok session ↔
      authenticate s (request.cookies policy.cookieName) = .ok session ∧
        request.originalHost = some policy.publicHost ∧ request.origin = some policy.publicOrigin ∧
          ∃ csrf ∈ request.csrfToken, secretHash csrf = .ok session.csrfSecretHash := by
  rw [authenticatedMutation, bind_eq_ok]
  simp only [authenticateRequest, mapError_eq_ok, bind_eq_ok, Except.ok.injEq]
  constructor
  · rintro ⟨found, hfound, _, hchecks, rfl⟩
    exact ⟨hfound, (requireUnsafeAuthenticatedRequest_eq_ok hhash).mp hchecks⟩
  · rintro ⟨hfound, hchecks⟩
    exact ⟨session, hfound, ⟨⟩, (requireUnsafeAuthenticatedRequest_eq_ok hhash).mpr hchecks, rfl⟩

end Checks

end MeetingRag
