import MeetingRag.Editor.Changes
import MeetingRag.Library.Binary64
import MeetingRag.Library.Headers

/-!
# The two proxies of the web server

The web server passes the requests under `/api` on to the internal API. `createGateway` and
`proxyApiRequest` do so under one policy, each in its own words: a length has to be declared for a body,
an origin has to be configured, the target is the path of the request at that origin, and only the
headers of a list go along.

They part over the requests without a body that are neither `GET` nor `HEAD`: the gateway asks for a
declared length where there is a body, the server wherever the method could have one. They agree on all
others (`gateway_agrees_iff`).

The parser of URLs is given: `parse` is `new URL(text)`, and `resolve` is `new URL(path, base)` for the
path of a URL and an origin, which has no failure.
-/

open Py Web

namespace MeetingRag

/-! ## The envelope of a body -/

def multipartEnvelopeLimitBytes : ℕ := 201 * 1024 * 1024

structure EnvelopeError where
  detail : String
  status : ℕ
deriving DecidableEq

/-- `^[0-9]+$` -/
def IsNumeral (raw : String) : Prop := raw.toList ≠ [] ∧ ∀ c ∈ raw.toList, c.isDigit = true

instance (raw : String) : Decidable (IsNumeral raw) := inferInstanceAs (Decidable (_ ∧ _))

def numeralValue (raw : String) : ℕ := raw.toList.foldl (fun n c ↦ 10 * n + (c.toNat - 48)) 0

/-- `Number(raw)` of a numeral -/
def toNumber (raw : String) : PyFloat := ofRat (numeralValue raw)

/-- `Number.isSafeInteger` -/
def isSafeInteger : PyFloat → Bool
  | .finite q => q.den = 1 ∧ |q| ≤ 2 ^ 53 - 1
  | .inf | .negInf | .nan => false

/-- `value > bound` -/
def exceeds (bound : ℕ) : PyFloat → Bool
  | .finite q => bound < q
  | .inf => true
  | .negInf | .nan => false

/-- The length is one the proxies take. -/
def lengthAllowed (raw : String) : Bool :=
  isSafeInteger (toNumber raw) && !exceeds multipartEnvelopeLimitBytes (toNumber raw)

def validateDeclaredLength (headers : Headers) (requiredDetail tooLargeDetail : String) :
    Option EnvelopeError :=
  match headers.get "content-length" with
  | none => some ⟨requiredDetail, 411⟩
  | some rawContentLength =>
    if ¬IsNumeral rawContentLength then
      some ⟨"invalid content-length", 400⟩
    else if ¬lengthAllowed rawContentLength then
      some ⟨tooLargeDetail, 413⟩
    else
      none

def validateMultipartEnvelopeHeaders (headers : Headers) : Option EnvelopeError :=
  match headers.get "content-type" with
  | none => none
  | some contentType =>
    -- Only the letters of ASCII decide here, so that a letter beyond them may keep its case.
    if startsWith "multipart/form-data" (toLowerCase contentType) then
      validateDeclaredLength headers "multipart content-length is required"
        "multipart envelope exceeds proxy limit"
    else
      none

def validateRequestBodyEnvelopeHeaders (headers : Headers) : Option EnvelopeError :=
  match validateMultipartEnvelopeHeaders headers with
  | some multipartError => some multipartError
  | none =>
    validateDeclaredLength headers "content-length is required" "request body exceeds proxy limit"

/-- The headers declare a length in digits that is within the limit. -/
def DeclaresLength (headers : Headers) : Prop :=
  ∃ raw, headers.get "content-length" = some raw ∧ IsNumeral raw ∧
    numeralValue raw ≤ multipartEnvelopeLimitBytes

/-- Rounding a numeral to a number neither lets a length in nor keeps one out. -/
theorem lengthAllowed_iff (raw : String) :
    lengthAllowed raw = true ↔ numeralValue raw ≤ multipartEnvelopeLimitBytes := by
  rw [lengthAllowed, toNumber]
  generalize numeralValue raw = n
  by_cases hsmall : n < 2 ^ 53
  · have hdouble : IsDouble (n : ℚ) := by
      refine ⟨nearest_natCast hsmall, ?_⟩
      rw [abs_of_nonneg (Nat.cast_nonneg n)]
      exact lt_trans (by exact_mod_cast hsmall) (pow_lt_pow_right₀ one_lt_two (by norm_num))
    have hle : (n : ℚ) ≤ 2 ^ 53 - 1 := by
      have : (n : ℚ) + 1 ≤ 2 ^ 53 := by exact_mod_cast hsmall
      linarith
    rw [ofRat_of_isDouble hdouble]
    simp [isSafeInteger, exceeds, hle]
  · have hlarge : (2 : ℚ) ^ (53 : ℤ) ≤ nearest n :=
      zpow_le_nearest (by exact_mod_cast Nat.le_of_not_lt hsmall) (by norm_num)
    have hbeyond : isSafeInteger (ofRat n) = false := by
      rw [ofRat]
      split
      · have hnot : ¬|nearest (n : ℚ)| ≤ 2 ^ 53 - 1 := by
          intro hle
          have habs := le_trans (le_abs_self (nearest (n : ℚ))) hle
          norm_num at hlarge habs
          linarith
        exact decide_eq_false fun h ↦ hnot h.2
      · split <;> rfl
    have hlimit : ¬n ≤ multipartEnvelopeLimitBytes := by
      rw [multipartEnvelopeLimitBytes]
      omega
    rw [hbeyond, Bool.false_and]
    exact iff_of_false Bool.false_ne_true hlimit

theorem validateDeclaredLength_eq_none {headers : Headers} {requiredDetail tooLargeDetail : String} :
    validateDeclaredLength headers requiredDetail tooLargeDetail = none ↔ DeclaresLength headers := by
  rw [validateDeclaredLength, DeclaresLength]
  split
  · rename_i hnone
    rw [hnone]
    simp
  · rename_i raw hsome
    simp only [hsome, Option.some.injEq, exists_eq_left', ← lengthAllowed_iff]
    by_cases hnumeral : IsNumeral raw <;> simp [hnumeral]

/-- **What a body needs is a declared length**, whatever its type is. -/
theorem validateRequestBodyEnvelopeHeaders_eq_none {headers : Headers} :
    validateRequestBodyEnvelopeHeaders headers = none ↔ DeclaresLength headers := by
  rw [validateRequestBodyEnvelopeHeaders]
  split
  · rename_i e he
    have hnot : ¬DeclaresLength headers := by
      intro hdeclares
      rw [validateMultipartEnvelopeHeaders] at he
      split at he
      · exact nomatch he
      · split at he
        · rw [validateDeclaredLength_eq_none.mpr hdeclares] at he
          exact nomatch he
        · exact nomatch he
    exact iff_of_false (Option.some_ne_none e) hnot
  · exact validateDeclaredLength_eq_none

theorem status_validateDeclaredLength {headers : Headers} {requiredDetail tooLargeDetail : String}
    {e : EnvelopeError} (h : validateDeclaredLength headers requiredDetail tooLargeDetail = some e) :
    e.status ∈ [411, 400, 413] := by
  rw [validateDeclaredLength] at h
  split at h
  · cases h
    exact List.mem_cons_self
  · split at h
    · cases h
      exact List.mem_of_mem_tail List.mem_cons_self
    · split at h
      · cases h
        exact List.mem_of_mem_tail (List.mem_of_mem_tail List.mem_cons_self)
      · exact nomatch h

theorem status_validateRequestBodyEnvelopeHeaders {headers : Headers} {e : EnvelopeError}
    (h : validateRequestBodyEnvelopeHeaders headers = some e) : e.status ∈ [411, 400, 413] := by
  rw [validateRequestBodyEnvelopeHeaders] at h
  split at h
  · rename_i multipartError hmultipart
    cases h
    rw [validateMultipartEnvelopeHeaders] at hmultipart
    split at hmultipart
    · exact nomatch hmultipart
    · split at hmultipart
      · exact status_validateDeclaredLength hmultipart
      · exact nomatch hmultipart
  · exact status_validateDeclaredLength h

/-! ## The headers that go along -/

def originalHostHeader : String := "x-axit-original-host"

def requestHeaderAllowlist : List String :=
  ["accept", "accept-encoding", "accept-language", "cache-control", "content-length", "content-type",
    "cookie", "if-match", "if-none-match", "origin", "pragma", "range", "user-agent", "x-csrf-token"]

def keepAllowed (sanitized : Headers) (header : String × String) : Headers :=
  if toLowerCase header.1 ∈ requestHeaderAllowlist then sanitized.append header.1 header.2 else sanitized

def sanitizeProxyRequestHeaders (incoming : Headers) : Headers :=
  let sanitized := incoming.entries.foldl keepAllowed Headers.empty
  match incoming.get "host" with
  | some originalHost =>
    if trimScript originalHost ≠ "" then
      sanitized.set originalHostHeader (trimScript originalHost)
    else
      sanitized
  | none => sanitized

theorem names_keepAllowed {sanitized : Headers} {header : String × String}
    (h : sanitized.names ⊆ requestHeaderAllowlist) :
    (keepAllowed sanitized header).names ⊆ requestHeaderAllowlist := by
  intro name hname
  rw [keepAllowed] at hname
  split at hname
  · rename_i hallowed
    rcases Headers.mem_names_append hname with hold | rfl
    · exact h hold
    · exact hallowed
  · exact h hname

theorem names_foldl_keepAllowed (headers : List (String × String)) {sanitized : Headers}
    (h : sanitized.names ⊆ requestHeaderAllowlist) :
    (headers.foldl keepAllowed sanitized).names ⊆ requestHeaderAllowlist := by
  induction headers generalizing sanitized with
  | nil => exact h
  | cons header rest ih => exact ih (names_keepAllowed h)

/-- **No other header reaches the API** than those of the list and the host. -/
theorem names_sanitizeProxyRequestHeaders (incoming : Headers) :
    (sanitizeProxyRequestHeaders incoming).names ⊆ originalHostHeader :: requestHeaderAllowlist := by
  have hempty : Headers.empty.names ⊆ requestHeaderAllowlist := List.nil_subset _
  have hallowed := names_foldl_keepAllowed incoming.entries hempty
  have hkept := List.subset_cons_of_subset originalHostHeader hallowed
  rw [sanitizeProxyRequestHeaders]
  split
  · split
    · intro name hname
      rcases Headers.mem_names_set hname with hold | rfl
      · exact hkept hold
      · exact List.mem_cons.mpr (Or.inl (by decide +kernel))
    · exact hkept
  · exact hkept

theorem setCookie_not_mem_sanitized (incoming : Headers) :
    setCookie ∉ (sanitizeProxyRequestHeaders incoming).names := by
  intro hmem
  have hnot : setCookie ∉ originalHostHeader :: requestHeaderAllowlist := by decide
  exact hnot (names_sanitizeProxyRequestHeaders incoming hmem)

/-! ## The two proxies -/

/-- A `URL`. -/
structure WebUrl where
  protocol : String
  username : String
  password : String
  host : String
  pathname : String
  search : String
  hash : String
deriving DecidableEq

/-- What a proxy reads of a request, its path and query as the URL parser has them. -/
structure WebRequest where
  method : String
  pathname : String
  search : String
  rawHeaders : List (String × String)
  hasBody : Bool

def UnderApi (pathname : String) : Prop :=
  pathname = "/api" ∨ startsWith "/api/" pathname = true

instance (pathname : String) : Decidable (UnderApi pathname) := inferInstanceAs (Decidable (_ ∨ _))

/-- A request that the server hands to its API proxy. -/
structure ApiRequest extends WebRequest where
  underApi : UnderApi pathname

/-- What a proxy does with a request: it answers by itself, or it passes the request on and streams the
body or not. -/
inductive ProxyOutcome
  | answer (status : ℕ) (json : List (String × String))
  | forward (target : WebUrl) (method : String) (headers : List (String × String)) (streams : Bool)
deriving DecidableEq

def jsonError (detail : String) (status : ℕ) : ProxyOutcome := .answer status [("detail", detail)]

def bodylessMethods : List String := ["GET", "HEAD"]

def incomingHeaders (request : WebRequest) : Headers :=
  request.rawHeaders.foldl (fun headers p ↦ headers.append p.1 p.2) Headers.empty

section

variable (parse : String → Option WebUrl) (resolve : String → WebUrl → WebUrl)

def parseInternalApiOrigin (configured : Option String) : Option WebUrl :=
  match configured with
  | none => none
  | some text =>
    if trimScript text = "" then none
    else (parse text).filter fun url ↦
      url.protocol ∈ ["http:", "https:"] ∧ url.username = "" ∧ url.password = "" ∧
        (url.pathname = "" ∨ url.pathname = "/") ∧ url.search = "" ∧ url.hash = ""

/-- `createGateway({ internalApiUrl })(request)`, up to the call of `fetch` -/
def gateway (internalApiUrl : Option String) (request : WebRequest) : ProxyOutcome :=
  if request.pathname = "/health" then
    .answer 200 [("service", "web"), ("status", "ok")]
  else if ¬UnderApi request.pathname then
    jsonError "not found" 404
  else
    let method := toUpperCase request.method
    let sendsBody := method ∉ bodylessMethods ∧ request.hasBody = true
    match if sendsBody then validateRequestBodyEnvelopeHeaders (incomingHeaders request) else none with
    | some envelopeError => jsonError envelopeError.detail envelopeError.status
    | none =>
      match parseInternalApiOrigin parse internalApiUrl with
      | none => jsonError "internal API origin is not configured" 500
      | some internalApiOrigin =>
        .forward (resolve (request.pathname ++ request.search) internalApiOrigin) method
          (sanitizeProxyRequestHeaders (incomingHeaders request)).entries sendsBody

/-- `proxyApiRequest`, up to the call of `http.request` -/
def proxyApiRequest (internalApiOrigin : Option WebUrl) (request : WebRequest) : ProxyOutcome :=
  let method := toUpperCase request.method
  let incoming := incomingHeaders request
  match if method ∉ bodylessMethods then validateRequestBodyEnvelopeHeaders incoming else none with
  | some envelopeError => jsonError envelopeError.detail envelopeError.status
  | none =>
    match internalApiOrigin with
    | none => jsonError "internal API origin is not configured" 500
    | some internalApiOrigin =>
      .forward (resolve (request.pathname ++ request.search) internalApiOrigin) method
        (fromEntries (sanitizeProxyRequestHeaders incoming).entries) (method ∉ bodylessMethods)

/-! ## Agreement -/

/-- Both answer with the same status, or both pass the request on to the same target with the same
method and headers. -/
def ProxyOutcome.Agrees : ProxyOutcome → ProxyOutcome → Prop
  | .answer status _, .answer status' _ => status = status'
  | .forward target method headers _, .forward target' method' headers' _ =>
    target = target' ∧ method = method' ∧ headers = headers'
  | _, _ => False

/-- The object that the server passes on has the headers that the gateway passes on. -/
theorem fromEntries_sanitized (incoming : Headers) :
    fromEntries (sanitizeProxyRequestHeaders incoming).entries =
      (sanitizeProxyRequestHeaders incoming).entries :=
  fromEntries_of_nodup (Headers.nodup_entries (setCookie_not_mem_sanitized incoming))

/-- The end of both proxies: the error of the envelope comes first, then the missing origin. -/
def policy (envelopeError : Option EnvelopeError) (origin : Option WebUrl)
    (passOn : WebUrl → ProxyOutcome) : ProxyOutcome :=
  match envelopeError with
  | some e => jsonError e.detail e.status
  | none =>
    match origin with
    | none => jsonError "internal API origin is not configured" 500
    | some url => passOn url

theorem policy_agrees {passOn passOn' : WebUrl → ProxyOutcome}
    (h : ∀ url, (passOn url).Agrees (passOn' url)) (envelopeError : Option EnvelopeError)
    (origin : Option WebUrl) :
    (policy envelopeError origin passOn).Agrees (policy envelopeError origin passOn') := by
  cases envelopeError with
  | some e => exact Eq.refl e.status
  | none =>
    cases origin with
    | none => exact Eq.refl 500
    | some url => exact h url

/-- A refusal of the envelope agrees with nothing that an accepted envelope leads to. -/
theorem not_policy_agrees {e : EnvelopeError} (he : e.status ∈ [411, 400, 413])
    {passOn passOn' : WebUrl → ProxyOutcome}
    (hpassOn : ∀ url status json, ¬(passOn url).Agrees (.answer status json)) (origin : Option WebUrl) :
    ¬(policy none origin passOn).Agrees (policy (some e) origin passOn') := by
  intro hagrees
  cases origin with
  | none =>
    have hstatus : 500 = e.status := hagrees
    rw [← hstatus] at he
    revert he
    decide
  | some url => exact hpassOn url e.status _ hagrees

variable (internalApiUrl : Option String) (request : ApiRequest)

theorem gateway_eq_policy :
    gateway parse resolve internalApiUrl request.toWebRequest =
      policy (if toUpperCase request.method ∉ bodylessMethods ∧ request.hasBody = true then
          validateRequestBodyEnvelopeHeaders (incomingHeaders request.toWebRequest) else none)
        (parseInternalApiOrigin parse internalApiUrl) fun url ↦
          .forward (resolve (request.pathname ++ request.search) url) (toUpperCase request.method)
            (sanitizeProxyRequestHeaders (incomingHeaders request.toWebRequest)).entries
            (toUpperCase request.method ∉ bodylessMethods ∧ request.hasBody = true) := by
  have hhealth : request.pathname ≠ "/health" := by
    intro heq
    have hunder : UnderApi "/health" := heq ▸ request.underApi
    revert hunder
    decide +kernel
  rw [gateway, if_neg hhealth, if_neg (not_not.mpr request.underApi)]
  rfl

/-- **The two proxies agree on a request exactly when** it is a `GET` or a `HEAD`, or it has a body, or
it declares a length within the limit. -/
theorem gateway_agrees_iff :
    (gateway parse resolve internalApiUrl request.toWebRequest).Agrees
        (proxyApiRequest resolve (parseInternalApiOrigin parse internalApiUrl) request.toWebRequest) ↔
      toUpperCase request.method ∈ bodylessMethods ∨ request.hasBody = true ∨
        DeclaresLength (incomingHeaders request.toWebRequest) := by
  set incoming := incomingHeaders request.toWebRequest with hincoming
  set method := toUpperCase request.method with hmethod
  set passOn : WebUrl → ProxyOutcome := fun url ↦
    .forward (resolve (request.pathname ++ request.search) url) method
      (sanitizeProxyRequestHeaders incoming).entries (method ∉ bodylessMethods ∧ request.hasBody = true)
    with hpassOn
  set passOn' : WebUrl → ProxyOutcome := fun url ↦
    .forward (resolve (request.pathname ++ request.search) url) method
      (fromEntries (sanitizeProxyRequestHeaders incoming).entries) (method ∉ bodylessMethods)
    with hpassOn'
  have hagrees : ∀ url, (passOn url).Agrees (passOn' url) := fun url ↦
    ⟨rfl, rfl, (fromEntries_sanitized incoming).symm⟩
  have hproxy : proxyApiRequest resolve (parseInternalApiOrigin parse internalApiUrl)
      request.toWebRequest =
        policy (if method ∉ bodylessMethods then validateRequestBodyEnvelopeHeaders incoming else none)
          (parseInternalApiOrigin parse internalApiUrl) passOn' := rfl
  rw [gateway_eq_policy, hproxy]
  by_cases hbodyless : method ∈ bodylessMethods
  · rw [if_neg fun h ↦ h.1 hbodyless, if_neg (not_not.mpr hbodyless)]
    exact iff_of_true (policy_agrees hagrees none _) (Or.inl hbodyless)
  rw [if_pos hbodyless, or_iff_right hbodyless]
  by_cases hbody : request.hasBody = true
  · rw [if_pos ⟨hbodyless, hbody⟩]
    exact iff_of_true (policy_agrees hagrees _ _) (Or.inl hbody)
  rw [if_neg fun h ↦ hbody h.2, or_iff_right hbody]
  -- Only the server looks at the envelope now.
  cases henvelope : validateRequestBodyEnvelopeHeaders incoming with
  | none =>
    exact iff_of_true (policy_agrees hagrees none _)
      (validateRequestBodyEnvelopeHeaders_eq_none.mp henvelope)
  | some e =>
    have hstatus := status_validateRequestBodyEnvelopeHeaders henvelope
    have hforward : ∀ url status json, ¬(passOn url).Agrees (.answer status json) := fun _ _ _ h ↦ h
    refine iff_of_false (not_policy_agrees hstatus hforward _) fun hdeclares ↦ ?_
    rw [validateRequestBodyEnvelopeHeaders_eq_none.mpr hdeclares] at henvelope
    exact nomatch henvelope

end

/-- A comment is deleted without a body: the gateway passes the request on, and the server asks for a
length. -/
theorem gateway_disagrees_delete :
    let origin : WebUrl := ⟨"http:", "", "", "api:8000", "/", "", ""⟩
    let parse : String → Option WebUrl := fun text ↦ if text = "http://api:8000" then some origin else none
    let resolve : String → WebUrl → WebUrl := fun path base ↦ { base with pathname := path }
    let request : WebRequest := ⟨"DELETE", "/api/comments/1", "", [("host", "localhost")], false⟩
    UnderApi request.pathname ∧
      gateway parse resolve (some "http://api:8000") request =
        .forward { origin with pathname := "/api/comments/1" } "DELETE"
          [("x-axit-original-host", "localhost")] false ∧
      proxyApiRequest resolve (parseInternalApiOrigin parse (some "http://api:8000")) request =
        .answer 411 [("detail", "content-length is required")] ∧
      ¬(gateway parse resolve (some "http://api:8000") request).Agrees
        (proxyApiRequest resolve (parseInternalApiOrigin parse (some "http://api:8000")) request) := by
  intro origin parse resolve request
  have hgateway : gateway parse resolve (some "http://api:8000") request =
      .forward { origin with pathname := "/api/comments/1" } "DELETE"
        [("x-axit-original-host", "localhost")] false := by decide +kernel
  have hserver : proxyApiRequest resolve (parseInternalApiOrigin parse (some "http://api:8000")) request =
      .answer 411 [("detail", "content-length is required")] := by decide +kernel
  refine ⟨by decide +kernel, hgateway, hserver, fun h ↦ ?_⟩
  rw [hgateway, hserver] at h
  exact h

end MeetingRag
