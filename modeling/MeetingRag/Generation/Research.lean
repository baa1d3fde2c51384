import MeetingRag.Generation.Contents
import MeetingRag.Library.Lists
import MeetingRag.Library.Sha256
import MeetingRag.Library.Url

/-!
# Research with a provider

The provider answers with a document of findings, written by a model, and with the pages that its
search tool has visited, which the service writes. A finding may only cite such a page: its URLs are
compared with theirs in a normal form, and what is stored is the URL of the service, never that of the
model. A finding that cites any other page loses its sources and its verdict.
-/

open Outcome Py Json Lists Url

namespace MeetingRag

/-! ## Responses -/

/-- What a call to a provider may fail with. -/
inductive ProviderFailure
  /-- `GrokProviderError` -/
  | grok (errorCode : String) (retryable : Bool)
  /-- An exception that no handler of the provider catches. -/
  | raised (e : Exc)
deriving DecidableEq, Repr

/-- `json.loads(text)`, where a text that is not JSON is reported as such. -/
def loadsOutput (limit : ℕ) (malformed : ProviderFailure) (text : Str) :
    Except ProviderFailure Json :=
  match loads defaultHooks limit text with
  | .ok v => .ok v
  | .error .jsonDecodeError => .error malformed
  | .error e => .error (.raised e)

/-- `GrokResearchProviderError(f"grok_research_malformed_{label}")`, with underscores for the blanks. -/
def malformed (label : String) : ProviderFailure :=
  .grok ("grok_research_malformed_" ++ label.map fun c ↦ if c = ' ' then '_' else c) false

/-- `_mapping` -/
def mapping (label : String) : Json → Except ProviderFailure Fields
  | .object fields => .ok fields
  | _ => .error (malformed label)

/-- `_list` -/
def listing (label : String) : Json → Except ProviderFailure (List Json)
  | .array items => .ok items
  | _ => .error (malformed label)

/-- `_text` -/
def nonblankText (label : String) : Json → Except ProviderFailure Str
  | .str s => if Py.Blank s then .error (malformed label) else .ok s
  | _ => .error (malformed label)

/-- The texts of one item of the output. -/
def messageTexts (raw : Json) : Except ProviderFailure (List Str) := do
  let item ← mapping "response output item" raw
  if EqStr (lit "message") (get item "type") then do
    let contents ← listing "response content" (get item "content")
    let found ← contents.mapM fun rawContent ↦ do
      let content ← mapping "response content item" rawContent
      if EqStr (lit "output_text") (get content "type") then do
        let outputText ← nonblankText "response output text" (get content "text")
        .ok [outputText]
      else .ok []
    .ok found.flatten
  else .ok []

/-- `_response_output_text` -/
def responseOutputText (response : Fields) : Except ProviderFailure Str := do
  let output ← listing "response output" (get response "output")
  let found ← output.mapM messageTexts
  match found.flatten with
  | [outputText] => .ok outputText
  | _ => .error (.grok "grok_research_malformed_response" true)

/-! ## Provenance -/

/-- The `url` of each object of a list. -/
def urlsOf : Json → List Json
  | .array values => values.flatMap fun
    | .object fields => [get fields "url"]
    | _ => []
  | _ => []

/-- What one item of the output says about the pages that were visited. -/
def itemProvenance : Json → List Json
  | .object item =>
    (if EqStr (lit "web_search_call") (get item "type") then
      match get item "action" with
      | .object action => urlsOf (get action "sources")
      | _ => []
    else []) ++
    if EqStr (lit "message") (get item "type") then
      match get item "content" with
      | .array contents => contents.flatMap fun
        | .object content => urlsOf (get content "annotations")
        | _ => []
      | _ => []
    else []
  | _ => []

/-- The values that `_trusted_citations` hands to `add_url`. -/
def provenance (response : Fields) : List Json :=
  (match get response "citations" with
    | .array citations => citations.map fun
      | .object fields => get fields "url"
      | v => v
    | _ => []) ++
  match get response "output" with
    | .array items => items.flatMap itemProvenance
    | _ => []

/-- The URLs that the service has written into a response. -/
def provenanceUrls (response : Fields) : List Str :=
  (provenance response).filterMap fun
    | .str s => if Py.Blank s then none else some s
    | _ => none

/-- `_normalize_url`, where `none` is a `ValueError`. -/
def normalizeUrl (t : Url.Tables) (url : Str) : Option Str :=
  (urlparse t url).map fun parsed ↦
    t.casing.lower parsed.scheme ++ lit "://" ++ t.casing.lower parsed.netloc ++
      parsed.path.rdropWhile (· = 47) ++ [63] ++ parsed.query

/-- A normal form, or the `ValueError` of the parser. -/
def requireNormal (t : Url.Tables) (url : Str) : Except ProviderFailure Str :=
  match normalizeUrl t url with
  | some normal => .ok normal
  | none => .error (.raised (.valueError "Invalid URL"))

/-- `_trusted_citations`: the normal forms and the URLs, in the order in which they are set. -/
def trustedCitations (t : Url.Tables) (response : Fields) :
    Except ProviderFailure (List (Str × Str)) :=
  (provenanceUrls response).mapM fun url ↦ do
    let normal ← requireNormal t url
    .ok (normal, url)

/-- `trusted.get(normal)`: the last value of a key counts. -/
def trustedUrl (trusted : List (Str × Str)) (normal : Str) : Option Str :=
  (trusted.reverse.find? (·.1 = normal)).map Prod.snd

/-! ## Results -/

/-- `GrokResearchWebEvidence` -/
structure ResearchEvidence where
  id : UUID
  url : Str
  title : Str
  domain : Str
  accessedAt : Timestamp
  snippetHash : Str

/-- `GrokResearchFactCheck` -/
structure ResearchFactCheck where
  sourceAnchorId : UUID
  sourceClaimQuote : Str
  verdict : Verdict
  explanation : Str
  webEvidenceIds : List UUID

/-- `GrokResearchResult`, whose topic items are always none. -/
structure ResearchFindings where
  snapshotId : UUID
  factChecks : List ResearchFactCheck
  webEvidence : List ResearchEvidence

/-- What a run of the provider depends on. -/
structure ResearchEnv where
  tables : Url.Tables
  /-- `\w` -/
  word : CodePoint → Bool
  /-- The nesting that `json.loads` can follow. -/
  limit : ℕ
  uuid5 : UUID → Str → UUID
  snapshotId : UUID
  /-- `datetime.now` when an evidence is built after others. -/
  now : ℕ → Timestamp

namespace ResearchEnv

variable (env : ResearchEnv)

/-- The name of which the id of a page is derived. -/
def webName (url : Str) : Str := lit "grok-web:" ++ url

def webId (url : Str) : UUID := env.uuid5 env.snapshotId (webName url)

/-- The evidence of a page, after others: a lone surrogate has no encoding. -/
def evidence (seen : ℕ) (url title : Str) : Except ProviderFailure ResearchEvidence := do
  require (Scalar url) (.raised .unicodeEncodeError)
  match urlparse env.tables url with
  | none => .error (.raised (.valueError "Invalid URL"))
  | some parsed =>
    .ok ⟨env.webId url, url, title, if parsed.netloc = [] then url else parsed.netloc, env.now seen,
      sha256Hex (encodeUtf8 url)⟩

def gapDigest : Str := sha256Hex (encodeUtf8 (uuidText env.snapshotId ++ lit ":no-grounded-source"))

/-- The placeholder for missing evidence. -/
def gap : ResearchEvidence :=
  ⟨env.uuid5 env.snapshotId (lit "grok-web-gap"),
    lit "https://fixtures.invalid/evidence/grok-gap/" ++ env.gapDigest,
    lit "웹 검색으로 확인 가능한 근거 없음", lit "fixtures.invalid", env.now 0, env.gapDigest⟩

end ResearchEnv

/-- What a finding gets when it cites a page that the service did not name. -/
@[irreducible] def untrustedExplanation : Str :=
  lit "웹 검색 출처 provenance를 서버 응답에서 확인할 수 없어 검증 의심 항목으로 처리했습니다."

/-! ## Reading the findings -/

/-- The local variables of the loop over the sources of a finding. -/
structure Citing where
  evidence : List ResearchEvidence
  ids : List UUID
  hasUntrustedSource : Bool

/-- The URL and the title of a source. -/
def readSource (raw : Json) : Except ProviderFailure (Str × Str) := do
  let source ← mapping "web source" raw
  require (ExactKeys ["url", "title"] source) (.grok "grok_research_malformed_output" false)
  let url ← nonblankText "web source url" (get source "url")
  let title ← nonblankText "web source title" (get source "title")
  .ok (url, title)

/-- One turn of the loop over the sources. -/
def citeSource (env : ResearchEnv) (trusted : List (Str × Str)) (s : Citing) (raw : Json) :
    Except ProviderFailure Citing := do
  let source ← readSource raw
  let normal ← requireNormal env.tables source.1
  match trustedUrl trusted normal with
  | none => .ok { s with hasUntrustedSource := true }
  | some url =>
    match s.evidence.find? (·.url = url) with
    | some found => .ok { s with ids := s.ids ++ [found.id] }
    | none => do
      let evidence ← env.evidence s.evidence.length url source.2
      .ok { s with evidence := s.evidence ++ [evidence], ids := s.ids ++ [evidence.id] }

def Verdict.all : List Verdict := [.supported, .refuted, .mixed, .unverifiable]

/-- The verdict of a finding: a list or a dict cannot be looked up in a set. -/
def readVerdict (v : Json) : Except ProviderFailure Verdict :=
  if v.Unhashable then .error (.raised .typeError)
  else match Verdict.all.find? fun verdict ↦ EqStr (lit verdict.value) v with
    | some verdict => .ok verdict
    | none => .error (.grok "grok_research_malformed_output" false)

/-- `_known_anchor_id`, with the anchor. -/
def knownAnchor (anchors : List RuntimeSourceAnchor) (v : Json) :
    Except ProviderFailure RuntimeSourceAnchor := do
  let raw ← nonblankText "source anchor ID" v
  match anchors.find? (uuidText ·.id = raw) with
  | some anchor => .ok anchor
  | none => .error (.grok "grok_research_foreign_anchor" false)

/-- The local variables of the loop over the findings. -/
structure Checking where
  evidence : List ResearchEvidence
  factChecks : List ResearchFactCheck

def findingKeys : List String :=
  ["source_anchor_id", "source_claim_quote", "verdict", "explanation", "web_sources"]

/-- One turn of the loop over the findings. -/
def checkFinding (env : ResearchEnv) (anchors : List RuntimeSourceAnchor)
    (trusted : List (Str × Str)) (s : Checking) (raw : Json) :
    Except ProviderFailure Checking := do
  let finding ← mapping "finding" raw
  require (ExactKeys findingKeys finding) (.grok "grok_research_malformed_output" false)
  let anchor ← knownAnchor anchors (get finding "source_anchor_id")
  let quote ← nonblankText "finding quote" (get finding "source_claim_quote")
  require ((find quote anchor.exactQuote).isSome = true)
    (.grok "grok_research_quote_mismatch" false)
  let verdict ← readVerdict (get finding "verdict")
  let explanation ← nonblankText "finding explanation" (get finding "explanation")
  let sources ← listing "web sources" (get finding "web_sources")
  let citing ← sources.foldlM (citeSource env trusted) ⟨s.evidence, [], false⟩
  .ok ⟨citing.evidence, s.factChecks ++
    [if citing.hasUntrustedSource then
      ⟨anchor.id, quote, .unverifiable, untrustedExplanation, []⟩
    else ⟨anchor.id, quote, verdict, explanation, citing.ids⟩]⟩

/-- The document that the model has written. -/
def outputRoot (limit : ℕ) (response : Fields) : Except ProviderFailure Fields := do
  require (EqStr (lit "completed") (get response "status"))
    (.grok "grok_research_incomplete_response" true)
  let outputText ← responseOutputText response
  let document ← loadsOutput limit (.grok "grok_research_malformed_output" false) outputText
  let root ← mapping "grok research output" document
  require (ExactKeys ["findings"] root) (.grok "grok_research_malformed_output" false)
  .ok root

/-- `_result_from_response` -/
def resultFromResponse (env : ResearchEnv) (anchors : List RuntimeSourceAnchor) (response : Fields) :
    Except ProviderFailure ResearchFindings := do
  let root ← outputRoot env.limit response
  let trusted ← trustedCitations env.tables response
  let findings ← listing "findings" (get root "findings")
  let checked ← findings.foldlM (checkFinding env anchors trusted) ⟨[], []⟩
  let webEvidence :=
    if checked.factChecks ≠ [] ∧ checked.evidence = [] then [env.gap] else checked.evidence
  .ok ⟨env.snapshotId, checked.factChecks, webEvidence⟩

/-- `_validate_research_anchors` -/
def validateResearchAnchors (word : CodePoint → Bool) (anchors : List RuntimeSourceAnchor) :
    Except ProviderFailure Unit := do
  require (anchors ≠ [] ∧ anchors.length ≤ 150) (.grok "grok_research_invalid_anchor_count" false)
  let _ ← anchors.foldlM (fun (ids : List UUID) anchor ↦ do
    require (anchor.id ∉ ids) (.grok "grok_research_duplicate_anchor" false)
    require (isInstructionLikeContent word anchor.exactQuote = false)
      (.grok "grok_research_source_prompt_injection" false)
    .ok (anchor.id :: ids)) []
  .ok ()

/-- `generate_research`, for what the transport answers. -/
def generateResearch (env : ResearchEnv) (anchors : List RuntimeSourceAnchor) (response : Fields) :
    Except ProviderFailure ResearchFindings := do
  validateResearchAnchors env.word anchors
  resultFromResponse env anchors response

/-! ## What the findings become -/

/-- The sources of a finding. -/
def findingSources : Json → List Json
  | .object finding =>
    match get finding "web_sources" with
    | .array sources => sources
    | _ => []
  | _ => []

section Findings

variable (env : ResearchEnv) (trusted : List (Str × Str))

/-- The URL of the service for a source, with the title of the source. -/
def trustedPage (raw : Json) : Option (Str × Str) :=
  match readSource raw with
  | .ok source =>
    ((normalizeUrl env.tables source.1).bind (trustedUrl trusted)).map fun url ↦ (url, source.2)
  | .error _ => none

def trustedPages (raw : Json) : List (Str × Str) :=
  (findingSources raw).filterMap (trustedPage env trusted)

/-- A finding cites a page that the service did not name. -/
def Untrusted (raw : Json) : Prop :=
  (findingSources raw).any (fun source ↦ (trustedPage env trusted source).isNone) = true

instance : DecidablePred (Untrusted env trusted) := fun raw ↦
  inferInstanceAs (Decidable
    ((findingSources raw).any (fun source ↦ (trustedPage env trusted source).isNone) = true))

/-- The evidence of some pages. -/
def EvidenceOf (pages : List (Str × Str)) (evidence : List ResearchEvidence) : Prop :=
  List.Forall₂ (fun page e ↦ ∃ n, env.evidence n page.1 page.2 = .ok e) pages evidence

/-- What a finding is checked to be, and what becomes of it. -/
structure CheckedFinding (anchors : List RuntimeSourceAnchor) (raw : Json)
    (check : ResearchFactCheck) : Prop where
  object : ∃ finding, raw = .object finding ∧ ∃ anchor ∈ anchors,
    get finding "source_anchor_id" = .str (uuidText anchor.id) ∧
    check.sourceAnchorId = anchor.id ∧
    get finding "source_claim_quote" = .str check.sourceClaimQuote ∧
    check.sourceClaimQuote <:+: anchor.exactQuote ∧
    (¬Untrusted env trusted raw → get finding "verdict" = .str (lit check.verdict.value) ∧
      get finding "explanation" = .str check.explanation)
  quote : ¬Py.Blank check.sourceClaimQuote
  explanation : ¬Py.Blank check.explanation
  grounded : ¬Untrusted env trusted raw →
    check.webEvidenceIds = (trustedPages env trusted raw).map (env.webId ·.1)
  ungrounded : Untrusted env trusted raw → check.verdict = .unverifiable ∧
    check.explanation = untrustedExplanation ∧ check.webEvidenceIds = []

end Findings

section Readers

variable {label : String} {v : Json}

theorem mapping_eq_ok {fields : Fields} : mapping label v = .ok fields ↔ v = .object fields := by
  cases v <;> simp [mapping]

theorem listing_eq_ok {items : List Json} : listing label v = .ok items ↔ v = .array items := by
  cases v <;> simp [listing]

theorem nonblankText_eq_ok {s : Str} :
    nonblankText label v = .ok s ↔ v = .str s ∧ ¬Py.Blank s := by
  cases v with
  | str t =>
    rw [nonblankText]
    split
    · next h => simpa using fun heq ↦ heq ▸ h
    · next h => simpa using fun heq ↦ heq ▸ h
  | _ => simp [nonblankText]

theorem readVerdict_eq_ok {verdict : Verdict} (h : readVerdict v = .ok verdict) :
    v = .str (lit verdict.value) := by
  rw [readVerdict] at h
  split at h
  · exact nomatch h
  · split at h
    · next found hfound =>
      rw [← Except.ok.inj h]
      exact eqStr_iff.mp (of_decide_eq_true (List.find?_some hfound :))
    · exact nomatch h

theorem knownAnchor_eq_ok {anchors : List RuntimeSourceAnchor} {anchor : RuntimeSourceAnchor}
    (h : knownAnchor anchors v = .ok anchor) : anchor ∈ anchors ∧ v = .str (uuidText anchor.id) := by
  obtain ⟨raw, hraw, hfind⟩ := bind_eq_ok.mp h
  obtain ⟨hstr, -⟩ := nonblankText_eq_ok.mp hraw
  split at hfind
  · next found hfound =>
    rw [← Except.ok.inj hfind, hstr]
    exact ⟨List.mem_of_find?_eq_some hfound,
      congrArg Json.str (of_decide_eq_true (List.find?_some hfound :)).symm⟩
  · exact nomatch hfind

end Readers

/-! ### Provenance -/

section Provenance

variable {t : Url.Tables} {response : Fields} {trusted : List (Str × Str)}

theorem requireNormal_eq_ok {url normal : Str} :
    requireNormal t url = .ok normal ↔ normalizeUrl t url = some normal := by
  rw [requireNormal]
  split
  · next h => rw [h, Except.ok.injEq, Option.some.injEq]
  · next h => simp [h]

theorem mem_trustedCitations (h : trustedCitations t response = .ok trusted) {p : Str × Str} :
    p ∈ trusted ↔ p.2 ∈ provenanceUrls response ∧ normalizeUrl t p.2 = some p.1 := by
  have hpair : ∀ {url : Str} {p : Str × Str},
      (requireNormal t url >>= fun normal ↦ (.ok (normal, url) : Except ProviderFailure _)) = .ok p ↔
        normalizeUrl t url = some p.1 ∧ url = p.2 := by
    intro url p
    rw [bind_eq_ok]
    constructor
    · rintro ⟨normal, hnormal, heq⟩
      rw [← Except.ok.inj heq]
      exact ⟨requireNormal_eq_ok.mp hnormal, rfl⟩
    · rintro ⟨hnormal, rfl⟩
      exact ⟨p.1, requireNormal_eq_ok.mpr hnormal, rfl⟩
  constructor
  · intro hp
    obtain ⟨url, hurl, hstep⟩ := exists_of_mem_mapM h hp
    obtain ⟨hnormal, rfl⟩ := hpair.mp hstep
    exact ⟨hurl, hnormal⟩
  · rintro ⟨hurl, hnormal⟩
    obtain ⟨q, hq, hstep⟩ := exists_mem_mapM h hurl
    have hsame : p = q := by
      obtain ⟨hq1, hq2⟩ := hpair.mp hstep
      exact Prod.ext (Option.some.inj (hnormal.symm.trans hq1)) hq2
    exact hsame ▸ hq

/-- A URL that is found is one of the service, and has the normal form. -/
theorem trustedUrl_eq_some (h : trustedCitations t response = .ok trusted) {normal url : Str}
    (hurl : trustedUrl trusted normal = some url) :
    url ∈ provenanceUrls response ∧ normalizeUrl t url = some normal := by
  obtain ⟨p, hp, rfl⟩ := Option.map_eq_some_iff.mp hurl
  obtain rfl := of_decide_eq_true (List.find?_some hp :)
  exact (mem_trustedCitations h).mp (List.mem_reverse.mp (List.mem_of_find?_eq_some hp))

end Provenance

/-! ### The loops -/

section Loops

variable {env : ResearchEnv} {trusted : List (Str × Str)} {pages : List (Str × Str)}
  {evidence : List ResearchEvidence}

theorem evidence_eq_ok {n : ℕ} {url title : Str} {e : ResearchEvidence}
    (h : env.evidence n url title = .ok e) : e.url = url ∧ e.id = env.webId url := by
  obtain ⟨-, h⟩ := require_bind_eq_ok.mp h
  split at h
  · exact nomatch h
  · rw [← Except.ok.inj h]
    exact ⟨rfl, rfl⟩

theorem EvidenceOf.urls (h : EvidenceOf env pages evidence) :
    evidence.map (·.url) = pages.map Prod.fst := by
  induction h with
  | nil => rfl
  | cons hpage _ ih =>
    obtain ⟨n, hn⟩ := hpage
    rw [List.map_cons, List.map_cons, ih, (evidence_eq_ok hn).1]

theorem EvidenceOf.exists_mem (h : EvidenceOf env pages evidence) {e : ResearchEvidence}
    (he : e ∈ evidence) : ∃ page ∈ pages, ∃ n, env.evidence n page.1 page.2 = .ok e := by
  induction h with
  | nil => exact absurd he List.not_mem_nil
  | cons hpage _ ih =>
    rcases List.mem_cons.mp he with rfl | he
    · exact ⟨_, List.mem_cons_self, hpage⟩
    · obtain ⟨page, hmem, hn⟩ := ih he
      exact ⟨page, List.mem_cons_of_mem _ hmem, hn⟩

theorem EvidenceOf.concat (h : EvidenceOf env pages evidence) {page : Str × Str}
    {e : ResearchEvidence} {n : ℕ} (he : env.evidence n page.1 page.2 = .ok e) :
    EvidenceOf env (pages ++ [page]) (evidence ++ [e]) :=
  List.rel_append h (.cons ⟨n, he⟩ .nil)

/-- One source is dropped, found among the evidence, or registered. -/
theorem citeSource_eq_ok {s s' : Citing} {raw : Json}
    (h : citeSource env trusted s raw = .ok s') :
    (trustedPage env trusted raw = none ∧ s' = { s with hasUntrustedSource := true }) ∨
    ∃ page, trustedPage env trusted raw = some page ∧
      ((∃ e ∈ s.evidence, e.url = page.1 ∧ s' = { s with ids := s.ids ++ [e.id] }) ∨
        (page.1 ∉ s.evidence.map (·.url) ∧ ∃ e n, env.evidence n page.1 page.2 = .ok e ∧
          s' = { s with evidence := s.evidence ++ [e], ids := s.ids ++ [e.id] })) := by
  obtain ⟨source, hsource, h⟩ := bind_eq_ok.mp h
  obtain ⟨normal, hnormal, h⟩ := bind_eq_ok.mp h
  rw [requireNormal_eq_ok] at hnormal
  have hpage : trustedPage env trusted raw =
      (trustedUrl trusted normal).map fun url ↦ (url, source.2) := by
    rw [trustedPage, hsource]
    dsimp only
    rw [hnormal, Option.bind_some]
  split at h
  · next hnone =>
    rw [hnone] at hpage
    exact .inl ⟨hpage, (Except.ok.inj h).symm⟩
  · next url hsome =>
    rw [hsome] at hpage
    refine .inr ⟨_, hpage, ?_⟩
    split at h
    · next e hfound =>
      exact .inl ⟨e, List.mem_of_find?_eq_some hfound, of_decide_eq_true (List.find?_some hfound :),
        (Except.ok.inj h).symm⟩
    · next hnew =>
      obtain ⟨e, he, h⟩ := bind_eq_ok.mp h
      refine .inr ⟨fun hmem ↦ ?_, e, _, he, (Except.ok.inj h).symm⟩
      obtain ⟨e', he', hurl⟩ := List.mem_map.mp hmem
      exact List.find?_eq_none.mp hnew e' he' (decide_eq_true hurl)

/-- What the loop over the sources has done. -/
structure Cites (env : ResearchEnv) (trusted total : List (Str × Str)) (done : List Json)
    (s : Citing) : Prop where
  ids : s.ids = (done.filterMap (trustedPage env trusted)).map (env.webId ·.1)
  untrusted : s.hasUntrustedSource =
    done.any fun source ↦ (trustedPage env trusted source).isNone
  evidence : EvidenceOf env (firsts Prod.fst (total ++ done.filterMap (trustedPage env trusted)))
    s.evidence

theorem Cites.step {total : List (Str × Str)} {done : List Json} {s s' : Citing} {raw : Json}
    (hs : Cites env trusted total done s) (h : citeSource env trusted s raw = .ok s') :
    Cites env trusted total (done ++ [raw]) s' := by
  rcases citeSource_eq_ok h with ⟨hnone, rfl⟩ | ⟨page, hpage, hcase⟩
  · have hfilter : (done ++ [raw]).filterMap (trustedPage env trusted) =
        done.filterMap (trustedPage env trusted) := by
      rw [List.filterMap_append, List.filterMap_cons_none hnone, List.filterMap_nil, List.append_nil]
    refine ⟨by rw [hfilter]; exact hs.ids, ?_, by rw [hfilter]; exact hs.evidence⟩
    simp [hnone]
  · have hfilter : (done ++ [raw]).filterMap (trustedPage env trusted) =
        done.filterMap (trustedPage env trusted) ++ [page] := by
      rw [List.filterMap_append, List.filterMap_cons_some hpage, List.filterMap_nil]
    have hany : (done ++ [raw]).any (fun source ↦ (trustedPage env trusted source).isNone) =
        done.any fun source ↦ (trustedPage env trusted source).isNone := by
      simp [hpage]
    have hkeys : s.evidence.map (·.url) =
        (firsts Prod.fst (total ++ done.filterMap (trustedPage env trusted))).map Prod.fst :=
      hs.evidence.urls
    rcases hcase with ⟨e, he, hurl, rfl⟩ | ⟨hnew, e, n, he, rfl⟩
    · have hold : page.1 ∈
          (firsts Prod.fst (total ++ done.filterMap (trustedPage env trusted))).map Prod.fst := by
        rw [← hkeys, ← hurl]
        exact List.mem_map_of_mem he
      obtain ⟨_, -, n, hn⟩ := hs.evidence.exists_mem he
      obtain ⟨hurl', hid⟩ := evidence_eq_ok hn
      refine ⟨?_, by rw [hany]; exact hs.untrusted, ?_⟩
      · rw [hfilter, List.map_append, ← hs.ids, List.map_singleton, hid, ← hurl', hurl]
      · rw [hfilter, ← List.append_assoc, firsts_concat, if_pos hold]
        exact hs.evidence
    · rw [hkeys] at hnew
      refine ⟨?_, by rw [hany]; exact hs.untrusted, ?_⟩
      · rw [hfilter, List.map_append, ← hs.ids, List.map_singleton, (evidence_eq_ok he).2]
      · rw [hfilter, ← List.append_assoc, firsts_concat, if_neg hnew]
        exact hs.evidence.concat he

theorem Cites.run {total : List (Str × Str)} {sources : List Json} {s s' : Citing}
    (hs : Cites env trusted total [] s)
    (h : sources.foldlM (citeSource env trusted) s = .ok s') :
    Cites env trusted total sources s' :=
  foldlM_invariant (Cites env trusted total) h hs fun _ _ _ _ hdone hstep ↦ hdone.step hstep

/-- What the loop over the findings has done. -/
structure Checks (env : ResearchEnv) (anchors : List RuntimeSourceAnchor)
    (trusted : List (Str × Str)) (done : List Json) (s : Checking) : Prop where
  checks : List.Forall₂ (CheckedFinding env trusted anchors) done s.factChecks
  evidence : EvidenceOf env (firsts Prod.fst (done.flatMap (trustedPages env trusted))) s.evidence

theorem untrustedExplanation_not_blank : ¬Py.Blank untrustedExplanation := by
  decide +kernel

theorem Checks.step {anchors : List RuntimeSourceAnchor} {done : List Json} {s s' : Checking}
    {raw : Json} (hs : Checks env anchors trusted done s)
    (h : checkFinding env anchors trusted s raw = .ok s') :
    Checks env anchors trusted (done ++ [raw]) s' := by
  obtain ⟨finding, hfinding, h⟩ := bind_eq_ok.mp h
  obtain rfl := mapping_eq_ok.mp hfinding
  obtain ⟨-, h⟩ := require_bind_eq_ok.mp h
  obtain ⟨anchor, hanchor, h⟩ := bind_eq_ok.mp h
  obtain ⟨hmem, hid⟩ := knownAnchor_eq_ok hanchor
  obtain ⟨quote, hquote, h⟩ := bind_eq_ok.mp h
  obtain ⟨hquoteText, hquoteBlank⟩ := nonblankText_eq_ok.mp hquote
  obtain ⟨hfound, h⟩ := require_bind_eq_ok.mp h
  obtain ⟨verdict, hverdict, h⟩ := bind_eq_ok.mp h
  obtain ⟨explanation, hexplanation, h⟩ := bind_eq_ok.mp h
  obtain ⟨hexplanationText, hexplanationBlank⟩ := nonblankText_eq_ok.mp hexplanation
  obtain ⟨sources, hsources, h⟩ := bind_eq_ok.mp h
  obtain ⟨citing, hciting, h⟩ := bind_eq_ok.mp h
  have hread : findingSources (.object finding) = sources := by
    rw [findingSources, listing_eq_ok.mp hsources]
  have hstart : Cites env trusted (done.flatMap (trustedPages env trusted)) []
      ⟨s.evidence, [], false⟩ := by
    refine ⟨rfl, rfl, ?_⟩
    rw [List.filterMap_nil, List.append_nil]
    exact hs.evidence
  have hcites := hstart.run hciting
  have hpages : (done ++ [Json.object finding]).flatMap (trustedPages env trusted) =
      done.flatMap (trustedPages env trusted) ++ sources.filterMap (trustedPage env trusted) := by
    rw [List.flatMap_append, List.flatMap_singleton, trustedPages, hread]
  have huntrusted : Untrusted env trusted (.object finding) ↔ citing.hasUntrustedSource = true := by
    rw [Untrusted, hread, hcites.untrusted]
  rw [← Except.ok.inj h]
  refine ⟨List.rel_append hs.checks (.cons ?_ .nil), by rw [hpages]; exact hcites.evidence⟩
  split
  · next htrue =>
    have hyes := huntrusted.mpr htrue
    refine ⟨⟨finding, rfl, anchor, hmem, hid, rfl, hquoteText, find_isSome.mp hfound,
      fun hno ↦ absurd hyes hno⟩, hquoteBlank, ?_, fun hno ↦ absurd hyes hno,
      fun _ ↦ ⟨rfl, rfl, rfl⟩⟩
    dsimp only
    exact untrustedExplanation_not_blank
  · next hfalse =>
    have hno : ¬Untrusted env trusted (.object finding) := fun hyes ↦ hfalse (huntrusted.mp hyes)
    refine ⟨⟨finding, rfl, anchor, hmem, hid, rfl, hquoteText, find_isSome.mp hfound,
      fun _ ↦ ⟨readVerdict_eq_ok hverdict, hexplanationText⟩⟩, hquoteBlank, hexplanationBlank,
      fun _ ↦ ?_, fun hyes ↦ absurd hyes hno⟩
    dsimp only
    rw [hcites.ids, trustedPages, hread]

end Loops

/-! ## The result -/

/-- What the provider returns for a response. -/
structure ResearchOf (env : ResearchEnv) (anchors : List RuntimeSourceAnchor) (response : Fields)
    (findings : List Json) (trusted : List (Str × Str)) (result : ResearchFindings) : Prop where
  distinct : (anchors.map (·.id)).Nodup
  root : ∃ root, outputRoot env.limit response = .ok root ∧ get root "findings" = .array findings
  provenance : trustedCitations env.tables response = .ok trusted
  snapshot : result.snapshotId = env.snapshotId
  checks : List.Forall₂ (CheckedFinding env trusted anchors) findings result.factChecks
  evidence : ∃ evidence,
    EvidenceOf env (firsts Prod.fst (findings.flatMap (trustedPages env trusted))) evidence ∧
    result.webEvidence =
      if findings ≠ [] ∧ findings.flatMap (trustedPages env trusted) = [] then [env.gap]
      else evidence

section Result

variable {env : ResearchEnv} {anchors : List RuntimeSourceAnchor} {response : Fields}
  {result : ResearchFindings}

theorem nodup_of_validateResearchAnchors {word : CodePoint → Bool}
    (h : validateResearchAnchors word anchors = .ok ()) : (anchors.map (·.id)).Nodup := by
  obtain ⟨-, h⟩ := require_bind_eq_ok.mp h
  obtain ⟨ids, hids, -⟩ := bind_eq_ok.mp h
  have hloop := foldlM_invariant (fun (done : List RuntimeSourceAnchor) (ids : List UUID) ↦
    (done.map (·.id)).Nodup ∧ ∀ id, id ∈ ids ↔ id ∈ done.map (·.id)) hids
    ⟨List.nodup_nil, fun _ ↦ Iff.rfl⟩ ?_
  · exact hloop.1
  · rintro done anchor ids ids' ⟨hnodup, hmem⟩ hstep
    obtain ⟨hnew, hstep⟩ := require_bind_eq_ok.mp hstep
    obtain ⟨-, hstep⟩ := require_bind_eq_ok.mp hstep
    rw [← Except.ok.inj hstep, List.map_append, List.map_singleton]
    refine ⟨List.nodup_append.mpr ⟨hnodup, List.nodup_singleton _, ?_⟩, fun id ↦ ?_⟩
    · rintro a ha b hb rfl
      rw [List.mem_singleton.mp hb] at ha
      exact hnew ((hmem _).mpr ha)
    · rw [List.mem_cons, List.mem_append, List.mem_singleton, hmem, or_comm]

theorem firsts_eq_nil {xs : List (Str × Str)} : firsts Prod.fst xs = [] ↔ xs = [] := by
  induction xs using List.reverseRecOn with
  | nil => exact Iff.rfl
  | append_singleton xs x ih =>
    rw [firsts_concat]
    split
    · next hseen =>
      refine iff_of_false (fun hnil ↦ ?_) (by simp)
      rw [hnil] at hseen
      exact absurd hseen List.not_mem_nil
    · simp

/-- **What the provider returns.** -/
theorem generateResearch_eq_ok (h : generateResearch env anchors response = .ok result) :
    ∃ findings trusted, ResearchOf env anchors response findings trusted result := by
  obtain ⟨⟨⟩, hvalid, h⟩ := bind_eq_ok.mp h
  obtain ⟨root, hroot, h⟩ := bind_eq_ok.mp h
  obtain ⟨trusted, htrusted, h⟩ := bind_eq_ok.mp h
  obtain ⟨findings, hfindings, h⟩ := bind_eq_ok.mp h
  obtain ⟨checked, hchecked, h⟩ := bind_eq_ok.mp h
  have hloop : Checks env anchors trusted findings checked :=
    foldlM_invariant (Checks env anchors trusted) hchecked ⟨.nil, .nil⟩
      fun _ _ _ _ hdone hstep ↦ hdone.step hstep
  have hchecks : checked.factChecks = [] ↔ findings = [] := by
    rw [← List.length_eq_zero_iff, ← hloop.checks.length_eq, List.length_eq_zero_iff]
  have hevidence : checked.evidence = [] ↔ findings.flatMap (trustedPages env trusted) = [] := by
    rw [← List.length_eq_zero_iff, ← hloop.evidence.length_eq, List.length_eq_zero_iff, firsts_eq_nil]
  rw [← Except.ok.inj h]
  refine ⟨findings, trusted, nodup_of_validateResearchAnchors hvalid,
    ⟨root, hroot, listing_eq_ok.mp hfindings⟩, htrusted, rfl, hloop.checks, checked.evidence,
    hloop.evidence, ?_⟩
  simp only [ne_eq, hchecks, hevidence]

end Result

/-! ## Provenance -/

/-- A finding cites a URL whose normal form is that of no URL of the service. -/
def CitesForeign (t : Url.Tables) (response : Fields) (raw : Json) : Prop :=
  ∃ source ∈ findingSources raw, ∃ fields, source = .object fields ∧ ∃ url,
    get fields "url" = .str url ∧ ∀ u ∈ provenanceUrls response, normalizeUrl t u ≠ normalizeUrl t url

section Provenance

variable {env : ResearchEnv} {anchors : List RuntimeSourceAnchor} {response : Fields}
  {trusted : List (Str × Str)}

theorem readSource_url {fields : Fields} {url : Str} (hurl : get fields "url" = .str url)
    {source : Str × Str} (h : readSource (.object fields) = .ok source) : source.1 = url := by
  obtain ⟨_, hfields, h⟩ := bind_eq_ok.mp h
  obtain rfl := Json.object.inj (mapping_eq_ok.mp hfields)
  obtain ⟨-, h⟩ := require_bind_eq_ok.mp h
  obtain ⟨url', hurl', h⟩ := bind_eq_ok.mp h
  obtain ⟨title, -, h⟩ := bind_eq_ok.mp h
  rw [← Except.ok.inj h]
  exact Json.str.inj ((nonblankText_eq_ok.mp hurl').1.symm.trans hurl)

theorem trustedPage_eq_some (h : trustedCitations env.tables response = .ok trusted) {raw : Json}
    {page : Str × Str} (hpage : trustedPage env trusted raw = some page) :
    page.1 ∈ provenanceUrls response ∧ ∃ source, readSource raw = .ok source ∧
      page.2 = source.2 ∧ normalizeUrl env.tables page.1 = normalizeUrl env.tables source.1 := by
  rw [trustedPage] at hpage
  split at hpage
  · next source hsource =>
    obtain ⟨url, hurl, rfl⟩ := Option.map_eq_some_iff.mp hpage
    obtain ⟨normal, hnormal, hurl⟩ := Option.bind_eq_some_iff.mp hurl
    obtain ⟨hmem, hsame⟩ := trustedUrl_eq_some h hurl
    exact ⟨hmem, source, hsource, rfl, hsame.trans hnormal.symm⟩
  · exact nomatch hpage

/-- The pages of the findings are pages of the service. -/
theorem mem_trustedPages (h : trustedCitations env.tables response = .ok trusted)
    {findings : List Json} {page : Str × Str}
    (hpage : page ∈ findings.flatMap (trustedPages env trusted)) :
    page.1 ∈ provenanceUrls response := by
  obtain ⟨raw, -, hpage⟩ := List.mem_flatMap.mp hpage
  obtain ⟨source, -, hsource⟩ := List.mem_filterMap.mp hpage
  exact (trustedPage_eq_some h hsource).1

theorem untrusted_of_citesForeign (h : trustedCitations env.tables response = .ok trusted)
    {raw : Json} (hforeign : CitesForeign env.tables response raw) : Untrusted env trusted raw := by
  obtain ⟨_, hmem, fields, rfl, url, hurl, hnone⟩ := hforeign
  refine List.any_eq_true.mpr ⟨_, hmem, Option.isNone_iff_eq_none.mpr ?_⟩
  refine Option.eq_none_iff_forall_ne_some.mpr fun page hpage ↦ ?_
  obtain ⟨hserved, source, hsource, -, hsame⟩ := trustedPage_eq_some h hpage
  exact hnone page.1 hserved (hsame.trans (congrArg _ (readSource_url hurl hsource)))

theorem EvidenceOf.ids {pages : List (Str × Str)} {evidence : List ResearchEvidence}
    (h : EvidenceOf env pages evidence) : evidence.map (·.id) = pages.map (env.webId ·.1) := by
  induction h with
  | nil => rfl
  | cons hpage _ ih =>
    obtain ⟨n, hn⟩ := hpage
    rw [List.map_cons, List.map_cons, ih, (evidence_eq_ok hn).2]

/-- The ids of different pages differ. -/
theorem EvidenceOf.nodup {pages : List (Str × Str)} {evidence : List ResearchEvidence}
    (h : EvidenceOf env (firsts Prod.fst pages) evidence)
    (huuid5 : ∀ p ∈ pages, ∀ q ∈ pages, env.webId p.1 = env.webId q.1 → p.1 = q.1) :
    (evidence.map (·.id)).Nodup := by
  rw [h.ids, ← Function.comp_def env.webId Prod.fst, ← List.map_map]
  refine (nodup_map_firsts Prod.fst pages).map_on fun u hu v hv ↦ ?_
  obtain ⟨p, hp, rfl⟩ := List.mem_map.mp (mem_map_firsts.mp hu)
  obtain ⟨q, hq, rfl⟩ := List.mem_map.mp (mem_map_firsts.mp hv)
  exact huuid5 p hp q hq

end Provenance

/-- **Research provenance.** The evidence of a result is from pages that the service has named, or it is
the one placeholder; a finding that cites any other page keeps neither its sources nor its verdict. -/
theorem research_provenance {env : ResearchEnv} {anchors : List RuntimeSourceAnchor}
    {response : Fields} {result : ResearchFindings}
    (huuid5 : ∀ u ∈ provenanceUrls response, ∀ v ∈ provenanceUrls response,
      env.webId u = env.webId v → u = v)
    (h : generateResearch env anchors response = .ok result) :
    ((∀ e ∈ result.webEvidence, e.url ∈ provenanceUrls response) ∨ result.webEvidence = [env.gap]) ∧
      (result.webEvidence.map (·.id)).Nodup ∧
      (∃ root findings, outputRoot env.limit response = .ok root ∧
        get root "findings" = .array findings ∧
        List.Forall₂ (fun raw (check : ResearchFactCheck) ↦
          (∀ id ∈ check.webEvidenceIds, id ∈ result.webEvidence.map (·.id)) ∧
          (∃ anchor ∈ anchors, anchor.id = check.sourceAnchorId ∧
            check.sourceClaimQuote <:+: anchor.exactQuote) ∧
          (CitesForeign env.tables response raw → check.verdict = .unverifiable ∧
            check.webEvidenceIds = [] ∧ check.explanation = untrustedExplanation))
          findings result.factChecks) ∧
      (result.factChecks ≠ [] → result.webEvidence ≠ []) := by
  obtain ⟨findings, trusted, hresult⟩ := generateResearch_eq_ok h
  obtain ⟨root, hroot, hfindings⟩ := hresult.root
  obtain ⟨evidence, hevidence, hweb⟩ := hresult.evidence
  have hserved : ∀ p ∈ findings.flatMap (trustedPages env trusted), p.1 ∈ provenanceUrls response :=
    fun p hp ↦ mem_trustedPages hresult.provenance hp
  have hids : ∀ p ∈ findings.flatMap (trustedPages env trusted),
      env.webId p.1 ∈ result.webEvidence.map (·.id) := by
    intro p hp
    rw [hweb, if_neg fun hgap ↦ List.ne_nil_of_mem hp hgap.2, hevidence.ids,
      ← Function.comp_def env.webId Prod.fst, ← List.map_map]
    exact List.mem_map_of_mem (mem_map_firsts.mpr (List.mem_map_of_mem hp))
  refine ⟨?_, ?_, ⟨root, findings, hroot, hfindings, ?_⟩, fun hchecks ↦ ?_⟩
  · rw [hweb]
    split
    · exact .inr rfl
    · refine .inl fun e he ↦ ?_
      have hurl : e.url ∈ evidence.map (·.url) := List.mem_map_of_mem he
      rw [hevidence.urls, mem_map_firsts] at hurl
      obtain ⟨p, hp, hpurl⟩ := List.mem_map.mp hurl
      exact hpurl ▸ hserved p hp
  · rw [hweb]
    split
    · exact List.nodup_singleton _
    · exact hevidence.nodup fun p hp q hq ↦ huuid5 p.1 (hserved p hp) q.1 (hserved q hq)
  · refine List.forall₂_iff_get.mpr ⟨hresult.checks.length_eq, fun i hi hi' ↦ ?_⟩
    have hmem := List.get_mem findings ⟨i, hi⟩
    have hcheck := (List.forall₂_iff_get.mp hresult.checks).2 i hi hi'
    obtain ⟨finding, -, anchor, hanchor, -, hid, -, hquote, -⟩ := hcheck.object
    refine ⟨fun id hmemId ↦ ?_, ⟨anchor, hanchor, hid.symm, hquote⟩, fun hforeign ↦ ?_⟩
    · by_cases huntrusted : Untrusted env trusted (findings.get ⟨i, hi⟩)
      · rw [(hcheck.ungrounded huntrusted).2.2] at hmemId
        exact absurd hmemId List.not_mem_nil
      · rw [hcheck.grounded huntrusted] at hmemId
        obtain ⟨p, hp, rfl⟩ := List.mem_map.mp hmemId
        exact hids p (List.mem_flatMap.mpr ⟨_, hmem, hp⟩)
    · obtain ⟨hverdict, hexplanation, hnone⟩ :=
        hcheck.ungrounded (untrusted_of_citesForeign hresult.provenance hforeign)
      exact ⟨hverdict, hnone, hexplanation⟩
  · rw [hweb]
    split
    · exact List.cons_ne_nil _ _
    · next hno =>
      intro hnil
      have hfindingsNe : findings ≠ [] := by
        rintro rfl
        exact hchecks (List.forall₂_nil_left_iff.mp hresult.checks)
      refine hno ⟨hfindingsNe, ?_⟩
      rw [hnil] at hevidence
      exact firsts_eq_nil.mp (List.forall₂_nil_right_iff.mp hevidence)

/-! ### A response with one finding -/

/-- An anchor about a plan. -/
def planAnchor : RuntimeSourceAnchor :=
  ⟨1, 2, lit "The plan has 3 parts.", lit "factual_claim", lit "paragraph", none,
    by decide, factualClaim_not_blank, paragraph_not_blank, unit_none⟩

/-- `uuid5` on the names of the plan's page and of the placeholder. -/
def planUuid5 (_ : UUID) (name : Str) : UUID :=
  if name = lit "grok-web-gap" then ⟨0x0f0bab1d954458ff9cc7532d06a945b6⟩
  else ⟨0x8b63e086dabd581a8182dbe9bdcbb82e⟩

/-- A run for the snapshot with the number 100. -/
def planEnv : ResearchEnv := ⟨.ascii, asciiWord, 100, planUuid5, 100, fun _ ↦ 0⟩

/-- A response whose service has visited one page. -/
def planResponse (page output : String) : Fields :=
  obj [("status", .str (lit "completed")), ("citations", .array [.str (lit page)]),
    ("output", .array [.object (obj [("type", .str (lit "message")),
      ("content", .array [.object (obj [("type", .str (lit "output_text")),
        ("text", .str (lit output))])])])])]

/-- The finding cites the page with another spelling of its host. -/
def planOutput : String :=
  "\x7b\"findings\":[\x7b\"source_anchor_id\":\"00000000-0000-0000-0000-000000000001\"," ++
  "\"source_claim_quote\":\"3 parts\",\"verdict\":\"supported\",\"explanation\":\"It has.\"," ++
  "\"web_sources\":[\x7b\"url\":\"https://Example.org/plan/#top\",\"title\":\"Plan\"\x7d]\x7d]\x7d"

theorem research_provenance_of_plan :
    ∃ result, generateResearch planEnv [planAnchor]
        (planResponse "https://example.org/plan" planOutput) = .ok result ∧
      ((∀ e ∈ result.webEvidence, e.url ∈
        provenanceUrls (planResponse "https://example.org/plan" planOutput)) ∨
        result.webEvidence = [planEnv.gap]) := by
  have hurls : provenanceUrls (planResponse "https://example.org/plan" planOutput) =
      [lit "https://example.org/plan"] := by
    decide +kernel
  have hruns : (generateResearch planEnv [planAnchor]
      (planResponse "https://example.org/plan" planOutput)).toBool = true := by
    decide +kernel
  cases hresult : generateResearch planEnv [planAnchor]
      (planResponse "https://example.org/plan" planOutput) with
  | error e =>
    rw [hresult] at hruns
    exact nomatch hruns
  | ok result =>
    refine ⟨result, rfl, (research_provenance (fun u hu v hv _ ↦ ?_) hresult).1⟩
    rw [hurls] at hu hv
    exact (List.mem_singleton.mp hu).trans (List.mem_singleton.mp hv).symm

end MeetingRag
