import Mathlib.Algebra.Order.Ring.Rat
import MeetingRag.Library.Outcome
import MeetingRag.Library.Regex
import MeetingRag.Library.Text

/-!
# Grounded summaries

A provider answers with sections, items and quotes. Grounding accepts a quote only where the anchor
it names has it word for word, and keeps the place where it begins. Reviewed fixture output is held to
a catalog of approved assertions in addition; otherwise the two ways of grounding do the same.

Which characters `\w` matches is a table of the Unicode standard, so it is a parameter.
-/

open Outcome Py

namespace MeetingRag

/-- A candidate cannot become a grounded summary. -/
structure SummaryGroundingError where
  code : String
  detail : String
deriving DecidableEq, Repr

/-! ## Isolation -/

section Patterns

variable (word : CodePoint → Bool)

/-- `(?:https?://|www\.)` -/
def urlPattern : Regex :=
  .alt (.all [.textIgnoringCase "http", .opt (.textIgnoringCase "s"), .text "://"])
    (.textIgnoringCase "www.")

/-- `[ -]?` -/
def spaceOrHyphen : Regex := .opt (.char fun c ↦ c = 32 || c = 45)

/-- One of several words, whole. -/
def wholeWord (words : List Regex) : Regex := .all [.boundary word, .oneOf words, .boundary word]

def verdictPattern : Regex :=
  wholeWord word
    [ .all [.textIgnoringCase "fact", spaceOrHyphen, .textIgnoringCase "check"],
      .all [.textIgnoringCase "web", spaceOrHyphen, .textIgnoringCase "evidence"],
      .textIgnoringCase "verdict", .textIgnoringCase "supported", .textIgnoringCase "refuted",
      .textIgnoringCase "mixed", .textIgnoringCase "unverifiable" ]

def instructionPattern : Regex :=
  .all
    [ wholeWord word (["ignore", "disregard", "override", "forget"].map .textIgnoringCase),
      .upTo 96 (.char fun _ ↦ true),
      wholeWord word (["instruction", "prompt", "previous"].map .textIgnoringCase) ]

/-- `is_summary_text_isolated`. -/
def isSummaryTextIsolated (value : Str) : Bool :=
  !urlPattern.search value && !(verdictPattern word).search value

def isInstructionLikeContent (value : Str) : Bool := (instructionPattern word).search value

end Patterns

/-! ## Anchors and candidates -/

/-- The source context that grounding may see. -/
structure RuntimeSourceAnchor where
  id : UUID
  revisionId : UUID
  exactQuote : Str
  classification : Str
  blockType : Str
  confidence : Option ℚ
  quote : ¬Blank exactQuote
  classified : ¬Blank classification
  block : ¬Blank blockType
  unit : ∀ c ∈ confidence, 0 ≤ c ∧ c ≤ 1

theorem factualClaim_not_blank : ¬Blank (lit "factual_claim") := by decide

theorem paragraph_not_blank : ¬Blank (lit "paragraph") := by decide

theorem unit_none : ∀ c ∈ (none : Option ℚ), 0 ≤ c ∧ c ≤ 1 := nofun

/-- A span that the provider selected. -/
structure SummarySupportCandidate where
  sourceAnchorId : UUID
  exactQuote : Str
  quote : ¬Blank exactQuote

structure SummaryItemCandidate where
  text : Str
  sourceAnchorIds : List UUID
  supports : List SummarySupportCandidate
  named : ¬Blank text
  anchored : sourceAnchorIds ≠ []
  supported : supports ≠ []

structure SummarySectionCandidate where
  heading : Str
  items : List SummaryItemCandidate
  headed : ¬Blank heading
  nonempty : items ≠ []

structure SummaryCandidate where
  sections : List SummarySectionCandidate
  nonempty : sections ≠ []

/-- An assertion of a fixture that has been reviewed with its supports. -/
structure ApprovedSummaryAssertion where
  text : Str
  supports : List SummarySupportCandidate
  named : ¬Blank text
  supported : supports ≠ []

/-! ## Grounded values -/

structure GroundedSummarySupport where
  sourceAnchorId : UUID
  exactQuote : Str
  start : ℕ
  stop : ℕ
deriving DecidableEq, Repr

structure GroundedSummaryItem where
  text : Str
  sourceAnchorIds : List UUID
  supports : List GroundedSummarySupport
deriving DecidableEq, Repr

structure GroundedSummarySection where
  heading : Str
  items : List GroundedSummaryItem
deriving DecidableEq, Repr

structure GroundedSummary where
  sections : List GroundedSummarySection
deriving DecidableEq, Repr

/-- The items of a summary in the order of the document. -/
def GroundedSummary.items (summary : GroundedSummary) : List GroundedSummaryItem :=
  summary.sections.flatMap (·.items)

/-! ## Grounding -/

/-- `_assertion_signature`, up to the order and the number of its pairs. -/
def signaturePairs (supports : List SummarySupportCandidate) : List (UUID × Str) :=
  supports.map fun s ↦ (s.sourceAnchorId, s.exactQuote)

/-- Two assertions have one signature. -/
def SameSignature (text : Str) (supports : List SummarySupportCandidate)
    (approved : ApprovedSummaryAssertion) : Prop :=
  text = approved.text ∧ (∀ p ∈ signaturePairs supports, p ∈ signaturePairs approved.supports) ∧
    ∀ p ∈ signaturePairs approved.supports, p ∈ signaturePairs supports

instance (text : Str) (supports : List SummarySupportCandidate) :
    DecidablePred (SameSignature text supports) := fun approved ↦
  inferInstanceAs (Decidable (text = approved.text ∧
    (∀ p ∈ signaturePairs supports, p ∈ signaturePairs approved.supports) ∧
    ∀ p ∈ signaturePairs approved.supports, p ∈ signaturePairs supports))

section Ground

variable (word : CodePoint → Bool)

/-- `_assert_summary_text_is_isolated`. -/
def assertSummaryTextIsIsolated (value : Str) : Except SummaryGroundingError Unit :=
  require (isSummaryTextIsolated word value = true)
    ⟨"summary_isolation_violation",
      "summary text must not contain URL, web-evidence, or verdict language"⟩

/-- `_assert_anchor_is_summary_safe`. -/
def assertAnchorIsSummarySafe (anchor : RuntimeSourceAnchor) : Except SummaryGroundingError Unit := do
  require (¬(anchor.classification = lit "instruction_like_content" ∨
      isInstructionLikeContent word anchor.exactQuote = true))
    ⟨"source_prompt_injection", "instruction-like source content cannot support a summary"⟩
  require (anchor.classification = lit "factual_claim")
    ⟨"unsupported_anchor", "only factual source anchors may support a summary"⟩

/-- The anchor that a support names. -/
def selectAnchor (anchors : List RuntimeSourceAnchor) (id : UUID) :
    Except SummaryGroundingError RuntimeSourceAnchor :=
  match anchors.find? (·.id = id) with
  | some anchor => .ok anchor
  | none => .error ⟨"foreign_anchor", "summary support references a foreign anchor"⟩

/-- The place of a quote in its anchor. -/
def locate (anchor : RuntimeSourceAnchor) (exactQuote : Str) : Except SummaryGroundingError ℕ :=
  match find exactQuote anchor.exactQuote with
  | some start => .ok start
  | none => .error
      ⟨"support_quote_mismatch", "summary support quote is not an exact source substring"⟩

/-- One turn of the loop over the supports of an item. -/
def groundSupport (anchors : List RuntimeSourceAnchor) (supports : List GroundedSummarySupport)
    (support : SummarySupportCandidate) :
    Except SummaryGroundingError (List GroundedSummarySupport) := do
  let anchor ← selectAnchor anchors support.sourceAnchorId
  assertAnchorIsSummarySafe word anchor
  require (∀ seen ∈ supports,
      (seen.sourceAnchorId, seen.exactQuote) ≠ (support.sourceAnchorId, support.exactQuote))
    ⟨"duplicate_support", "summary item support spans must be unique"⟩
  let start ← locate anchor support.exactQuote
  .ok (supports ++
    [⟨support.sourceAnchorId, support.exactQuote, start, start + support.exactQuote.length⟩])

/-- The anchors that supports name. -/
def supportIds (supports : List GroundedSummarySupport) : List UUID :=
  supports.map (·.sourceAnchorId)

/-- One item. Fixture output must also be `approved`. -/
def groundItem (anchors : List RuntimeSourceAnchor) (approved : SummaryItemCandidate → Prop)
    [DecidablePred approved] (item : SummaryItemCandidate) :
    Except SummaryGroundingError GroundedSummaryItem := do
  assertSummaryTextIsIsolated word item.text
  require item.sourceAnchorIds.Nodup
    ⟨"duplicate_anchor", "summary item source anchor IDs must be unique"⟩
  let supports ← item.supports.foldlM (groundSupport word anchors) []
  require ((∀ id ∈ item.sourceAnchorIds, id ∈ supportIds supports) ∧
      ∀ id ∈ supportIds supports, id ∈ item.sourceAnchorIds)
    ⟨"support_anchor_mismatch", "summary source anchors must exactly match support anchors"⟩
  require (approved item) ⟨"assertion_not_grounded", "assertion is not exactly grounded"⟩
  .ok ⟨item.text, item.sourceAnchorIds, supports⟩

def groundSection (anchors : List RuntimeSourceAnchor) (approved : SummaryItemCandidate → Prop)
    [DecidablePred approved] (part : SummarySectionCandidate) :
    Except SummaryGroundingError GroundedSummarySection := do
  assertSummaryTextIsIsolated word part.heading
  let items ← part.items.mapM (groundItem word anchors approved)
  .ok ⟨part.heading, items⟩

/-- Two anchors of a snapshot have two ids. -/
def requireDistinctAnchors (anchors : List RuntimeSourceAnchor) : Except SummaryGroundingError Unit :=
  require (anchors.map (·.id)).Nodup ⟨"duplicate_anchor", "snapshot contains duplicate anchors"⟩

/-- `ground_summary`, for reviewed fixture output. -/
def groundSummary (anchors : List RuntimeSourceAnchor) (candidate : SummaryCandidate)
    (approvedAssertions : List ApprovedSummaryAssertion) :
    Except SummaryGroundingError GroundedSummary := do
  require (approvedAssertions.Pairwise fun a b ↦ ¬SameSignature a.text a.supports b)
    ⟨"duplicate_approved_assertion", "approved fixture assertions must be unique"⟩
  require (approvedAssertions ≠ [])
    ⟨"missing_approved_assertion", "summary grounding requires reviewed fixture assertions"⟩
  requireDistinctAnchors anchors
  let sections ← candidate.sections.mapM (groundSection word anchors fun item ↦
    ∃ approved ∈ approvedAssertions, SameSignature item.text item.supports approved)
  .ok ⟨sections⟩

/-- `ground_live_summary`. -/
def groundLiveSummary (candidate : SummaryCandidate) (anchors : List RuntimeSourceAnchor) :
    Except SummaryGroundingError GroundedSummary := do
  requireDistinctAnchors anchors
  require (anchors ≠ []) ⟨"missing_anchor", "summary grounding requires source anchors"⟩
  let sections ← candidate.sections.mapM (groundSection word anchors fun _ ↦ True)
  .ok ⟨sections⟩

end Ground

/-! ## Merging -/

/-- What the merge has kept so far, under the headings in the order of their first items. -/
structure Merged where
  itemsByHeading : List (Str × List GroundedSummaryItem)
  seen : List (Str × List UUID)
  total : ℕ

/-- `items_by_heading.setdefault(heading, []).append(item)`. -/
def appendUnder (heading : Str) (item : GroundedSummaryItem) :
    List (Str × List GroundedSummaryItem) → List (Str × List GroundedSummaryItem)
  | [] => [(heading, [item])]
  | (h, items) :: rest =>
    if h = heading then (h, items ++ [item]) :: rest
    else (h, items) :: appendUnder heading item rest

def GroundedSummaryItem.signature (item : GroundedSummaryItem) : Str × List UUID :=
  (item.text, item.sourceAnchorIds)

/-- One item of one document. The merge is full at 100 items. -/
def mergeItem (merged : Merged) (entry : Str × GroundedSummaryItem) : Merged :=
  if merged.total = 100 ∨ entry.2.signature ∈ merged.seen then merged
  else
    { itemsByHeading := appendUnder entry.1 entry.2 merged.itemsByHeading
      seen := merged.seen ++ [entry.2.signature]
      total := merged.total + 1 }

/-- The items of a document with the headings that they stand under. -/
def GroundedSummary.entries (summary : GroundedSummary) : List (Str × GroundedSummaryItem) :=
  summary.sections.flatMap fun part ↦ part.items.map fun item ↦ (part.heading, item)

/-- One round of the merge: the items with one index of all the documents. -/
def mergeRound (perDocument : List (List (Str × GroundedSummaryItem))) (merged : Merged)
    (index : ℕ) : Merged :=
  (perDocument.filterMap (·[index]?)).foldl mergeItem merged

/-- `_synthesize_document_summaries`. -/
def synthesizeDocumentSummaries (summaries : List GroundedSummary) :
    Except SummaryGroundingError GroundedSummary := do
  let perDocument := summaries.map (·.entries)
  let longest := (perDocument.map (·.length)).foldr max 0
  let merged := (List.range longest).foldl (mergeRound perDocument) ⟨[], [], 0⟩
  let sections := (merged.itemsByHeading.filter (·.2 ≠ [])).map fun p ↦
    (⟨p.1, p.2⟩ : GroundedSummarySection)
  require (sections ≠ []) ⟨"empty_hierarchical_summary", "no document summary survived"⟩
  .ok ⟨sections⟩

/-! ## What grounding guarantees -/

/-- A support quotes its anchor at the place that it gives. -/
structure SoundSupport (anchors : List RuntimeSourceAnchor) (s : GroundedSummarySupport) : Prop where
  quoted : ∃ anchor ∈ anchors, anchor.id = s.sourceAnchorId ∧
    slice s.start s.stop anchor.exactQuote = s.exactQuote
  stop : s.stop = s.start + s.exactQuote.length
  nonblank : ¬Blank s.exactQuote

structure SoundItem (anchors : List RuntimeSourceAnchor) (item : GroundedSummaryItem) : Prop where
  named : ¬Blank item.text
  ids : item.sourceAnchorIds.Nodup
  supported : item.supports ≠ []
  agree : ∀ id, id ∈ item.sourceAnchorIds ↔ id ∈ supportIds item.supports
  distinct : (item.supports.map fun s ↦ (s.sourceAnchorId, s.exactQuote)).Nodup
  supports : ∀ s ∈ item.supports, SoundSupport anchors s

structure SoundSection (anchors : List RuntimeSourceAnchor) (part : GroundedSummarySection) :
    Prop where
  headed : ¬Blank part.heading
  nonempty : part.items ≠ []
  items : ∀ item ∈ part.items, SoundItem anchors item

/-- What holds of every summary that grounding and merging let through. -/
structure SoundSummary (anchors : List RuntimeSourceAnchor) (summary : GroundedSummary) : Prop where
  nonempty : summary.sections ≠ []
  sections : ∀ part ∈ summary.sections, SoundSection anchors part

section Sound

variable {word : CodePoint → Bool} {anchors : List RuntimeSourceAnchor}

theorem groundSupport_sound {supports supports' : List GroundedSummarySupport}
    {support : SummarySupportCandidate}
    (h : groundSupport word anchors supports support = .ok supports') :
    ∃ s, supports' = supports ++ [s] ∧ SoundSupport anchors s ∧
      ∀ seen ∈ supports,
        (seen.sourceAnchorId, seen.exactQuote) ≠ (s.sourceAnchorId, s.exactQuote) := by
  obtain ⟨anchor, hanchor, h⟩ := bind_eq_ok.mp h
  obtain ⟨-, -, h⟩ := bind_eq_ok.mp h
  obtain ⟨hseen, h⟩ := require_bind_eq_ok.mp h
  obtain ⟨start, hstart, h⟩ := bind_eq_ok.mp h
  rw [selectAnchor] at hanchor
  rw [locate] at hstart
  split at hanchor
  · next found hfound =>
    cases hanchor
    split at hstart
    · next place hplace =>
      cases hstart
      cases h
      exact ⟨_, rfl, ⟨⟨anchor, List.mem_of_find?_eq_some hfound,
        of_decide_eq_true (List.find?_some hfound :), slice_of_find hplace⟩, rfl, support.quote⟩, hseen⟩
    · exact nomatch hstart
  · exact nomatch hanchor

theorem groundItem_sound {approved : SummaryItemCandidate → Prop} [DecidablePred approved]
    {item : SummaryItemCandidate} {grounded : GroundedSummaryItem}
    (h : groundItem word anchors approved item = .ok grounded) : SoundItem anchors grounded := by
  obtain ⟨-, -, h⟩ := bind_eq_ok.mp h
  obtain ⟨hids, h⟩ := require_bind_eq_ok.mp h
  obtain ⟨supports, hsupports, h⟩ := bind_eq_ok.mp h
  obtain ⟨hagree, h⟩ := require_bind_eq_ok.mp h
  obtain ⟨-, h⟩ := require_bind_eq_ok.mp h
  cases h
  have hloop : supports.length = item.supports.length ∧
      (supports.map fun s ↦ (s.sourceAnchorId, s.exactQuote)).Nodup ∧
      ∀ s ∈ supports, SoundSupport anchors s := by
    refine foldlM_invariant (fun done supports ↦ supports.length = done.length ∧
      (supports.map fun s ↦ (s.sourceAnchorId, s.exactQuote)).Nodup ∧
      ∀ s ∈ supports, SoundSupport anchors s) hsupports
      ⟨rfl, List.nodup_nil, List.forall_mem_nil _⟩ ?_
    rintro done support t t' ⟨hlength, hnodup, hsound⟩ hstep
    obtain ⟨s, rfl, hs, hnew⟩ := groundSupport_sound hstep
    refine ⟨by simp [hlength], ?_, ?_⟩
    · rw [List.map_append, List.nodup_append]
      refine ⟨hnodup, List.nodup_singleton _, ?_⟩
      rintro p hp q hq rfl
      obtain ⟨seen, hseen, rfl⟩ := List.mem_map.mp hp
      exact hnew seen hseen (List.mem_singleton.mp hq)
    · exact List.forall_mem_append.mpr ⟨hsound, List.forall_mem_singleton.mpr hs⟩
  obtain ⟨hlength, hnodup, hsound⟩ := hloop
  refine ⟨item.named, hids, ?_, fun id ↦ ⟨hagree.1 id, hagree.2 id⟩, hnodup, hsound⟩
  intro hnil
  have hempty : supports = [] := hnil
  rw [hempty] at hlength
  exact item.supported (List.length_eq_zero_iff.mp hlength.symm)

theorem groundSection_sound {approved : SummaryItemCandidate → Prop} [DecidablePred approved]
    {part : SummarySectionCandidate} {grounded : GroundedSummarySection}
    (h : groundSection word anchors approved part = .ok grounded) :
    SoundSection anchors grounded := by
  obtain ⟨-, -, h⟩ := bind_eq_ok.mp h
  obtain ⟨items, hitems, h⟩ := bind_eq_ok.mp h
  cases h
  refine ⟨part.headed, ?_, fun item hitem ↦ ?_⟩
  · refine List.ne_nil_of_length_pos ?_
    rw [length_mapM hitems]
    exact List.length_pos_of_ne_nil part.nonempty
  · obtain ⟨_, -, hground⟩ := exists_of_mem_mapM hitems hitem
    exact groundItem_sound hground

theorem soundSummary_of_sections {approved : SummaryItemCandidate → Prop} [DecidablePred approved]
    {candidate : SummaryCandidate} {sections : List GroundedSummarySection}
    (h : candidate.sections.mapM (groundSection word anchors approved) = .ok sections) :
    SoundSummary anchors ⟨sections⟩ := by
  refine ⟨?_, fun part hpart ↦ ?_⟩
  · refine List.ne_nil_of_length_pos ?_
    rw [length_mapM h]
    exact List.length_pos_of_ne_nil candidate.nonempty
  · obtain ⟨_, -, hground⟩ := exists_of_mem_mapM h hpart
    exact groundSection_sound hground

theorem groundSummary_sound {candidate : SummaryCandidate}
    {approved : List ApprovedSummaryAssertion} {summary : GroundedSummary}
    (h : groundSummary word anchors candidate approved = .ok summary) :
    SoundSummary anchors summary := by
  obtain ⟨-, h⟩ := require_bind_eq_ok.mp h
  obtain ⟨-, h⟩ := require_bind_eq_ok.mp h
  obtain ⟨-, -, h⟩ := bind_eq_ok.mp h
  obtain ⟨sections, hsections, h⟩ := bind_eq_ok.mp h
  cases h
  exact soundSummary_of_sections hsections

theorem groundLiveSummary_sound {candidate : SummaryCandidate} {summary : GroundedSummary}
    (h : groundLiveSummary word candidate anchors = .ok summary) : SoundSummary anchors summary := by
  obtain ⟨-, -, h⟩ := bind_eq_ok.mp h
  obtain ⟨-, h⟩ := require_bind_eq_ok.mp h
  obtain ⟨sections, hsections, h⟩ := bind_eq_ok.mp h
  cases h
  exact soundSummary_of_sections hsections

theorem SoundItem.mono {anchors' : List RuntimeSourceAnchor} {item : GroundedSummaryItem}
    (h : SoundItem anchors item) (hsub : ∀ a ∈ anchors, a ∈ anchors') : SoundItem anchors' item where
  named := h.named
  ids := h.ids
  supported := h.supported
  agree := h.agree
  distinct := h.distinct
  supports s hs := by
    obtain ⟨⟨anchor, hanchor, hid, hquoted⟩, hstop, hnonblank⟩ := h.supports s hs
    exact ⟨⟨anchor, hsub anchor hanchor, hid, hquoted⟩, hstop, hnonblank⟩

end Sound

/-! ### Merging -/

section Merge

variable {entries : List (Str × GroundedSummaryItem)} {merged : Merged}

/-- Everything that the merge has kept is an entry under its own heading. -/
def Merged.From (entries : List (Str × GroundedSummaryItem)) (merged : Merged) : Prop :=
  ∀ p ∈ merged.itemsByHeading, p.2 ≠ [] ∧ ∀ item ∈ p.2, (p.1, item) ∈ entries

theorem mem_appendUnder {heading : Str} {item : GroundedSummaryItem}
    {groups : List (Str × List GroundedSummaryItem)} {p : Str × List GroundedSummaryItem}
    (h : p ∈ appendUnder heading item groups) :
    p ∈ groups ∨ p = (heading, [item]) ∨ ∃ items, (heading, items) ∈ groups ∧
      p = (heading, items ++ [item]) := by
  induction groups with
  | nil => exact Or.inr (Or.inl (List.mem_singleton.mp h))
  | cons group rest ih =>
    obtain ⟨name, items⟩ := group
    rw [appendUnder] at h
    split at h
    · next hname =>
      subst hname
      rcases List.mem_cons.mp h with rfl | h
      · exact Or.inr (Or.inr ⟨items, List.mem_cons_self, rfl⟩)
      · exact Or.inl (List.mem_cons_of_mem _ h)
    · rcases List.mem_cons.mp h with rfl | h
      · exact Or.inl List.mem_cons_self
      · rcases ih h with h | h | ⟨items', hmem, rfl⟩
        · exact Or.inl (List.mem_cons_of_mem _ h)
        · exact Or.inr (Or.inl h)
        · exact Or.inr (Or.inr ⟨items', List.mem_cons_of_mem _ hmem, rfl⟩)

theorem Merged.From.mergeItem (h : merged.From entries) {entry : Str × GroundedSummaryItem}
    (hentry : entry ∈ entries) : (mergeItem merged entry).From entries := by
  rw [MeetingRag.mergeItem]
  split
  · exact h
  · intro p hp
    rcases mem_appendUnder hp with hp | rfl | ⟨items, hitems, rfl⟩
    · exact h p hp
    · exact ⟨List.cons_ne_nil _ _, List.forall_mem_singleton.mpr hentry⟩
    · obtain ⟨-, hold⟩ := h _ hitems
      exact ⟨by simp, List.forall_mem_append.mpr ⟨hold, List.forall_mem_singleton.mpr hentry⟩⟩

theorem Merged.From.foldl (h : merged.From entries) {xs : List (Str × GroundedSummaryItem)}
    (hxs : ∀ x ∈ xs, x ∈ entries) : (xs.foldl MeetingRag.mergeItem merged).From entries := by
  induction xs generalizing merged with
  | nil => exact h
  | cons x xs ih =>
    obtain ⟨hx, hxs⟩ := List.forall_mem_cons.mp hxs
    exact ih (h.mergeItem hx) hxs

theorem Merged.From.rounds {summaries : List GroundedSummary} {indices : List ℕ}
    (h : merged.From (summaries.flatMap (·.entries))) :
    (indices.foldl (mergeRound (summaries.map (·.entries))) merged).From
      (summaries.flatMap (·.entries)) := by
  induction indices generalizing merged with
  | nil => exact h
  | cons index indices ih =>
    refine ih (h.foldl fun x hx ↦ ?_)
    obtain ⟨entries, hentries, hget⟩ := List.mem_filterMap.mp hx
    obtain ⟨summary, hsummary, rfl⟩ := List.mem_map.mp hentries
    exact List.mem_flatMap.mpr ⟨summary, hsummary, List.mem_of_getElem? hget⟩

theorem mem_entries {summary : GroundedSummary} {heading : Str} {item : GroundedSummaryItem} :
    (heading, item) ∈ summary.entries ↔
      ∃ part ∈ summary.sections, part.heading = heading ∧ item ∈ part.items := by
  simp only [GroundedSummary.entries, List.mem_flatMap, List.mem_map, Prod.mk.injEq]
  constructor
  · rintro ⟨part, hpart, item', hitem, hheading, rfl⟩
    exact ⟨part, hpart, hheading, hitem⟩
  · rintro ⟨part, hpart, hheading, hitem⟩
    exact ⟨part, hpart, item, hitem, hheading, rfl⟩

/-- Every item of a merged summary stands under its heading in one of the documents. -/
theorem synthesizeDocumentSummaries_from {summaries : List GroundedSummary}
    {summary : GroundedSummary} (h : synthesizeDocumentSummaries summaries = .ok summary) :
    summary.sections ≠ [] ∧ ∀ part ∈ summary.sections, part.items ≠ [] ∧
      ∀ item ∈ part.items, ∃ document ∈ summaries, ∃ part' ∈ document.sections,
        part'.heading = part.heading ∧ item ∈ part'.items := by
  obtain ⟨hne, h⟩ := require_bind_eq_ok.mp h
  cases h
  refine ⟨hne, fun part hpart ↦ ?_⟩
  obtain ⟨p, hp, rfl⟩ := List.mem_map.mp hpart
  have hempty : Merged.From (summaries.flatMap (·.entries)) ⟨[], [], 0⟩ := List.forall_mem_nil _
  have hfrom := hempty.rounds p (List.mem_filter.mp hp).1
  refine ⟨hfrom.1, fun item hitem ↦ ?_⟩
  obtain ⟨document, hdocument, hentry⟩ := List.mem_flatMap.mp (hfrom.2 item hitem)
  exact ⟨document, hdocument, mem_entries.mp hentry⟩

theorem synthesizeDocumentSummaries_sound {anchors : List RuntimeSourceAnchor}
    {summaries : List GroundedSummary} {summary : GroundedSummary}
    (hsound : ∀ document ∈ summaries, SoundSummary anchors document)
    (h : synthesizeDocumentSummaries summaries = .ok summary) : SoundSummary anchors summary := by
  obtain ⟨hne, hparts⟩ := synthesizeDocumentSummaries_from h
  refine ⟨hne, fun part hpart ↦ ?_⟩
  obtain ⟨hitems, hfrom⟩ := hparts part hpart
  refine ⟨?_, hitems, fun item hitem ↦ ?_⟩
  · obtain ⟨item, hitem⟩ := List.exists_mem_of_ne_nil _ hitems
    obtain ⟨document, hdocument, part', hpart', hheading, -⟩ := hfrom item hitem
    rw [← hheading]
    exact ((hsound document hdocument).sections part' hpart').headed
  · obtain ⟨document, hdocument, part', hpart', -, hmem⟩ := hfrom item hitem
    exact ((hsound document hdocument).sections part' hpart').items item hmem

end Merge

/-- The summaries that the two ways of grounding return over parts of a snapshot's anchors, and
those that the merge makes of them. -/
inductive Grounded (word : CodePoint → Bool) (anchors : List RuntimeSourceAnchor) :
    GroundedSummary → Prop
  | fixture (part : List RuntimeSourceAnchor) (hpart : ∀ a ∈ part, a ∈ anchors)
      (candidate : SummaryCandidate) (approved : List ApprovedSummaryAssertion)
      {summary : GroundedSummary} (h : groundSummary word part candidate approved = .ok summary) :
      Grounded word anchors summary
  | live (part : List RuntimeSourceAnchor) (hpart : ∀ a ∈ part, a ∈ anchors)
      (candidate : SummaryCandidate) {summary : GroundedSummary}
      (h : groundLiveSummary word candidate part = .ok summary) : Grounded word anchors summary
  | merged (summaries : List GroundedSummary)
      (hgrounded : ∀ document ∈ summaries, Grounded word anchors document)
      {summary : GroundedSummary} (h : synthesizeDocumentSummaries summaries = .ok summary) :
      Grounded word anchors summary

theorem SoundSummary.mono {anchors anchors' : List RuntimeSourceAnchor} {summary : GroundedSummary}
    (h : SoundSummary anchors summary) (hsub : ∀ a ∈ anchors, a ∈ anchors') :
    SoundSummary anchors' summary where
  nonempty := h.nonempty
  sections part hpart :=
    have hs := h.sections part hpart
    ⟨hs.headed, hs.nonempty, fun item hitem ↦ (hs.items item hitem).mono hsub⟩

/-- **Grounding is sound.** -/
theorem Grounded.sound {word : CodePoint → Bool} {anchors : List RuntimeSourceAnchor}
    {summary : GroundedSummary} (h : Grounded word anchors summary) :
    SoundSummary anchors summary := by
  induction h with
  | fixture part hpart candidate approved h => exact (groundSummary_sound h).mono hpart
  | live part hpart candidate h => exact (groundLiveSummary_sound h).mono hpart
  | merged summaries hgrounded h ih => exact synthesizeDocumentSummaries_sound ih h

end MeetingRag
