import Mathlib.Data.String.Basic
import MeetingRag.Domain.Models
import MeetingRag.Generation.Grounding
import MeetingRag.Library.Choice
import MeetingRag.Library.Regex
import MeetingRag.Library.Sha256

/-!
# Which anchors a generation may read

Anchors of doubtful quality are excluded. Of the others the best are taken, but each revision keeps a
slot for its best one as long as there are slots. The score is a parameter, since it is computed from
embeddings; all that is used of it is that scores are ordered.

The tables of Unicode, the forms it defines and the class `\w`, are parameters as well.
-/

open Lists Outcome Py

namespace MeetingRag

/-- The tables of Unicode that the retrieval reads. -/
structure TextTables where
  nfc : Str → Str
  nfkc : Str → Str
  casefold : Str → Str
  word : CodePoint → Bool

/-! ## The quality of an anchor -/

structure AnchorQualityAssessment where
  accepted : Bool
  reason : Option String
deriving DecidableEq, Repr

/-- The binary64 value of `0.72`. -/
def minOcrConfidence : ℚ := 3242591731706757 / 2 ^ 52

/-- The category `Cc` of Unicode. -/
def isControl (c : CodePoint) : Bool := c.val < 32 || (127 ≤ c.val && c.val ≤ 159)

/-- `(?:^|\s)(?:해|하|되|된|할|될)\s*[.!?]?\s*$` -/
def incompleteKoreanOcrEnding : Regex :=
  .all
    [ .alt .start (.char isSpace),
      .oneOf (["해", "하", "되", "된", "할", "될"].map .text),
      .star (.char isSpace), .opt (.char fun c ↦ c = 46 || c = 33 || c = 63),
      .star (.char isSpace), .finish ]

/-- How many parts `value.split()` has. -/
def wordCount (value : Str) : ℕ := ((value.splitOnP isSpace).filter (· ≠ [])).length

/-- `assess_source_anchor` -/
def assessSourceAnchor (T : TextTables) (text : Str) (confidence : Option ℚ) (blockType : Str) :
    AnchorQualityAssessment :=
  let normalized := strip (T.nfc text)
  if normalized = [] then ⟨false, some "blank_text"⟩
  else if normalized.any fun c ↦ c = 0xFFFD || c = 0xFFFE || c = 0xFFFF then
    ⟨false, some "corrupt_characters"⟩
  else if normalized.any fun c ↦ isControl c && !(c = 9 || c = 10 || c = 13) then
    ⟨false, some "control_characters"⟩
  else if blockType = lit "image_ocr" ∨ blockType = lit "pdf_ocr" then
    if ∀ c ∈ confidence, c < minOcrConfidence then ⟨false, some "low_ocr_confidence"⟩
    else if normalized.length < 3 then ⟨false, some "short_ocr_fragment"⟩
    else if wordCount normalized ≤ 6 ∧ incompleteKoreanOcrEnding.search normalized = true then
      ⟨false, some "incomplete_ocr_fragment"⟩
    else ⟨true, none⟩
  else ⟨true, none⟩

/-! ## The retrieval -/

structure GenerationRetrievalPlan where
  queryHash : Str
  candidateCount : ℕ
  eligibleCount : ℕ
  anchors : List RuntimeSourceAnchor
  rankedAnchorIds : List UUID
  excludedAnchorIds : List UUID
  qualityReasonCounts : List (String × ℕ)

/-- The maximal runs of word characters other than the underscore. -/
def wordTokens (T : TextTables) (value : Str) : List Str :=
  (value.splitOnP fun c ↦ !(T.word c && c ≠ codePoint '_')).filter (· ≠ [])

/-- `_normalize` -/
def normalizeQuery (T : TextTables) (value : Str) : Str :=
  ((wordTokens T (T.casefold (T.nfkc value))).intersperse [32]).flatten

variable {S : Type} [LinearOrder S]

/-- An eligible anchor with its score and its place. -/
structure Candidate (S : Type) where
  score : S
  ordinal : ℕ
  anchor : RuntimeSourceAnchor

/-- The key that candidates are sorted by: the best score first, ties by revision and place. -/
def Candidate.key (c : Candidate S) : Sᵒᵈ ×ₗ String ×ₗ ℕ ×ₗ String :=
  toLex (OrderDual.toDual c.score,
    toLex (c.anchor.revisionId.str, toLex (c.ordinal, c.anchor.id.str)))

def Candidate.revisionId (c : Candidate S) : UUID := c.anchor.revisionId

section Retrieve

variable (T : TextTables) (score : Str → Str → S)

def assessmentOf (anchor : RuntimeSourceAnchor) : AnchorQualityAssessment :=
  assessSourceAnchor T anchor.exactQuote anchor.confidence anchor.blockType

def eligibleAnchors (anchors : List RuntimeSourceAnchor) : List RuntimeSourceAnchor :=
  anchors.filter fun anchor ↦ (assessmentOf T anchor).accepted

def excludedAnchors (anchors : List RuntimeSourceAnchor) : List RuntimeSourceAnchor :=
  anchors.filter fun anchor ↦ !(assessmentOf T anchor).accepted

/-- Count one more anchor that is excluded for a reason. -/
def countReason (counts : List (String × ℕ)) (reason : String) : List (String × ℕ) :=
  match counts with
  | [] => [(reason, 1)]
  | (r, n) :: rest => if r = reason then (r, n + 1) :: rest else (r, n) :: countReason rest reason

/-- `reason_counts` -/
def reasonCounts (anchors : List RuntimeSourceAnchor) : List (String × ℕ) :=
  sortedBy Prod.fst (((excludedAnchors T anchors).map fun anchor ↦
    (assessmentOf T anchor).reason.getD "unknown").foldl countReason [])

/-- `scored` -/
def scoredCandidates (query : Str) (anchors : List RuntimeSourceAnchor) : List (Candidate S) :=
  sortedBy Candidate.key
    ((eligibleAnchors T anchors).zipIdx.map fun a ↦ ⟨score query a.1.exactQuote, a.2, a.1⟩)

/-- The first loop: the strongest anchors of the revisions, as many as the limit has room for. -/
def retainedIds (limit : ℕ) (scored : List (Candidate S)) : List UUID :=
  (((sortedBy Candidate.key (firsts Candidate.revisionId scored)).take limit).map
    (·.anchor.id)).foldl insertNew []

/-- The second loop. -/
def selectedIds (limit : ℕ) (scored : List (Candidate S)) : List UUID :=
  (scored.map (·.anchor.id)).foldl (fillStep limit) (retainedIds limit scored)

/-- `retrieve_generation_anchors` -/
def retrieveGenerationAnchors (topic : Str) (anchors : List RuntimeSourceAnchor) (maxAnchors : ℤ) :
    Except Error GenerationRetrievalPlan := do
  let query := normalizeQuery T topic
  require (query ≠ []) (.valueError "generation retrieval topic must not be blank")
  require (1 ≤ maxAnchors ∧ maxAnchors ≤ 256)
    (.valueError "generation retrieval limit must be between 1 and 256")
  require (anchors ≠ []) (.valueError "generation retrieval requires source anchors")
  require (anchors.length ≤ 10000) (.valueError "generation retrieval candidate limit exceeded")
  let eligible := eligibleAnchors T anchors
  require (eligible ≠ [])
    (.valueError "generation retrieval has no quality-approved source anchors")
  let scored := scoredCandidates T score query anchors
  let limit := min maxAnchors.toNat eligible.length
  let selected := selectedIds limit scored
  .ok
    { queryHash := sha256Hex (encodeUtf8 query)
      candidateCount := anchors.length
      eligibleCount := eligible.length
      anchors := eligible.filter (·.id ∈ selected)
      rankedAnchorIds := (scored.filter (·.anchor.id ∈ selected)).map (·.anchor.id)
      excludedAnchorIds := (excludedAnchors T anchors).map (·.id)
      qualityReasonCounts := reasonCounts T anchors }

end Retrieve

/-! ## What is selected -/

section Select

variable {T : TextTables} {score : Str → Str → S} {query : Str} {anchors : List RuntimeSourceAnchor}
  {scored : List (Candidate S)} {limit n : ℕ}

theorem le_of_key_le {c d : Candidate S} (h : c.key ≤ d.key) : d.score ≤ c.score := by
  rw [Candidate.key, Candidate.key, Prod.Lex.toLex_le_toLex] at h
  rcases h with hlt | ⟨heq, -⟩
  · exact OrderDual.toDual_le_toDual.mp hlt.le
  · exact (OrderDual.toDual_inj.mp heq).ge

/-- A list of candidates, best first, with different anchors. -/
structure Ranked (scored : List (Candidate S)) : Prop where
  sorted : scored.Pairwise fun c d ↦ c.key ≤ d.key
  distinct : (scored.map (·.anchor.id)).Nodup

/-- The candidates that hold the slots of their revisions. -/
def reserved (scored : List (Candidate S)) : List (Candidate S) := firsts Candidate.revisionId scored

omit [LinearOrder S] in
theorem reserved_sublist (scored : List (Candidate S)) : (reserved scored).Sublist scored :=
  firsts_sublist _ _

theorem retainedIds_eq (h : Ranked scored) :
    retainedIds limit scored = ((reserved scored).take limit).map (·.anchor.id) := by
  have hsorted : sortedBy Candidate.key (reserved scored) = reserved scored :=
    sortedBy_eq_self (h.sorted.sublist (reserved_sublist scored))
  have hnodup : (((reserved scored).take limit).map (·.anchor.id)).Nodup :=
    h.distinct.sublist (((List.take_sublist _ _).trans (reserved_sublist scored)).map _)
  rw [reserved] at hsorted hnodup ⊢
  rw [retainedIds, hsorted, foldl_insertNew (by rwa [List.nil_append]), List.nil_append]

/-- The candidates that the second loop adds. -/
def added (limit : ℕ) (scored : List (Candidate S)) : List (Candidate S) :=
  (scored.filter (·.anchor.id ∉ retainedIds limit scored)).take
    (limit - (retainedIds limit scored).length)

/-- **The selection** is what the first loop retains and the best of the rest. -/
theorem selectedIds_eq (h : Ranked scored) :
    selectedIds limit scored = retainedIds limit scored ++ (added limit scored).map (·.anchor.id) := by
  rw [selectedIds, foldl_fillStep h.distinct, added, List.map_take, List.filter_map]
  rfl

theorem nodup_selectedIds (h : Ranked scored) : (selectedIds limit scored).Nodup := by
  have hadded : (added limit scored).Sublist
      (scored.filter (·.anchor.id ∉ retainedIds limit scored)) := List.take_sublist _ _
  rw [selectedIds_eq h]
  refine List.nodup_append.mpr ⟨?_, ?_, ?_⟩
  · rw [retainedIds_eq h]
    exact h.distinct.sublist (((List.take_sublist _ _).trans (reserved_sublist scored)).map _)
  · exact h.distinct.sublist ((hadded.trans List.filter_sublist).map _)
  · rintro id hretained id' hid' rfl
    obtain ⟨c, hc, rfl⟩ := List.mem_map.mp hid'
    exact of_decide_eq_true (List.mem_filter.mp (hadded.subset hc)).2 hretained

theorem selectedIds_subset (h : Ranked scored) :
    ∀ id ∈ selectedIds limit scored, id ∈ scored.map (·.anchor.id) := by
  intro id hid
  rw [selectedIds_eq h, retainedIds_eq h] at hid
  rcases List.mem_append.mp hid with hid | hid
  · exact ((List.take_sublist _ _).trans (reserved_sublist scored)).map _ |>.subset hid
  · exact ((List.take_sublist _ _).trans List.filter_sublist).map _ |>.subset hid

theorem length_selectedIds (h : Ranked scored) (hlimit : limit ≤ scored.length) :
    (selectedIds limit scored).length = limit := by
  have hretained : (retainedIds limit scored).length ≤ limit := by
    rw [retainedIds_eq h, List.length_map]
    exact List.length_take_le _ _
  have hold : ((scored.filter (·.anchor.id ∈ retainedIds limit scored)).map (·.anchor.id)).length =
      (retainedIds limit scored).length := by
    refine ((List.perm_ext_iff_of_nodup (h.distinct.sublist (List.filter_sublist.map _)) ?_).mpr
      fun id ↦ ?_).length_eq
    · exact (List.nodup_append.mp (selectedIds_eq h ▸ nodup_selectedIds h)).1
    · simp only [List.mem_map, List.mem_filter, decide_eq_true_eq]
      constructor
      · rintro ⟨c, ⟨-, hc⟩, rfl⟩
        exact hc
      · intro hid
        have hmem : id ∈ selectedIds limit scored := by
          rw [selectedIds_eq h]
          exact List.mem_append_left _ hid
        obtain ⟨c, hc, rfl⟩ := List.mem_map.mp (selectedIds_subset h id hmem)
        exact ⟨c, ⟨hc, hid⟩, rfl⟩
  have hsplit := List.length_eq_length_filter_add (l := scored)
    fun c ↦ decide (c.anchor.id ∈ retainedIds limit scored)
  have hrest : (scored.filter fun c ↦ !decide (c.anchor.id ∈ retainedIds limit scored)).length =
      (scored.filter (·.anchor.id ∉ retainedIds limit scored)).length := by
    simp only [decide_not]
  rw [List.length_map] at hold
  rw [selectedIds_eq h, List.length_append, List.length_map, added, List.length_take]
  omega

/-- What is left out scores no better than what the second loop adds. -/
theorem le_of_left_out (h : Ranked scored) {c d : Candidate S} (hc : c ∈ scored)
    (hout : c.anchor.id ∉ selectedIds limit scored) (hd : d ∈ added limit scored) :
    c.score ≤ d.score := by
  have hrest : c ∈ scored.filter (·.anchor.id ∉ retainedIds limit scored) := by
    refine List.mem_filter.mpr ⟨hc, decide_eq_true fun hretained ↦ hout ?_⟩
    rw [selectedIds_eq h]
    exact List.mem_append_left _ hretained
  have hsorted := h.sorted.sublist
    (List.filter_sublist (p := (·.anchor.id ∉ retainedIds limit scored)))
  rw [← List.take_append_drop (limit - (retainedIds limit scored).length)
    (scored.filter (·.anchor.id ∉ retainedIds limit scored))] at hsorted hrest
  refine le_of_key_le ((List.pairwise_append.mp hsorted).2.2 d hd c ?_)
  refine (List.mem_append.mp hrest).resolve_left fun hin ↦ hout ?_
  rw [selectedIds_eq h]
  exact List.mem_append_right _ (List.mem_map_of_mem hin)

/-! ### The candidates of a list of anchors -/

theorem map_anchor_scoredCandidates (T : TextTables) (score : Str → Str → S) (query : Str)
    (anchors : List RuntimeSourceAnchor) :
    ((scoredCandidates T score query anchors).map (·.anchor)).Perm (eligibleAnchors T anchors) := by
  refine ((sortedBy_perm _ _).map _).trans (List.Perm.of_eq ?_)
  rw [List.map_map]
  exact List.zipIdx_map_fst 0 _

theorem score_of_mem {c : Candidate S} (h : c ∈ scoredCandidates T score query anchors) :
    c.score = score query c.anchor.exactQuote := by
  obtain ⟨a, -, rfl⟩ := List.mem_map.mp (mem_sortedBy.mp h)
  rfl

theorem ranked_scoredCandidates (h : (anchors.map (·.id)).Nodup) :
    Ranked (scoredCandidates T score query anchors) := by
  refine ⟨pairwise_sortedBy _ _, ?_⟩
  have hperm := (map_anchor_scoredCandidates T score query anchors).map (·.id)
  rw [List.map_map] at hperm
  exact hperm.nodup_iff.mpr (h.sublist (List.filter_sublist.map _))

/-- What the function asks of its arguments. -/
structure Retrievable (T : TextTables) (topic : Str) (anchors : List RuntimeSourceAnchor)
    (maxAnchors : ℤ) : Prop where
  topic : normalizeQuery T topic ≠ []
  limit : 1 ≤ maxAnchors ∧ maxAnchors ≤ 256
  nonempty : anchors ≠ []
  count : anchors.length ≤ 10000
  eligible : eligibleAnchors T anchors ≠ []

/-- A selection that is fair to the revisions, and otherwise the best. -/
structure FairRetrieval (T : TextTables) (score : RuntimeSourceAnchor → S)
    (anchors : List RuntimeSourceAnchor) (limit : ℕ) (plan : GenerationRetrievalPlan) : Prop where
  selected : plan.anchors.Sublist anchors
  eligible : ∀ a ∈ plan.anchors, a ∈ eligibleAnchors T anchors
  count : plan.anchors.length = min limit (eligibleAnchors T anchors).length
  ranked : plan.rankedAnchorIds.Perm (plan.anchors.map (·.id))
  /-- Each revision has one best anchor, which is selected if there are slots for all of them; and no
  eligible anchor that is left out is better than a selected one without such a slot. -/
  best : ∃ best : List RuntimeSourceAnchor, (best.map (·.revisionId)).Nodup ∧
    (∀ b ∈ best, b ∈ eligibleAnchors T anchors) ∧
    (∀ a ∈ eligibleAnchors T anchors, ∃ b ∈ best, b.revisionId = a.revisionId ∧ score a ≤ score b) ∧
    (best.length ≤ limit → ∀ b ∈ best, b ∈ plan.anchors) ∧
    ∀ a ∈ eligibleAnchors T anchors, a ∉ plan.anchors →
      ∀ s ∈ plan.anchors, s ∉ best → score a ≤ score s
  excluded : ((eligibleAnchors T anchors).map (·.id) ++ plan.excludedAnchorIds).Perm
    (anchors.map (·.id))
  counts : plan.candidateCount = anchors.length ∧
    plan.eligibleCount = (eligibleAnchors T anchors).length

/-- The candidates of a revision are none better than the one that holds its slot. -/
theorem exists_reserved (h : Ranked scored) {c : Candidate S} (hc : c ∈ scored) :
    ∃ b ∈ reserved scored, b.revisionId = c.revisionId ∧ c.score ≤ b.score := by
  have _ : Std.Refl fun c d : Candidate S ↦ c.key ≤ d.key := ⟨fun _ ↦ le_rfl⟩
  obtain ⟨b, hb, hrevision, hle⟩ := exists_first Candidate.revisionId h.sorted hc
  exact ⟨b, hb, hrevision, le_of_key_le hle⟩

theorem retrieveGenerationAnchors_eq_ok {topic : Str} {maxAnchors : ℤ}
    {plan : GenerationRetrievalPlan}
    (h : retrieveGenerationAnchors T score topic anchors maxAnchors = .ok plan) :
    Retrievable T topic anchors maxAnchors := by
  obtain ⟨htopic, h⟩ := require_bind_eq_ok.mp h
  obtain ⟨hlimit, h⟩ := require_bind_eq_ok.mp h
  obtain ⟨hanchors, h⟩ := require_bind_eq_ok.mp h
  obtain ⟨hcount, h⟩ := require_bind_eq_ok.mp h
  obtain ⟨heligible, h⟩ := require_bind_eq_ok.mp h
  exact ⟨htopic, hlimit, hanchors, hcount, heligible⟩

theorem exists_plan {topic : Str} {maxAnchors : ℤ} (h : Retrievable T topic anchors maxAnchors) :
    ∃ plan, retrieveGenerationAnchors T score topic anchors maxAnchors = .ok plan := by
  rw [retrieveGenerationAnchors, require_of h.topic, ok_bind, require_of h.limit, ok_bind,
    require_of h.nonempty, ok_bind, require_of h.count, ok_bind]
  dsimp only
  rw [require_of h.eligible, ok_bind]
  exact ⟨_, rfl⟩

/-- The anchors of the plan are those of the selected ids. -/
theorem length_selected (hunique : (anchors.map (·.id)).Nodup)
    (hlimit : limit ≤ (eligibleAnchors T anchors).length) :
    ((eligibleAnchors T anchors).filter
      (·.id ∈ selectedIds limit (scoredCandidates T score query anchors))).length = limit := by
  have hranked : Ranked (scoredCandidates T score query anchors) := ranked_scoredCandidates hunique
  have hperm := map_anchor_scoredCandidates T score query anchors
  have hlength : limit ≤ (scoredCandidates T score query anchors).length := by
    rw [← List.length_map (·.anchor), hperm.length_eq]
    exact hlimit
  have hids : (((eligibleAnchors T anchors).filter
      (·.id ∈ selectedIds limit (scoredCandidates T score query anchors))).map (·.id)).Perm
        (selectedIds limit (scoredCandidates T score query anchors)) := by
    refine (List.perm_ext_iff_of_nodup ?_ (nodup_selectedIds hranked)).mpr fun id ↦ ?_
    · exact hunique.sublist ((List.filter_sublist.trans List.filter_sublist).map _)
    · simp only [List.mem_map, List.mem_filter, decide_eq_true_eq]
      constructor
      · rintro ⟨a, ⟨-, ha⟩, rfl⟩
        exact ha
      · intro hid
        obtain ⟨c, hc, rfl⟩ := List.mem_map.mp (selectedIds_subset hranked id hid)
        exact ⟨c.anchor, ⟨hperm.mem_iff.mp (List.mem_map_of_mem hc), hid⟩, rfl⟩
  rw [← List.length_map (·.id), hids.length_eq, length_selectedIds hranked hlength]

/-- **The anchors of a plan** are chosen fairly. -/
theorem best_selected (hunique : (anchors.map (·.id)).Nodup)
    (hlimit : limit = min n (eligibleAnchors T anchors).length) :
    ∃ best : List RuntimeSourceAnchor, (best.map (·.revisionId)).Nodup ∧
      (∀ b ∈ best, b ∈ eligibleAnchors T anchors) ∧
      (∀ a ∈ eligibleAnchors T anchors, ∃ b ∈ best, b.revisionId = a.revisionId ∧
        score query a.exactQuote ≤ score query b.exactQuote) ∧
      (best.length ≤ n → ∀ b ∈ best, b ∈ (eligibleAnchors T anchors).filter
        (·.id ∈ selectedIds limit (scoredCandidates T score query anchors))) ∧
      ∀ a ∈ eligibleAnchors T anchors, a ∉ (eligibleAnchors T anchors).filter
          (·.id ∈ selectedIds limit (scoredCandidates T score query anchors)) →
        ∀ s ∈ (eligibleAnchors T anchors).filter
          (·.id ∈ selectedIds limit (scoredCandidates T score query anchors)), s ∉ best →
            score query a.exactQuote ≤ score query s.exactQuote := by
  have hranked : Ranked (scoredCandidates T score query anchors) := ranked_scoredCandidates hunique
  have hperm := map_anchor_scoredCandidates T score query anchors
  have hmem : ∀ a ∈ eligibleAnchors T anchors, ∃ c ∈ scoredCandidates T score query anchors,
      c.anchor = a := fun a ha ↦ List.mem_map.mp (hperm.mem_iff.mpr ha)
  have hof : ∀ c ∈ scoredCandidates T score query anchors, c.anchor ∈ eligibleAnchors T anchors :=
    fun c hc ↦ hperm.mem_iff.mp (List.mem_map_of_mem hc)
  have hsub := reserved_sublist (scoredCandidates T score query anchors)
  refine ⟨(reserved (scoredCandidates T score query anchors)).map (·.anchor), ?_, ?_, ?_, ?_, ?_⟩
  · rw [List.map_map]
    exact nodup_map_firsts Candidate.revisionId _
  · exact List.forall_mem_map.mpr fun c hc ↦ hof c (hsub.subset hc)
  · intro a ha
    obtain ⟨c, hc, rfl⟩ := hmem a ha
    obtain ⟨b, hb, hrevision, hle⟩ := exists_reserved hranked hc
    rw [score_of_mem hc, score_of_mem (hsub.subset hb)] at hle
    exact ⟨b.anchor, List.mem_map_of_mem hb, hrevision, hle⟩
  · intro hroom
    refine List.forall_mem_map.mpr fun c hc ↦ List.mem_filter.mpr ⟨hof c (hsub.subset hc), ?_⟩
    have hslots : (reserved (scoredCandidates T score query anchors)).length ≤ limit := by
      have hlength := hsub.length_le
      have hcandidates := hperm.length_eq
      rw [List.length_map] at hcandidates
      rw [List.length_map] at hroom
      omega
    rw [decide_eq_true_eq, selectedIds_eq hranked, retainedIds_eq hranked,
      List.take_of_length_le hslots]
    exact List.mem_append_left _ (List.mem_map_of_mem hc)
  · intro a ha hout s hs hbest
    obtain ⟨c, hc, rfl⟩ := hmem a ha
    obtain ⟨hs, hselected⟩ := List.mem_filter.mp hs
    have hout : c.anchor.id ∉ selectedIds limit (scoredCandidates T score query anchors) :=
      fun hin ↦ hout (List.mem_filter.mpr ⟨ha, decide_eq_true hin⟩)
    have hselected := of_decide_eq_true hselected
    rw [selectedIds_eq hranked] at hselected
    have hsame : ∀ d ∈ scoredCandidates T score query anchors, d.anchor.id = s.id → d.anchor = s :=
      fun d hd heq ↦ List.inj_on_of_nodup_map hunique (List.mem_filter.mp (hof d hd)).1
        (List.mem_filter.mp hs).1 heq
    rcases List.mem_append.mp hselected with hretained | hadded
    · rw [retainedIds_eq hranked] at hretained
      obtain ⟨d, hd, hid⟩ := List.mem_map.mp hretained
      have hd := List.take_subset _ _ hd
      exact absurd (List.mem_map.mpr ⟨d, hd, hsame d (hsub.subset hd) hid⟩) hbest
    · obtain ⟨d, hd, hid⟩ := List.mem_map.mp hadded
      have hin : d ∈ scoredCandidates T score query anchors :=
        (List.mem_filter.mp (List.take_subset _ _ hd)).1
      have hle := le_of_left_out hranked hc hout hd
      rwa [score_of_mem hc, score_of_mem hin, hsame d hin hid] at hle

/-- **The retrieval is fair.** It returns for all that it asks of its arguments; the selection takes the
best of each revision as long as there are slots, and otherwise the best. -/
theorem retrieveGenerationAnchors_fair (T : TextTables) (score : Str → Str → S) (topic : Str)
    {anchors : List RuntimeSourceAnchor} (maxAnchors : ℤ) (hunique : (anchors.map (·.id)).Nodup) :
    ((∃ plan, retrieveGenerationAnchors T score topic anchors maxAnchors = .ok plan) ↔
      Retrievable T topic anchors maxAnchors) ∧
    ∀ plan, retrieveGenerationAnchors T score topic anchors maxAnchors = .ok plan →
      FairRetrieval T (fun a ↦ score (normalizeQuery T topic) a.exactQuote) anchors maxAnchors.toNat
        plan := by
  refine ⟨⟨fun ⟨_, h⟩ ↦ retrieveGenerationAnchors_eq_ok h, exists_plan⟩, fun plan h ↦ ?_⟩
  obtain ⟨-, h⟩ := require_bind_eq_ok.mp h
  obtain ⟨-, h⟩ := require_bind_eq_ok.mp h
  obtain ⟨-, h⟩ := require_bind_eq_ok.mp h
  obtain ⟨-, h⟩ := require_bind_eq_ok.mp h
  obtain ⟨-, h⟩ := require_bind_eq_ok.mp h
  rw [← Except.ok.inj h]
  refine ⟨List.filter_sublist.trans List.filter_sublist, fun a ha ↦ (List.mem_filter.mp ha).1,
    length_selected hunique (min_le_right _ _), ?_, best_selected hunique rfl, ?_, rfl, rfl⟩
  · have hranked := ((map_anchor_scoredCandidates T score (normalizeQuery T topic) anchors).filter
      (·.id ∈ selectedIds (min maxAnchors.toNat (eligibleAnchors T anchors).length)
        (scoredCandidates T score (normalizeQuery T topic) anchors))).map (·.id)
    rw [List.filter_map, List.map_map] at hranked
    exact hranked
  · rw [← List.map_append]
    exact (List.filter_append_perm _ _).map _

end Select

/-! ### Two revisions -/

/-- What the tables say of small letters, digits and punctuation of ASCII. -/
def asciiTables : TextTables := ⟨id, id, id, asciiWord⟩

/-- An anchor of a paragraph. -/
def paragraphAnchor (id revisionId : UUID) (text : Str) (h : ¬Blank text) : RuntimeSourceAnchor :=
  ⟨id, revisionId, text, lit "factual_claim", lit "paragraph", none, h, factualClaim_not_blank,
    paragraph_not_blank, unit_none⟩

/-- Two anchors of one revision, and a short one of another. -/
def twoRevisions : List RuntimeSourceAnchor :=
  [paragraphAnchor 1 10 (lit "the budget is 300") (by decide),
    paragraphAnchor 2 10 (lit "it ends in may") (by decide),
    paragraphAnchor 3 20 (lit "no") (by decide)]

theorem retrieveGenerationAnchors_fair_twoRevisions : ∃ plan,
    retrieveGenerationAnchors asciiTables (fun _ text ↦ text.length) (lit "budget") twoRevisions 2 =
        .ok plan ∧
      FairRetrieval asciiTables (fun a ↦ a.exactQuote.length) twoRevisions 2 plan := by
  obtain ⟨hreturns, hfair⟩ := retrieveGenerationAnchors_fair asciiTables
    (fun _ text ↦ text.length) (lit "budget") 2 (by decide : (twoRevisions.map (·.id)).Nodup)
  obtain ⟨plan, hplan⟩ := hreturns.mpr ⟨by decide +kernel, by decide, List.cons_ne_nil _ _,
    by decide, by decide +kernel⟩
  exact ⟨plan, hplan, hfair plan hplan⟩

end MeetingRag
