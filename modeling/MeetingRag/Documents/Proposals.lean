import Mathlib.Logic.Relation
import MeetingRag.Documents.Comparison
import MeetingRag.Library.Sha256

/-!
# Suggestions drawn from comparisons

The documents of a snapshot are compared pair by pair, and each comparison asks for proposals: to remove
the right one of two duplicates, to edit the right one of two similar anchors, to add what the other
document does not have. The first proposal of each kind for an anchor stands, up to one hundred.

A removal is asked for only by a duplicate in an earlier document. That one may be up for removal as well,
but then by a document before it; so some copy stays.
-/

open Lists Outcome Py Text

namespace MeetingRag

inductive ReportSuggestionKind
  | add | edit | remove
deriving DecidableEq, Repr

def ReportSuggestionKind.value : ReportSuggestionKind → String
  | add => "add"
  | edit => "edit"
  | remove => "remove"

/-- `AutomaticSuggestionProposal`, as a comparison makes it. -/
structure ComparisonProposal where
  comparisonKey : Str
  kind : ReportSuggestionKind
  sourceAnchorId : UUID
  suggestedText : String
  rationale : String
  targetBlockId : Option String
deriving DecidableEq

/-- A comparison with the titles of its two documents. -/
structure TitledComparison where
  leftTitle : String
  rightTitle : String
  comparison : DocumentComparison

/-- `value[:n]` -/
def truncate (n : ℕ) (value : String) : String := String.ofList (value.toList.take n)

/-- `f"{value:.2f}"` -/
def twoDecimals : PyFloat → String
  | .finite q =>
    let cents := (roundHalfEven (q * 100)).natAbs
    let fraction := decimal (cents % 100)
    (if q < 0 then "-" else "") ++ decimal (cents / 100) ++ "." ++
      (if fraction.length < 2 then "0" ++ fraction else fraction)
  | .inf => "inf"
  | .negInf => "-inf"
  | .nan => "nan"

/-- The arguments of one call of `append`. -/
structure ProposalRequest where
  kind : ReportSuggestionKind
  anchor : RevisionAnchor
  pairedAnchorId : Option UUID
  rationale : String
deriving DecidableEq

def ProposalRequest.dedupeKey (r : ProposalRequest) : ReportSuggestionKind × UUID :=
  (r.kind, r.anchor.anchorId)

def ProposalRequest.keyMaterial (r : ProposalRequest) : String :=
  join ":" [r.kind.value, r.anchor.anchorId.str, (r.pairedAnchorId.map UUID.str).getD "none"]

/-- The proposal that a call appends. -/
def ProposalRequest.proposal (r : ProposalRequest) : ComparisonProposal where
  comparisonKey := sha256Hex (encodeUtf8 (lit r.keyMaterial))
  kind := r.kind
  sourceAnchorId := r.anchor.anchorId
  suggestedText := truncate 10000 (strip r.anchor.text)
  rationale := truncate 2000 r.rationale
  targetBlockId := none

def maxProposals : ℕ := 100

/-- `seen` and `proposals` -/
structure ProposalState where
  seen : List (ReportSuggestionKind × UUID)
  proposals : List ComparisonProposal

/-- `append` -/
def appendProposal (s : ProposalState) (r : ProposalRequest) : ProposalState :=
  if r.dedupeKey ∈ s.seen ∨ maxProposals ≤ s.proposals.length then s
  else ⟨s.seen ++ [r.dedupeKey], s.proposals ++ [r.proposal]⟩

section Requests

variable (t : TitledComparison)

/-- What a match asks for. -/
def matchRequest (m : ComparisonMatch) : ProposalRequest :=
  match m.relation with
  | .duplicate =>
    { kind := .remove
      anchor := m.right
      pairedAnchorId := some m.left.anchorId
      rationale := "'" ++ t.rightTitle ++ "'의 내용이 '" ++ t.leftTitle ++ "'와 중복됩니다 (유사도 " ++
        twoDecimals m.similarity ++ "). 통합 보고서의 중복 표현 제거를 검토하세요." }
  | .similar =>
    { kind := .edit
      anchor := m.right
      pairedAnchorId := some m.left.anchorId
      rationale := "'" ++ t.rightTitle ++ "'와 '" ++ t.leftTitle ++
        "'의 유사한 진술이 서로 다릅니다 (유사도 " ++ twoDecimals m.similarity ++
        "). 표현과 사실 관계를 하나로 정리하세요." }

/-- What an anchor that only one of the documents has asks for. -/
def addRequest (title other : String) (anchor : RevisionAnchor) : ProposalRequest where
  kind := .add
  anchor := anchor
  pairedAnchorId := none
  rationale := "'" ++ title ++ "'에만 있는 내용입니다. '" ++ other ++
    "'와 비교해 통합 보고서에서 누락되지 않았는지 검토하세요."

/-- The calls of `append` for a comparison. -/
def requestsOf (matchedAnchorIds : List UUID) : List ProposalRequest :=
  t.comparison.matched.map (matchRequest t) ++
    (t.comparison.leftOnly.filter (·.anchorId ∉ matchedAnchorIds)).map
      (addRequest t.leftTitle t.rightTitle) ++
    (t.comparison.rightOnly.filter (·.anchorId ∉ matchedAnchorIds)).map
      (addRequest t.rightTitle t.leftTitle)

end Requests

/-- `matched_anchor_ids` -/
def matchedAnchorIds (comparisons : List TitledComparison) : List UUID :=
  comparisons.flatMap fun t ↦ t.comparison.matched.flatMap fun m ↦ [m.left.anchorId, m.right.anchorId]

/-- All calls of `append`, in order. -/
def proposalRequests (comparisons : List TitledComparison) : List ProposalRequest :=
  comparisons.flatMap fun t ↦ requestsOf t (matchedAnchorIds comparisons)

/-- `build_automatic_proposals` -/
def buildAutomaticProposals (comparisons : List TitledComparison) : List ComparisonProposal :=
  ((proposalRequests comparisons).foldl appendProposal ⟨[], []⟩).proposals

/-! ## The comparisons of a snapshot -/

/-- `combinations(documents, 2)` -/
def combinationsOfTwo {α : Type} : List α → List (α × α)
  | [] => []
  | x :: xs => xs.map (x, ·) ++ combinationsOfTwo xs

/-- The anchors of a document, each with its revision. -/
def SnapshotDocument.revisionAnchors (d : SnapshotDocument) : List RevisionAnchor :=
  d.anchors.map fun anchor ↦ ⟨anchor, d.revisionId⟩

/-- The binary64 value of `0.72`. -/
def defaultSimilarityThreshold : ℚ := 3242591731706757 / 2 ^ 52

def maxDocumentPairs : ℕ := 100

section Runner

variable (embedText : String → List ℚ) (similarity : String → String → ℚ)

/-- One turn of the loop over the pairs. -/
def compareDocumentPair (pair : SnapshotDocument × SnapshotDocument) :
    Except Error TitledComparison :=
  match compareAnchorSets embedText similarity pair.1.revisionId pair.2.revisionId
      pair.1.revisionAnchors pair.2.revisionAnchors defaultSimilarityThreshold with
  | .ok comparison => .ok ⟨pair.1.title, pair.2.title, comparison⟩
  | .error _ => .error (.automaticSuggestionRunner "snapshot comparison could not be completed")

/-- The pairwise comparisons of the runner. -/
def compareDocuments (documents : List SnapshotDocument) : Except Error (List TitledComparison) := do
  require ((combinationsOfTwo documents).length ≤ maxDocumentPairs)
    (.automaticSuggestionRunner "snapshot document comparison limit exceeded")
  (combinationsOfTwo documents).mapM (compareDocumentPair embedText similarity)

end Runner

/-! ## The proposals -/

section Proposals

variable {comparisons : List TitledComparison}

/-- The calls of `append` that are heeded. -/
def heededRequests (comparisons : List TitledComparison) : List ProposalRequest :=
  (firsts ProposalRequest.dedupeKey (proposalRequests comparisons)).take maxProposals

/-- **The proposals** are those of the first call of each kind for an anchor. -/
theorem buildAutomaticProposals_eq (comparisons : List TitledComparison) :
    buildAutomaticProposals comparisons =
      (heededRequests comparisons).map ProposalRequest.proposal := by
  have hfold : ∀ rs : List ProposalRequest, ∀ kept : List ProposalRequest,
      rs.foldl appendProposal ⟨kept.map ProposalRequest.dedupeKey, kept.map ProposalRequest.proposal⟩ =
        ⟨(rs.foldl (cappedStep maxProposals ProposalRequest.dedupeKey) kept).map
            ProposalRequest.dedupeKey,
          (rs.foldl (cappedStep maxProposals ProposalRequest.dedupeKey) kept).map
            ProposalRequest.proposal⟩ := by
    intro rs
    induction rs with
    | nil => exact fun _ ↦ rfl
    | cons r rs ih =>
      intro kept
      rw [List.foldl_cons, List.foldl_cons, ← ih, appendProposal, cappedStep, List.length_map]
      by_cases h : maxProposals ≤ kept.length ∨
          r.dedupeKey ∈ kept.map ProposalRequest.dedupeKey
      · rw [if_pos h, if_pos h.symm]
      · rw [if_neg h, if_neg fun h' ↦ h h'.symm, List.map_append, List.map_append]
        rfl
  rw [buildAutomaticProposals, heededRequests, ← foldl_cappedStep]
  exact congrArg ProposalState.proposals (hfold _ [])

theorem mem_of_heeded {r : ProposalRequest} (h : r ∈ heededRequests comparisons) :
    r ∈ proposalRequests comparisons := mem_of_mem_firsts (List.take_subset _ _ h)

theorem nodup_heeded (comparisons : List TitledComparison) :
    ((heededRequests comparisons).map ProposalRequest.dedupeKey).Nodup :=
  (nodup_map_firsts _ _).sublist ((List.take_sublist _ _).map _)

theorem value_no_colon (kind : ReportSuggestionKind) : ':' ∉ kind.value.toList := by
  cases kind <;> decide

theorem value_injective : Function.Injective ReportSuggestionKind.value := by
  intro k k' h
  cases k <;> cases k' <;> first | rfl | exact absurd h (by decide)

/-- The text that is hashed tells the kind and the anchor. -/
theorem dedupeKey_of_keyMaterial {r r' : ProposalRequest} (h : r.keyMaterial = r'.keyMaterial) :
    r.dedupeKey = r'.dedupeKey := by
  have hcolon : ∀ (r : ProposalRequest), ∀ s ∈ [r.kind.value, r.anchor.anchorId.str,
      (r.pairedAnchorId.map UUID.str).getD "none"], ':' ∉ s.toList := by
    intro r s hs hmem
    have hstr : ∀ u : UUID, ':' ∉ u.str.toList := fun u hu ↦ (UUID.mem_str hu).1 rfl
    simp only [List.mem_cons, List.not_mem_nil, or_false] at hs
    rcases hs with rfl | rfl | rfl
    · exact value_no_colon r.kind hmem
    · exact hstr _ hmem
    · cases hpaired : r.pairedAnchorId with
      | none => exact absurd (hpaired ▸ hmem) (by decide)
      | some u =>
        rw [hpaired] at hmem
        exact hstr u hmem
  have hparts := eq_of_join_eq (hcolon r) (hcolon r') (List.cons_ne_nil _ _) (List.cons_ne_nil _ _) h
  obtain ⟨hkind, hparts⟩ := List.cons.inj hparts
  obtain ⟨hanchor, -⟩ := List.cons.inj hparts
  rw [ProposalRequest.dedupeKey, ProposalRequest.dedupeKey, value_injective hkind,
    UUID.str_injective hanchor]

/-- The hash tells apart the texts that are hashed here. -/
def NoKeyCollision (comparisons : List TitledComparison) : Prop :=
  ∀ r ∈ proposalRequests comparisons, ∀ r' ∈ proposalRequests comparisons,
    r.proposal.comparisonKey = r'.proposal.comparisonKey → r.keyMaterial = r'.keyMaterial

theorem nodup_comparisonKeys (h : NoKeyCollision comparisons) :
    ((buildAutomaticProposals comparisons).map (·.comparisonKey)).Nodup := by
  rw [buildAutomaticProposals_eq, List.map_map]
  have hdistinct := nodup_heeded comparisons
  refine hdistinct.of_map.map_on fun r hr r' hr' heq ↦ ?_
  have hmaterial := h r (mem_of_heeded hr) r' (mem_of_heeded hr') heq
  exact List.inj_on_of_nodup_map hdistinct hr hr' (dedupeKey_of_keyMaterial hmaterial)

/-! ## What is asked for -/

/-- Some match says that the first anchor duplicates the second. -/
def DuplicateOf (comparisons : List TitledComparison) (a b : UUID) : Prop :=
  ∃ t ∈ comparisons, ∃ m ∈ t.comparison.matched, m.relation = .duplicate ∧
    m.right.anchorId = a ∧ m.left.anchorId = b

/-- A proposal asks to remove the anchor. -/
def RemovalProposed (comparisons : List TitledComparison) (a : UUID) : Prop :=
  ∃ p ∈ buildAutomaticProposals comparisons, p.kind = .remove ∧ p.sourceAnchorId = a

theorem mem_proposalRequests {r : ProposalRequest} (h : r ∈ proposalRequests comparisons) :
    (r.kind = .add → r.anchor.anchorId ∉ matchedAnchorIds comparisons) ∧
      (r.kind = .remove → ∃ b, DuplicateOf comparisons r.anchor.anchorId b) := by
  obtain ⟨t, ht, hr⟩ := List.mem_flatMap.mp h
  have hadd : ∀ (title other : String) (anchors : List RevisionAnchor),
      r ∈ (anchors.filter (·.anchorId ∉ matchedAnchorIds comparisons)).map (addRequest title other) →
        r.kind = .add ∧ r.anchor.anchorId ∉ matchedAnchorIds comparisons := by
    intro title other anchors hmem
    obtain ⟨anchor, hanchor, rfl⟩ := List.mem_map.mp hmem
    exact ⟨rfl, of_decide_eq_true (List.mem_filter.mp hanchor).2⟩
  rcases List.mem_append.mp hr with hr | hright
  · rcases List.mem_append.mp hr with hmatch | hleft
    · obtain ⟨m, hm, rfl⟩ := List.mem_map.mp hmatch
      rw [matchRequest]
      cases hrelation : m.relation with
      | duplicate => exact ⟨nofun, fun _ ↦ ⟨m.left.anchorId, t, ht, m, hm, hrelation, rfl, rfl⟩⟩
      | similar => exact ⟨nofun, nofun⟩
    · obtain ⟨hkind, hnew⟩ := hadd _ _ _ hleft
      exact ⟨fun _ ↦ hnew, fun hremove ↦ nomatch hkind.symm.trans hremove⟩
  · obtain ⟨hkind, hnew⟩ := hadd _ _ _ hright
    exact ⟨fun _ ↦ hnew, fun hremove ↦ nomatch hkind.symm.trans hremove⟩

/-- Every proposal is that of a call. -/
theorem exists_request {p : ComparisonProposal}
    (h : p ∈ buildAutomaticProposals comparisons) :
    ∃ r ∈ proposalRequests comparisons, p = r.proposal := by
  rw [buildAutomaticProposals_eq] at h
  obtain ⟨r, hr, rfl⟩ := List.mem_map.mp h
  exact ⟨r, mem_of_heeded hr, rfl⟩

end Proposals

/-! ## Chains of duplicates -/

/-- The comparison is one of an earlier document with a later one. -/
def Compares (documents : List SnapshotDocument) (t : TitledComparison) : Prop :=
  ∃ (i j : ℕ) (d e : SnapshotDocument), i < j ∧ documents[i]? = some d ∧ documents[j]? = some e ∧
    ∀ m ∈ t.comparison.matched, m.left.anchorId ∈ d.anchors.map (·.anchorId) ∧
      m.right.anchorId ∈ e.anchors.map (·.anchorId)

/-- The anchor stands in the document with the given number. -/
def StandsIn (documents : List SnapshotDocument) (i : ℕ) (a : UUID) : Prop :=
  ∃ d, documents[i]? = some d ∧ a ∈ d.anchors.map (·.anchorId)

/-- No anchor stands in two documents. -/
def DisjointDocuments (documents : List SnapshotDocument) : Prop :=
  ∀ i j a, StandsIn documents i a → StandsIn documents j a → i = j

section Chains

variable {documents : List SnapshotDocument} {comparisons : List TitledComparison}

theorem DuplicateOf.earlier (hover : ∀ t ∈ comparisons, Compares documents t) {a b : UUID}
    (h : DuplicateOf comparisons a b) :
    ∃ i j, i < j ∧ StandsIn documents i b ∧ StandsIn documents j a := by
  obtain ⟨t, ht, m, hm, -, rfl, rfl⟩ := h
  obtain ⟨i, j, d, e, hlt, hd, he, hanchors⟩ := hover t ht
  exact ⟨i, j, hlt, ⟨d, hd, (hanchors m hm).1⟩, ⟨e, he, (hanchors m hm).2⟩⟩

/-- **Some copy stays**: by induction on the number of the document. -/
theorem exists_chain (hdisjoint : DisjointDocuments documents)
    (hover : ∀ t ∈ comparisons, Compares documents t) {j : ℕ} {a : UUID}
    (ha : StandsIn documents j a) (hremoval : RemovalProposed comparisons a) :
    ∃ i b, i < j ∧ StandsIn documents i b ∧
      Relation.TransGen (DuplicateOf comparisons) a b ∧ ¬RemovalProposed comparisons b := by
  induction j using Nat.strong_induction_on generalizing a with
  | h j ih =>
    obtain ⟨p, hp, hkind, rfl⟩ := hremoval
    obtain ⟨r, hr, rfl⟩ := exists_request hp
    obtain ⟨b, hduplicate⟩ := (mem_proposalRequests hr).2 hkind
    obtain ⟨i, j', hlt, hb, ha'⟩ := hduplicate.earlier hover
    have hsame : j' = j := hdisjoint j' j _ ha' ha
    subst hsame
    by_cases hagain : RemovalProposed comparisons b
    · obtain ⟨k, c, hk, hc, hchain, hstays⟩ := ih i hlt hb hagain
      exact ⟨k, c, hk.trans hlt, hc, .head hduplicate hchain, hstays⟩
    · exact ⟨i, b, hlt, hb, .single hduplicate, hagain⟩

end Chains

/-! ### The documents of a snapshot -/

theorem exists_of_mem_combinationsOfTwo {α : Type} {xs : List α} {x y : α}
    (h : (x, y) ∈ combinationsOfTwo xs) :
    ∃ i j : ℕ, i < j ∧ xs[i]? = some x ∧ xs[j]? = some y := by
  induction xs with
  | nil => exact absurd h List.not_mem_nil
  | cons z xs ih =>
    rcases List.mem_append.mp h with h | h
    · obtain ⟨y, hy, heq⟩ := List.mem_map.mp h
      obtain ⟨rfl, rfl⟩ := Prod.mk.inj heq
      obtain ⟨j, hj⟩ := List.mem_iff_getElem?.mp hy
      exact ⟨0, j + 1, Nat.succ_pos j, rfl, hj⟩
    · obtain ⟨i, j, hlt, hx, hy⟩ := ih h
      exact ⟨i + 1, j + 1, Nat.succ_lt_succ hlt, hx, hy⟩

/-- The runner compares earlier documents with later ones. -/
theorem compares_of_compareDocuments {embedText : String → List ℚ}
    {similarity : String → String → ℚ} {documents : List SnapshotDocument}
    {comparisons : List TitledComparison}
    (h : compareDocuments embedText similarity documents = .ok comparisons) :
    ∀ t ∈ comparisons, Compares documents t := by
  intro t ht
  obtain ⟨-, h⟩ := require_bind_eq_ok.mp h
  obtain ⟨⟨d, e⟩, hpair, hcompared⟩ := exists_of_mem_mapM h ht
  obtain ⟨i, j, hlt, hd, he⟩ := exists_of_mem_combinationsOfTwo hpair
  rw [compareDocumentPair] at hcompared
  split at hcompared
  · next comparison hok =>
    have hgreedy : GreedyComparison embedText similarity defaultSimilarityThreshold d.revisionAnchors
        e.revisionAnchors _ _ := greedyComparison_of d.revisionId e.revisionId
    rw [← (compareAnchorSets_eq_ok.mp hok).2] at hgreedy
    rw [← Except.ok.inj hcompared]
    have hids : ∀ (f : SnapshotDocument) (a : RevisionAnchor), a ∈ f.revisionAnchors →
        a.anchorId ∈ f.anchors.map (·.anchorId) := by
      intro f a ha
      obtain ⟨anchor, hanchor, rfl⟩ := List.mem_map.mp ha
      exact List.mem_map_of_mem hanchor
    refine ⟨i, j, d, e, hlt, hd, he, fun m hm ↦ ⟨hids d _ ?_, hids e _ ?_⟩⟩
    · exact hgreedy.leftPartition.subset (List.mem_append_left _ (List.mem_map_of_mem hm))
    · exact hgreedy.rightPartition.subset (List.mem_append_left _ (List.mem_map_of_mem hm))
  · exact nomatch hcompared

/-- Anchors with different ids stand in one document each. -/
theorem disjointDocuments_of_nodup {documents : List SnapshotDocument}
    (h : (documents.flatMap fun d ↦ d.anchors.map (·.anchorId)).Nodup) :
    DisjointDocuments documents := by
  have hpairwise := (List.nodup_flatMap.mp h).2
  rintro i j a ⟨d, hd, had⟩ ⟨e, he, hae⟩
  obtain ⟨hi, rfl⟩ := List.getElem?_eq_some_iff.mp hd
  obtain ⟨hj, rfl⟩ := List.getElem?_eq_some_iff.mp he
  rcases lt_trichotomy i j with hlt | heq | hlt
  · exact absurd hae (List.pairwise_iff_getElem.mp hpairwise i j hi hj hlt had)
  · exact heq
  · exact absurd had (List.pairwise_iff_getElem.mp hpairwise j i hj hi hlt hae)

/-! ### Safety -/

/-- What is promised of the proposals. -/
structure SafeProposals (documents : List SnapshotDocument) (comparisons : List TitledComparison)
    (proposals : List ComparisonProposal) : Prop where
  bounded : proposals.length ≤ 100
  distinct : (proposals.map fun p ↦ (p.kind, p.sourceAnchorId)).Nodup
  keys : NoKeyCollision comparisons → (proposals.map (·.comparisonKey)).Nodup
  /-- What is to be added was matched in no comparison. -/
  added : ∀ p ∈ proposals, p.kind = .add → ∀ t ∈ comparisons, ∀ m ∈ t.comparison.matched,
    p.sourceAnchorId ≠ m.left.anchorId ∧ p.sourceAnchorId ≠ m.right.anchorId
  /-- What is to be removed has a copy in an earlier document that stays. -/
  removed : ∀ p ∈ proposals, p.kind = .remove →
    ∃ i j b, i < j ∧ StandsIn documents i b ∧ StandsIn documents j p.sourceAnchorId ∧
      Relation.TransGen (DuplicateOf comparisons) p.sourceAnchorId b ∧
      ∀ q ∈ proposals, q.kind = .remove → q.sourceAnchorId ≠ b

/-- **The proposals never remove all copies.** -/
theorem buildAutomaticProposals_safe {documents : List SnapshotDocument}
    {comparisons : List TitledComparison} (hdisjoint : DisjointDocuments documents)
    (hover : ∀ t ∈ comparisons, Compares documents t) :
    SafeProposals documents comparisons (buildAutomaticProposals comparisons) := by
  refine ⟨?_, ?_, nodup_comparisonKeys, fun p hp hkind t ht m hm ↦ ?_, fun p hp hkind ↦ ?_⟩
  · rw [buildAutomaticProposals_eq, List.length_map]
    exact List.length_take_le _ _
  · rw [buildAutomaticProposals_eq, List.map_map]
    exact nodup_heeded comparisons
  · obtain ⟨r, hr, rfl⟩ := exists_request hp
    have hnew := (mem_proposalRequests hr).1 hkind
    have hids : ∀ a ∈ [m.left.anchorId, m.right.anchorId], a ∈ matchedAnchorIds comparisons :=
      fun a ha ↦ List.mem_flatMap.mpr ⟨t, ht, List.mem_flatMap.mpr ⟨m, hm, ha⟩⟩
    exact ⟨fun heq ↦ hnew (hids _ (heq ▸ List.mem_cons_self)),
      fun heq ↦ hnew (hids _ (heq ▸ List.mem_cons_of_mem _ List.mem_cons_self))⟩
  · obtain ⟨r, hr, rfl⟩ := exists_request hp
    obtain ⟨b, hduplicate⟩ := (mem_proposalRequests hr).2 hkind
    obtain ⟨-, j, -, -, hstands⟩ := hduplicate.earlier hover
    obtain ⟨i, c, hlt, hc, hchain, hstays⟩ := exists_chain hdisjoint hover hstands ⟨_, hp, hkind, rfl⟩
    exact ⟨i, j, c, hlt, hc, hstands, hchain, fun q hq hremove heq ↦ hstays ⟨q, hq, hremove, heq⟩⟩

/-- The same words in three documents. -/
def threeCopies : List SnapshotDocument :=
  [⟨10, "first", [⟨1, "agenda"⟩]⟩, ⟨20, "second", [⟨2, "agenda"⟩, ⟨3, "minutes"⟩]⟩,
    ⟨30, "third", [⟨4, "agenda"⟩]⟩]

theorem buildAutomaticProposals_safe_threeCopies : ∃ comparisons,
    compareDocuments twoBuckets equalTexts threeCopies = .ok comparisons ∧
      SafeProposals threeCopies comparisons (buildAutomaticProposals comparisons) := by
  have hreturns : (compareDocuments twoBuckets equalTexts threeCopies).toOption.isSome = true := by
    decide +kernel
  have hdisjoint : DisjointDocuments threeCopies := disjointDocuments_of_nodup (by decide)
  cases h : compareDocuments twoBuckets equalTexts threeCopies with
  | error e =>
    rw [h] at hreturns
    exact nomatch hreturns
  | ok comparisons =>
    exact ⟨comparisons, rfl, buildAutomaticProposals_safe hdisjoint (compares_of_compareDocuments h)⟩

end MeetingRag
