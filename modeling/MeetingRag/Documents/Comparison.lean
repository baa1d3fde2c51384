import Mathlib.Data.String.Basic
import MeetingRag.Documents.Blocks
import MeetingRag.Library.Binary64
import MeetingRag.Library.Choice
import MeetingRag.Library.Greedy
import MeetingRag.Library.Loops

/-!
# Comparing two documents

Anchors of two revisions are compared where they share a bucket of their embeddings. The pairs that reach
the threshold are sorted, the best first, and matched greedily. So the matching is maximal; and since ties
are broken by positions, and two pairs that conflict share one position, it does not matter which document
is the left one.

The embedding and the similarity of two texts are computed in floating point, so they are parameters.
-/

open Lists Outcome Py Text

namespace MeetingRag

/-- An anchor with the revision it belongs to. -/
structure RevisionAnchor extends ComparisonAnchor where
  revisionId : UUID
deriving DecidableEq, Repr

/-- `Literal["duplicate", "similar"]` -/
inductive MatchRelation
  | duplicate | similar
deriving DecidableEq, Repr

structure ComparisonMatch where
  left : RevisionAnchor
  right : RevisionAnchor
  similarity : PyFloat
  relation : MatchRelation
deriving DecidableEq

/-- The field `matched` is `matches`. -/
structure DocumentComparison where
  leftRevisionId : UUID
  rightRevisionId : UUID
  matched : List ComparisonMatch
  leftOnly : List RevisionAnchor
  rightOnly : List RevisionAnchor
deriving DecidableEq

def maxComparisonAnchors : ℕ := 2000

def maxCandidatePairs : ℕ := 200000

/-- The binary64 value of `0.92`. -/
def duplicateThreshold : ℚ := 8286623314361713 / 2 ^ 53

/-- `_dominant_buckets` -/
def dominantBuckets (vector : List ℚ) : List ℕ :=
  (((sortedBy (fun v : ℚ × ℕ ↦ toLex (OrderDual.toDual |v.1|, v.2)) vector.zipIdx).take 12).filter
    (·.1 ≠ 0)).map (·.2)

/-- A pair of positions, left and right, with the similarity of their texts. -/
structure CandidatePair where
  score : ℚ
  left : ℕ
  right : ℕ
deriving DecidableEq, Repr

/-- The key that the candidates are sorted by. -/
def CandidatePair.key (c : CandidatePair) : ℚᵒᵈ ×ₗ ℕ ×ₗ ℕ :=
  toLex (OrderDual.toDual c.score, toLex (c.left, c.right))

section Compare

variable (embedText : String → List ℚ) (similarity : String → String → ℚ)

def bucketsOf (anchor : RevisionAnchor) : List ℕ := dominantBuckets (embedText anchor.text)

/-- `right_buckets`: the buckets with the positions that they hold. -/
def rightBuckets (right : List RevisionAnchor) : List (ℕ × ℕ) :=
  right.zipIdx.flatMap fun r ↦ (bucketsOf embedText r.1).map (·, r.2)

/-- `sorted(possible)`, with the anchors at these positions. -/
def possibleFor (right : List RevisionAnchor) (anchor : RevisionAnchor) : List (RevisionAnchor × ℕ) :=
  right.zipIdx.filter fun r ↦ ∃ bucket ∈ bucketsOf embedText anchor,
    (bucket, r.2) ∈ rightBuckets embedText right

/-- One turn of the inner loop: count the pair, and keep it if it reaches the threshold. -/
def comparePair (threshold : ℚ) (state : ℕ × List CandidatePair)
    (pair : (RevisionAnchor × ℕ) × (RevisionAnchor × ℕ)) : Except Error (ℕ × List CandidatePair) := do
  let comparedPairs := state.1 + 1
  require (comparedPairs ≤ maxCandidatePairs) (.valueError "comparison work budget exceeded")
  let score := similarity pair.1.1.text pair.2.1.text
  .ok (comparedPairs,
    if threshold ≤ score then state.2 ++ [⟨score, pair.1.2, pair.2.2⟩] else state.2)

/-- The two loops that collect the candidates. -/
def collectCandidates (threshold : ℚ) (left right : List RevisionAnchor) :
    Except Error (ℕ × List CandidatePair) :=
  left.zipIdx.foldlM (fun state l ↦ (possibleFor embedText right l.1).foldlM
    (fun state r ↦ comparePair similarity threshold state (l, r)) state) (0, [])

/-- `used_left`, `used_right` and the pairs that were matched. -/
structure Matching where
  usedLeft : List ℕ
  usedRight : List ℕ
  pairs : List CandidatePair

/-- One turn of the loop over the sorted candidates. -/
def matchPair (m : Matching) (c : CandidatePair) : Matching :=
  if c.left ∈ m.usedLeft ∨ c.right ∈ m.usedRight then m
  else ⟨m.usedLeft ++ [c.left], m.usedRight ++ [c.right], m.pairs ++ [c]⟩

def matchPairs (candidates : List CandidatePair) : Matching :=
  (sortedBy CandidatePair.key candidates).foldl matchPair ⟨[], [], []⟩

def relationOf (score : ℚ) : MatchRelation :=
  if duplicateThreshold ≤ score then .duplicate else .similar

/-- The match of a pair of positions. -/
def renderMatch (left right : List RevisionAnchor) (c : CandidatePair) : Option ComparisonMatch := do
  let l ← left[c.left]?
  let r ← right[c.right]?
  some ⟨l, r, roundDigits c.score, relationOf c.score⟩

/-- The key that the matches are sorted by. -/
def ComparisonMatch.key (m : ComparisonMatch) : String ×ₗ String :=
  toLex (m.left.anchorId.str, m.right.anchorId.str)

/-- The anchors at positions that were not used. -/
def unusedAnchors (anchors : List RevisionAnchor) (used : List ℕ) : List RevisionAnchor :=
  (anchors.zipIdx.filter (·.2 ∉ used)).map (·.1)

/-- `compare_anchor_sets` -/
def compareAnchorSets (leftRevisionId rightRevisionId : UUID) (left right : List RevisionAnchor)
    (similarityThreshold : ℚ) : Except Error DocumentComparison := do
  require (leftRevisionId ≠ rightRevisionId) (.valueError "comparison revisions must be different")
  require (1 / 2 ≤ similarityThreshold ∧ similarityThreshold ≤ 1)
    (.valueError "similarity threshold must be between 0.5 and 1")
  require (∀ anchor ∈ left, anchor.revisionId = leftRevisionId)
    (.valueError "left comparison anchors do not match their revision")
  require (∀ anchor ∈ right, anchor.revisionId = rightRevisionId)
    (.valueError "right comparison anchors do not match their revision")
  require (left.length ≤ maxComparisonAnchors ∧ right.length ≤ maxComparisonAnchors)
    (.valueError "comparison anchor limit exceeded")
  let collected ← collectCandidates embedText similarity similarityThreshold left right
  let matching := matchPairs collected.2
  .ok
    { leftRevisionId := leftRevisionId
      rightRevisionId := rightRevisionId
      matched := sortedBy ComparisonMatch.key (matching.pairs.filterMap (renderMatch left right))
      leftOnly := unusedAnchors left matching.usedLeft
      rightOnly := unusedAnchors right matching.usedRight }

end Compare

/-! ## The candidates -/

section Candidates

variable {embedText : String → List ℚ} {similarity : String → String → ℚ} {threshold : ℚ}
  {left right : List RevisionAnchor}

/-- Two anchors share a bucket. -/
def ShareBucket (embedText : String → List ℚ) (l r : RevisionAnchor) : Prop :=
  ∃ bucket ∈ bucketsOf embedText l, bucket ∈ bucketsOf embedText r

/-- The pairs of positions that are compared, with their anchors. -/
def comparedPairs (embedText : String → List ℚ) (left right : List RevisionAnchor) :
    List ((RevisionAnchor × ℕ) × (RevisionAnchor × ℕ)) :=
  left.zipIdx.flatMap fun l ↦ (possibleFor embedText right l.1).map (l, ·)

theorem mem_possibleFor {l : RevisionAnchor} {r : RevisionAnchor × ℕ} :
    r ∈ possibleFor embedText right l ↔ r ∈ right.zipIdx ∧ ShareBucket embedText l r.1 := by
  rw [possibleFor, List.mem_filter, decide_eq_true_eq]
  refine and_congr_right fun hr ↦ exists_congr fun bucket ↦ and_congr_right fun _ ↦ ?_
  simp only [rightBuckets, List.mem_flatMap, List.mem_map, Prod.mk.injEq]
  constructor
  · rintro ⟨r', hr', b, hb, rfl, hindex⟩
    have hsame : r' = r := Prod.ext
      (Option.some.inj ((List.mem_zipIdx_iff_getElem?.mp hr').symm.trans
        (hindex ▸ List.mem_zipIdx_iff_getElem?.mp hr))) hindex
    exact hsame ▸ hb
  · exact fun hbucket ↦ ⟨r, hr, bucket, hbucket, rfl, rfl⟩

theorem mem_comparedPairs {l r : RevisionAnchor × ℕ} :
    (l, r) ∈ comparedPairs embedText left right ↔
      l ∈ left.zipIdx ∧ r ∈ right.zipIdx ∧ ShareBucket embedText l.1 r.1 := by
  simp only [comparedPairs, List.mem_flatMap, List.mem_map, Prod.mk.injEq, mem_possibleFor]
  constructor
  · rintro ⟨l', hl, r', hr, rfl, rfl⟩
    exact ⟨hl, hr⟩
  · rintro ⟨hl, hr⟩
    exact ⟨l, hl, r, hr, rfl, rfl⟩

/-- The candidate of a compared pair. -/
def candidateOf (similarity : String → String → ℚ) (threshold : ℚ)
    (pair : (RevisionAnchor × ℕ) × (RevisionAnchor × ℕ)) : Option CandidatePair :=
  if threshold ≤ similarity pair.1.1.text pair.2.1.text then
    some ⟨similarity pair.1.1.text pair.2.1.text, pair.1.2, pair.2.2⟩
  else none

/-- The pairs that reach the threshold. -/
def candidates (embedText : String → List ℚ) (similarity : String → String → ℚ) (threshold : ℚ)
    (left right : List RevisionAnchor) : List CandidatePair :=
  (comparedPairs embedText left right).filterMap (candidateOf similarity threshold)

theorem foldlM_comparePair (pairs : List ((RevisionAnchor × ℕ) × (RevisionAnchor × ℕ))) (n : ℕ)
    (cs : List CandidatePair) (hn : n ≤ maxCandidatePairs) :
    pairs.foldlM (comparePair similarity threshold) (n, cs) =
      if n + pairs.length ≤ maxCandidatePairs then
        .ok (n + pairs.length, cs ++ pairs.filterMap (candidateOf similarity threshold))
      else .error (.valueError "comparison work budget exceeded") := by
  induction pairs generalizing n cs with
  | nil =>
    rw [List.length_nil, Nat.add_zero, if_pos hn, List.filterMap_nil, List.append_nil]
    rfl
  | cons pair pairs ih =>
    rw [List.foldlM_cons, comparePair]
    by_cases hroom : n + 1 ≤ maxCandidatePairs
    · rw [require_of hroom, ok_bind, ok_bind, ih _ _ hroom, List.length_cons, Nat.add_right_comm n 1,
        Nat.add_assoc n]
      refine if_congr Iff.rfl ?_ rfl
      by_cases hscore : threshold ≤ similarity pair.1.1.text pair.2.1.text
      · have hcandidate : candidateOf similarity threshold pair =
            some ⟨similarity pair.1.1.text pair.2.1.text, pair.1.2, pair.2.2⟩ := if_pos hscore
        rw [if_pos hscore, List.filterMap_cons_some hcandidate, List.append_assoc,
          List.singleton_append]
      · have hcandidate : candidateOf similarity threshold pair = none := if_neg hscore
        rw [if_neg hscore, List.filterMap_cons_none hcandidate]
    · rw [require_of_not hroom, error_bind, error_bind, if_neg (by rw [List.length_cons]; omega)]

/-- **The candidates are collected** unless there are too many pairs. -/
theorem collectCandidates_eq (threshold : ℚ) (left right : List RevisionAnchor) :
    collectCandidates embedText similarity threshold left right =
      if (comparedPairs embedText left right).length ≤ maxCandidatePairs then
        .ok ((comparedPairs embedText left right).length,
          candidates embedText similarity threshold left right)
      else .error (.valueError "comparison work budget exceeded") := by
  have hloop : collectCandidates embedText similarity threshold left right =
      (comparedPairs embedText left right).foldlM (comparePair similarity threshold) (0, []) := by
    rw [comparedPairs, foldlM_flatMap]
    simp only [List.foldlM_map]
    rfl
  rw [hloop, foldlM_comparePair _ 0 [] (Nat.zero_le _), Nat.zero_add, List.nil_append]
  rfl

end Candidates

/-! ## The matching -/

/-- Two pairs have a position in common. -/
def Conflict (c d : CandidatePair) : Prop := c.left = d.left ∨ c.right = d.right

instance : DecidableRel Conflict := fun c d ↦
  inferInstanceAs (Decidable (c.left = d.left ∨ c.right = d.right))

theorem key_injective : Function.Injective CandidatePair.key := by
  intro c d h
  obtain ⟨hscore, h⟩ := Prod.ext_iff.mp (toLex.injective h)
  obtain ⟨hleft, hright⟩ := Prod.ext_iff.mp (toLex.injective h)
  cases c
  cases d
  exact CandidatePair.mk.injEq .. ▸ ⟨OrderDual.toDual_inj.mp hscore, hleft, hright⟩

/-- The used positions are those of the pairs, and the pairs are the greedy selection. -/
theorem foldl_matchPair (cs : List CandidatePair) :
    cs.foldl matchPair ⟨[], [], []⟩ = ⟨(greedy Conflict cs).map (·.left),
      (greedy Conflict cs).map (·.right), greedy Conflict cs⟩ := by
  induction cs using List.reverseRecOn with
  | nil => rfl
  | append_singleton cs c ih =>
    have hused : (c.left ∈ (greedy Conflict cs).map (·.left) ∨
        c.right ∈ (greedy Conflict cs).map (·.right)) ↔ ∃ d ∈ greedy Conflict cs, Conflict d c := by
      simp only [List.mem_map, Conflict]
      constructor
      · rintro (⟨d, hd, heq⟩ | ⟨d, hd, heq⟩)
        · exact ⟨d, hd, .inl heq⟩
        · exact ⟨d, hd, .inr heq⟩
      · rintro ⟨d, hd, heq | heq⟩
        · exact .inl ⟨d, hd, heq⟩
        · exact .inr ⟨d, hd, heq⟩
    rw [List.foldl_append, ih, List.foldl_cons, List.foldl_nil, greedy_concat, matchPair, greedyStep]
    by_cases h : ∃ d ∈ greedy Conflict cs, Conflict d c
    · rw [if_pos h]
      exact if_pos (hused.mpr h)
    · rw [if_neg h, List.map_append, List.map_append]
      exact if_neg (hused.not.mpr h)

/-- The pairs that are matched, among the candidates. -/
def matchedPairs (cs : List CandidatePair) : List CandidatePair :=
  greedy Conflict (sortedBy CandidatePair.key cs)

theorem matchPairs_eq (cs : List CandidatePair) :
    matchPairs cs = ⟨(matchedPairs cs).map (·.left), (matchedPairs cs).map (·.right),
      matchedPairs cs⟩ := foldl_matchPair _

theorem matchedPairs_subset {cs : List CandidatePair} {c : CandidatePair} (h : c ∈ matchedPairs cs) :
    c ∈ cs := mem_sortedBy.mp ((greedy_sublist _).subset h)

/-- **One-to-one.** -/
theorem nodup_matchedPairs (cs : List CandidatePair) :
    ((matchedPairs cs).map (·.left)).Nodup ∧ ((matchedPairs cs).map (·.right)).Nodup := by
  have hfree : (matchedPairs cs).Pairwise fun a b ↦ ¬Conflict a b := pairwise_greedy _
  constructor
  · exact List.pairwise_map.mpr (hfree.imp fun h heq ↦ h (.inl heq))
  · exact List.pairwise_map.mpr (hfree.imp fun h heq ↦ h (.inr heq))

/-- **Stable.** A candidate that is not matched yields to one that scores at least as much. -/
theorem exists_better {cs : List CandidatePair} {c : CandidatePair} (hc : c ∈ cs)
    (hout : c ∉ matchedPairs cs) : ∃ d ∈ matchedPairs cs, Conflict d c ∧ c.score ≤ d.score := by
  obtain ⟨d, hd, hconflict, hle⟩ := exists_conflict (pairwise_sortedBy CandidatePair.key cs)
    (mem_sortedBy.mpr hc) hout
  refine ⟨d, hd, hconflict, ?_⟩
  rw [CandidatePair.key, CandidatePair.key, Prod.Lex.toLex_le_toLex] at hle
  rcases hle with hlt | ⟨heq, -⟩
  · exact OrderDual.toDual_le_toDual.mp hlt.le
  · exact (OrderDual.toDual_inj.mp heq).ge

/-! ## The comparison -/

section Result

variable {embedText : String → List ℚ} {similarity : String → String → ℚ} {threshold : ℚ}
  {left right : List RevisionAnchor}

theorem mem_candidates {c : CandidatePair} :
    c ∈ candidates embedText similarity threshold left right ↔
      ∃ l r, left[c.left]? = some l ∧ right[c.right]? = some r ∧ ShareBucket embedText l r ∧
        c.score = similarity l.text r.text ∧ threshold ≤ c.score := by
  simp only [candidates, List.mem_filterMap, candidateOf]
  constructor
  · rintro ⟨⟨⟨l, i⟩, r, j⟩, hpair, hc⟩
    obtain ⟨hl, hr, hshare⟩ := mem_comparedPairs.mp hpair
    rw [Option.ite_none_right_eq_some] at hc
    obtain ⟨hscore, hc⟩ := hc
    rw [← Option.some.inj hc]
    exact ⟨l, r, List.mem_zipIdx_iff_getElem?.mp hl, List.mem_zipIdx_iff_getElem?.mp hr, hshare, rfl,
      hscore⟩
  · rintro ⟨l, r, hl, hr, hshare, hscore, hreaches⟩
    refine ⟨((l, c.left), r, c.right), mem_comparedPairs.mpr
      ⟨List.mem_zipIdx_iff_getElem?.mpr hl, List.mem_zipIdx_iff_getElem?.mpr hr, hshare⟩, ?_⟩
    rw [if_pos (hscore ▸ hreaches), ← hscore]

/-- The elements at some positions are those that stand there. -/
theorem filterMap_getElem_perm {α : Type} {l : List α} {used : List ℕ} (hnodup : used.Nodup) :
    (used.filterMap (l[·]?)).Perm ((l.zipIdx.filter (·.2 ∈ used)).map Prod.fst) := by
  have hpairs : (used.filterMap fun i ↦ l[i]?.map (·, i)).Perm (l.zipIdx.filter (·.2 ∈ used)) := by
    refine (List.perm_ext_iff_of_nodup (hnodup.filterMap fun i j x hi hj ↦ ?_) ?_).mpr fun x ↦ ?_
    · obtain ⟨a, -, rfl⟩ := Option.mem_map.mp hi
      obtain ⟨b, -, hb⟩ := Option.mem_map.mp hj
      exact (Prod.mk.inj hb).2.symm
    · refine List.Nodup.filter _ (List.Nodup.of_map Prod.snd ?_)
      rw [List.zipIdx_map_snd]
      exact List.nodup_range'
    · simp only [List.mem_filterMap, Option.map_eq_some_iff, List.mem_filter, decide_eq_true_eq,
        List.mem_zipIdx_iff_getElem?]
      constructor
      · rintro ⟨i, hi, a, ha, rfl⟩
        exact ⟨ha, hi⟩
      · rintro ⟨ha, hi⟩
        exact ⟨x.2, hi, x.1, ha, rfl⟩
  have helements := hpairs.map Prod.fst
  rw [List.map_filterMap] at helements
  simpa only [Option.map_map, Function.comp_def, Option.map_id'] using helements

/-- What the positions that are used and those that are not hold is the list. -/
theorem perm_unusedAnchors {anchors : List RevisionAnchor} {used : List ℕ} (hnodup : used.Nodup) :
    (used.filterMap (anchors[·]?) ++ unusedAnchors anchors used).Perm anchors := by
  refine ((filterMap_getElem_perm hnodup).append_right _).trans ?_
  have hsplit := (List.filter_append_perm (fun x : RevisionAnchor × ℕ ↦ decide (x.2 ∈ used))
    anchors.zipIdx).map Prod.fst
  rw [List.map_append, List.zipIdx_map_fst] at hsplit
  simpa only [unusedAnchors, decide_not] using hsplit

/-- What the function asks of its arguments. -/
structure Comparable (embedText : String → List ℚ) (leftRevisionId rightRevisionId : UUID)
    (left right : List RevisionAnchor) (threshold : ℚ) : Prop where
  different : leftRevisionId ≠ rightRevisionId
  threshold : 1 / 2 ≤ threshold ∧ threshold ≤ 1
  ofLeft : ∀ anchor ∈ left, anchor.revisionId = leftRevisionId
  ofRight : ∀ anchor ∈ right, anchor.revisionId = rightRevisionId
  sizes : left.length ≤ maxComparisonAnchors ∧ right.length ≤ maxComparisonAnchors
  budget : (comparedPairs embedText left right).length ≤ maxCandidatePairs

/-- The pairs that a comparison matches. -/
def comparisonPairs (embedText : String → List ℚ) (similarity : String → String → ℚ) (threshold : ℚ)
    (left right : List RevisionAnchor) : List CandidatePair :=
  matchedPairs (candidates embedText similarity threshold left right)

/-- The result of a comparison that goes through. -/
def comparisonOf (embedText : String → List ℚ) (similarity : String → String → ℚ)
    (leftRevisionId rightRevisionId : UUID) (left right : List RevisionAnchor) (threshold : ℚ) :
    DocumentComparison :=
  let pairs := comparisonPairs embedText similarity threshold left right
  { leftRevisionId := leftRevisionId
    rightRevisionId := rightRevisionId
    matched := sortedBy ComparisonMatch.key (pairs.filterMap (renderMatch left right))
    leftOnly := unusedAnchors left (pairs.map (·.left))
    rightOnly := unusedAnchors right (pairs.map (·.right)) }

theorem compareAnchorSets_eq_ok {leftRevisionId rightRevisionId : UUID}
    {comparison : DocumentComparison} :
    compareAnchorSets embedText similarity leftRevisionId rightRevisionId left right threshold =
        .ok comparison ↔
      Comparable embedText leftRevisionId rightRevisionId left right threshold ∧
        comparison = comparisonOf embedText similarity leftRevisionId rightRevisionId left right
          threshold := by
  simp only [compareAnchorSets, require_bind_eq_ok, collectCandidates_eq]
  constructor
  · rintro ⟨hdifferent, hthreshold, hleft, hright, hsizes, h⟩
    split at h
    · next hbudget =>
      refine ⟨⟨hdifferent, hthreshold, hleft, hright, hsizes, hbudget⟩, ?_⟩
      rw [ok_bind, matchPairs_eq] at h
      exact (Except.ok.inj h).symm
    · cases h
  · rintro ⟨h, rfl⟩
    refine ⟨h.different, h.threshold, h.ofLeft, h.ofRight, h.sizes, ?_⟩
    rw [if_pos h.budget, ok_bind, matchPairs_eq]
    rfl

/-- A maximal greedy matching by positions. -/
structure GreedyComparison (embedText : String → List ℚ) (similarity : String → String → ℚ)
    (threshold : ℚ) (left right : List RevisionAnchor) (pairs : List CandidatePair)
    (comparison : DocumentComparison) : Prop where
  /-- The matches are those of the pairs. -/
  rendered : (comparison.matched.map some).Perm (pairs.map (renderMatch left right))
  oneToOne : (pairs.map (·.left)).Nodup ∧ (pairs.map (·.right)).Nodup
  /-- A pair was compared, and its score is the similarity and reaches the threshold. -/
  compared : ∀ c ∈ pairs, ∃ l r, left[c.left]? = some l ∧ right[c.right]? = some r ∧
    ShareBucket embedText l r ∧ c.score = similarity l.text r.text ∧ threshold ≤ c.score
  leftPartition : (comparison.matched.map (·.left) ++ comparison.leftOnly).Perm left
  rightPartition : (comparison.matched.map (·.right) ++ comparison.rightOnly).Perm right
  /-- A pair that reaches the threshold is matched, or shares a position with one that scores no less. -/
  stable : ∀ i j l r, left[i]? = some l → right[j]? = some r → ShareBucket embedText l r →
    threshold ≤ similarity l.text r.text →
      (∃ c ∈ pairs, c.left = i ∧ c.right = j) ∨
        ∃ c ∈ pairs, (c.left = i ∨ c.right = j) ∧ similarity l.text r.text ≤ c.score
  /-- The anchors that are left over stand at the positions of no pair, and of these none that were
  compared reach the threshold. -/
  leftovers : comparison.leftOnly = unusedAnchors left (pairs.map (·.left)) ∧
    comparison.rightOnly = unusedAnchors right (pairs.map (·.right)) ∧
    ∀ i j l r, left[i]? = some l → right[j]? = some r → i ∉ pairs.map (·.left) →
      j ∉ pairs.map (·.right) → ShareBucket embedText l r → similarity l.text r.text < threshold

theorem stable_comparisonPairs {i j : ℕ} {l r : RevisionAnchor} (hl : left[i]? = some l)
    (hr : right[j]? = some r) (hshare : ShareBucket embedText l r)
    (hreaches : threshold ≤ similarity l.text r.text) :
    (∃ c ∈ comparisonPairs embedText similarity threshold left right, c.left = i ∧ c.right = j) ∨
      ∃ c ∈ comparisonPairs embedText similarity threshold left right, (c.left = i ∨ c.right = j) ∧
        similarity l.text r.text ≤ c.score := by
  have hcandidate : (⟨similarity l.text r.text, i, j⟩ : CandidatePair) ∈
      candidates embedText similarity threshold left right :=
    mem_candidates.mpr ⟨l, r, hl, hr, hshare, rfl, hreaches⟩
  by_cases hmatched : (⟨similarity l.text r.text, i, j⟩ : CandidatePair) ∈
      comparisonPairs embedText similarity threshold left right
  · exact .inl ⟨_, hmatched, rfl, rfl⟩
  · obtain ⟨d, hd, hconflict, hscore⟩ := exists_better hcandidate hmatched
    exact .inr ⟨d, hd, hconflict, hscore⟩

/-- Every pair has anchors, so its match can be written down. -/
theorem map_renderMatch : (comparisonPairs embedText similarity threshold left right).map
    (renderMatch left right) = ((comparisonPairs embedText similarity threshold left right).filterMap
      (renderMatch left right)).map some := by
  rw [List.map_filterMap_some_eq_filter_map_isSome, List.filter_eq_self.mpr]
  refine List.forall_mem_map.mpr fun c hc ↦ ?_
  obtain ⟨l, r, hl, hr, -⟩ := mem_candidates.mp (matchedPairs_subset hc)
  rw [renderMatch, hl, hr]
  rfl

/-- The anchors of the matches are those at the positions of the pairs. -/
theorem map_matched {side : ComparisonMatch → RevisionAnchor} {position : CandidatePair → ℕ}
    {anchors : List RevisionAnchor} {leftRevisionId rightRevisionId : UUID}
    (hside : ∀ c l r, left[c.left]? = some l → right[c.right]? = some r →
      anchors[position c]? = (renderMatch left right c).map side) :
    ((comparisonOf embedText similarity leftRevisionId rightRevisionId left right
      threshold).matched.map side).Perm (((comparisonPairs embedText similarity threshold left
        right).map position).filterMap (anchors[·]?)) := by
  refine ((sortedBy_perm _ _).map side).trans (List.Perm.of_eq ?_)
  rw [List.map_filterMap, List.filterMap_map]
  refine List.filterMap_congr fun c hc ↦ ?_
  obtain ⟨l, r, hl, hr, -⟩ := mem_candidates.mp (matchedPairs_subset hc)
  exact (hside c l r hl hr).symm

theorem greedyComparison_of (leftRevisionId rightRevisionId : UUID) :
    GreedyComparison embedText similarity threshold left right
      (comparisonPairs embedText similarity threshold left right)
      (comparisonOf embedText similarity leftRevisionId rightRevisionId left right threshold) := by
  have honce := nodup_matchedPairs (candidates embedText similarity threshold left right)
  refine ⟨?_, honce, fun c hc ↦ mem_candidates.mp (matchedPairs_subset hc), ?_, ?_,
    fun i j l r ↦ stable_comparisonPairs, rfl, rfl, fun i j l r hl hr hi hj hshare ↦ ?_⟩
  · rw [map_renderMatch]
    exact (sortedBy_perm _ _).map some
  · refine ((map_matched fun c l r hl hr ↦ ?_).append_right _).trans (perm_unusedAnchors honce.1)
    rw [renderMatch, hl, hr]
    rfl
  · refine ((map_matched fun c l r hl hr ↦ ?_).append_right _).trans (perm_unusedAnchors honce.2)
    rw [renderMatch, hl, hr]
    rfl
  · by_contra hreaches
    rcases stable_comparisonPairs hl hr hshare (not_lt.mp hreaches) with
      ⟨c, hc, hleft, -⟩ | ⟨c, hc, hleft | hright, -⟩
    · exact hi (hleft ▸ List.mem_map_of_mem hc)
    · exact hi (hleft ▸ List.mem_map_of_mem hc)
    · exact hj (hright ▸ List.mem_map_of_mem hc)

end Result

/-- **The comparison is a maximal greedy matching**, one-to-one, of the pairs that share a bucket and
reach the threshold. -/
theorem compareAnchorSets_greedy (embedText : String → List ℚ) (similarity : String → String → ℚ)
    (leftRevisionId rightRevisionId : UUID) (left right : List RevisionAnchor) (threshold : ℚ) :
    ((∃ comparison, compareAnchorSets embedText similarity leftRevisionId rightRevisionId left right
        threshold = .ok comparison) ↔
      Comparable embedText leftRevisionId rightRevisionId left right threshold) ∧
    ∀ comparison, compareAnchorSets embedText similarity leftRevisionId rightRevisionId left right
        threshold = .ok comparison →
      ∃ pairs, GreedyComparison embedText similarity threshold left right pairs comparison := by
  refine ⟨⟨fun ⟨_, h⟩ ↦ (compareAnchorSets_eq_ok.mp h).1,
    fun h ↦ ⟨_, compareAnchorSets_eq_ok.mpr ⟨h, rfl⟩⟩⟩, fun comparison h ↦ ?_⟩
  rw [(compareAnchorSets_eq_ok.mp h).2]
  exact ⟨_, greedyComparison_of leftRevisionId rightRevisionId⟩

/-- Embeddings of two texts that have no bucket in common. -/
def twoBuckets (text : String) : List ℚ := if text = "agenda" then [1, 0] else [0, 1]

/-- Equal texts are alike, and no others. -/
def equalTexts (a b : String) : ℚ := if a = b then 1 else 0

/-- Two anchors, the first of which the other document has as well. -/
def leftAnchors : List RevisionAnchor := [⟨⟨1, "agenda"⟩, 10⟩, ⟨⟨2, "minutes"⟩, 10⟩]

def rightAnchors : List RevisionAnchor := [⟨⟨3, "agenda"⟩, 20⟩, ⟨⟨4, "agenda"⟩, 20⟩]

theorem comparable_agenda : Comparable twoBuckets 10 20 leftAnchors rightAnchors (3 / 4) where
  different := by decide
  threshold := by norm_num
  ofLeft := by decide
  ofRight := by decide
  sizes := by decide
  budget := by decide +kernel

theorem compareAnchorSets_greedy_agenda : ∃ comparison pairs,
    compareAnchorSets twoBuckets equalTexts 10 20 leftAnchors rightAnchors (3 / 4) = .ok comparison ∧
      GreedyComparison twoBuckets equalTexts (3 / 4) leftAnchors rightAnchors pairs comparison := by
  obtain ⟨hreturns, hgreedy⟩ :=
    compareAnchorSets_greedy twoBuckets equalTexts 10 20 leftAnchors rightAnchors (3 / 4)
  obtain ⟨comparison, hcomparison⟩ := hreturns.mpr comparable_agenda
  obtain ⟨pairs, hpairs⟩ := hgreedy comparison hcomparison
  exact ⟨comparison, pairs, hcomparison, hpairs⟩

end MeetingRag
