import MeetingRag.Documents.Comparison

/-!
# A comparison and its mirror image

Which document is the left one decides in which order candidates of equal score are tried: by the left
position first. Two candidates that conflict share one position, so both directions try them in the same
order, and this is all that the matching depends on.
-/

open Lists Outcome Text

namespace MeetingRag

def CandidatePair.swap (c : CandidatePair) : CandidatePair := ⟨c.score, c.right, c.left⟩

def ComparisonMatch.swap (m : ComparisonMatch) : ComparisonMatch :=
  ⟨m.right, m.left, m.similarity, m.relation⟩

/-- One comparison is the mirror image of the other. -/
structure MirrorImage (c d : DocumentComparison) : Prop where
  left : d.leftRevisionId = c.rightRevisionId
  right : d.rightRevisionId = c.leftRevisionId
  matched : d.matched.Perm (c.matched.map ComparisonMatch.swap)
  leftOnly : d.leftOnly = c.rightOnly
  rightOnly : d.rightOnly = c.leftOnly

section

variable {embedText : String → List ℚ} {similarity : String → String → ℚ} {threshold : ℚ}
  {left right : List RevisionAnchor}

theorem ShareBucket.symm {l r : RevisionAnchor} (h : ShareBucket embedText l r) :
    ShareBucket embedText r l :=
  let ⟨bucket, hl, hr⟩ := h
  ⟨bucket, hr, hl⟩

/-! ## The pairs that are compared -/

theorem pairwise_zipIdx_snd {α : Type} (l : List α) : l.zipIdx.Pairwise fun a b ↦ a.2 ≠ b.2 := by
  rw [← List.pairwise_map (f := Prod.snd) (R := (· ≠ ·)), List.zipIdx_map_snd]
  exact List.nodup_range'

/-- No two positions are compared twice. -/
theorem pairwise_comparedPairs (embedText : String → List ℚ) (left right : List RevisionAnchor) :
    (comparedPairs embedText left right).Pairwise fun p q ↦ p.1.2 = q.1.2 → p.2.2 ≠ q.2.2 := by
  refine pairwise_zipIdx (fun l ↦ ?_) fun l l' hne p hp q hq heq ↦ ?_
  · rw [List.pairwise_map, possibleFor]
    refine ((pairwise_zipIdx_snd right).filter _).imp ?_
    exact fun hne _ ↦ hne
  · obtain ⟨r, -, rfl⟩ := List.mem_map.mp hp
    obtain ⟨r', -, rfl⟩ := List.mem_map.mp hq
    exact absurd heq hne

theorem nodup_comparedPairs (embedText : String → List ℚ) (left right : List RevisionAnchor) :
    (comparedPairs embedText left right).Nodup :=
  (pairwise_comparedPairs embedText left right).imp fun h heq ↦
    h (congrArg (·.1.2) heq) (congrArg (·.2.2) heq)

/-- **As many pairs are compared in either direction.** -/
theorem length_comparedPairs_swap (embedText : String → List ℚ) (left right : List RevisionAnchor) :
    (comparedPairs embedText right left).length = (comparedPairs embedText left right).length := by
  have hperm : (comparedPairs embedText right left).Perm
      ((comparedPairs embedText left right).map Prod.swap) := by
    refine (List.perm_ext_iff_of_nodup (nodup_comparedPairs _ _ _)
      ((nodup_comparedPairs _ _ _).map Prod.swap_injective)).mpr fun p ↦ ?_
    obtain ⟨r, l⟩ := p
    simp only [List.mem_map, Prod.exists, Prod.swap_prod_mk, Prod.mk.injEq]
    rw [mem_comparedPairs]
    constructor
    · rintro ⟨hr, hl, hshare⟩
      exact ⟨l.1, l.2, r.1, r.2, mem_comparedPairs.mpr ⟨hl, hr, hshare.symm⟩, rfl, rfl⟩
    · rintro ⟨a, i, b, j, hpair, rfl, rfl⟩
      obtain ⟨hl, hr, hshare⟩ := mem_comparedPairs.mp hpair
      exact ⟨hr, hl, hshare.symm⟩
  rw [hperm.length_eq, List.length_map]

theorem nodup_candidates (embedText : String → List ℚ) (similarity : String → String → ℚ)
    (threshold : ℚ) (left right : List RevisionAnchor) :
    (candidates embedText similarity threshold left right).Nodup := by
  refine List.Pairwise.filterMap _ (fun p q hne c hc d hd heq ↦ ?_)
    (pairwise_comparedPairs embedText left right)
  rw [candidateOf, Option.ite_none_right_eq_some] at hc hd
  have hc := Option.some.inj hc.2
  have hd := Option.some.inj hd.2
  rw [← hc, ← hd, CandidatePair.mk.injEq] at heq
  exact hne heq.2.1 heq.2.2

/-! ## The pairs that are matched -/

/-- The candidates, the best first; no two are tried at once. -/
theorem pairwise_sorted {cs : List CandidatePair} (h : cs.Nodup) :
    (sortedBy CandidatePair.key cs).Pairwise fun c d ↦ c.key < d.key :=
  ((pairwise_sortedBy CandidatePair.key cs).and ((sortedBy_perm _ _).nodup_iff.mpr h)).imp
    fun ⟨hle, hne⟩ ↦ lt_of_le_of_ne hle fun heq ↦ hne (key_injective heq)

theorem mem_map_swap {cs : List CandidatePair} {c : CandidatePair} :
    c ∈ cs.map CandidatePair.swap ↔ c.swap ∈ cs := by
  rw [List.mem_map]
  constructor
  · rintro ⟨d, hd, rfl⟩
    exact hd
  · exact fun h ↦ ⟨c.swap, h, rfl⟩

/-- Candidates that conflict are tried in the same order in both directions. -/
theorem key_swap_lt {c d : CandidatePair} (h : Conflict c d) :
    c.key < d.key ↔ c.swap.key < d.swap.key := by
  simp only [CandidatePair.key, CandidatePair.swap, Prod.Lex.toLex_lt_toLex]
  rcases h with h | h
  · simp [h]
  · simp [h]

theorem mem_candidates_swap (hsym : ∀ a b, similarity a b = similarity b a) {c : CandidatePair} :
    c ∈ candidates embedText similarity threshold left right ↔
      c.swap ∈ candidates embedText similarity threshold right left := by
  rw [mem_candidates, mem_candidates]
  constructor
  · rintro ⟨l, r, hl, hr, hshare, hscore, hreaches⟩
    exact ⟨r, l, hr, hl, hshare.symm, hscore.trans (hsym _ _), hreaches⟩
  · rintro ⟨r, l, hr, hl, hshare, hscore, hreaches⟩
    exact ⟨l, r, hl, hr, hshare.symm, hscore.trans (hsym _ _), hreaches⟩

/-- **Both directions match the same pairs.** -/
theorem mem_comparisonPairs_swap (hsym : ∀ a b, similarity a b = similarity b a)
    {c : CandidatePair} :
    c ∈ comparisonPairs embedText similarity threshold left right ↔
      c.swap ∈ comparisonPairs embedText similarity threshold right left := by
  have hread : (comparisonPairs embedText similarity threshold right left).map CandidatePair.swap =
      greedy Conflict ((sortedBy CandidatePair.key
        (candidates embedText similarity threshold right left)).map CandidatePair.swap) := by
    rw [greedy_map]
    exact congrArg (List.map _) (greedy_congr (fun a b ↦ or_comm) _)
  have hmem : ∀ c, c ∈ sortedBy CandidatePair.key
      (candidates embedText similarity threshold left right) ↔
        c ∈ (sortedBy CandidatePair.key
          (candidates embedText similarity threshold right left)).map CandidatePair.swap := by
    intro c
    rw [mem_sortedBy, mem_map_swap, mem_sortedBy, mem_candidates_swap hsym]
  have hmirrored : ((sortedBy CandidatePair.key
      (candidates embedText similarity threshold right left)).map CandidatePair.swap).Pairwise
        fun c d ↦ c.swap.key < d.swap.key := by
    rw [List.pairwise_map]
    exact pairwise_sorted (nodup_candidates _ _ _ _ _)
  have hagree := greedy_agree hmem (pairwise_sorted (nodup_candidates _ _ _ _ _))
    (fun _ _ h ↦ h.asymm) hmirrored (fun _ _ h ↦ h.asymm) (fun a _ b _ h ↦ key_swap_lt h) c
  rw [← hread, mem_map_swap] at hagree
  exact hagree

theorem comparisonPairs_swap (hsym : ∀ a b, similarity a b = similarity b a) :
    (comparisonPairs embedText similarity threshold right left).Perm
      ((comparisonPairs embedText similarity threshold left right).map CandidatePair.swap) := by
  have hnodup : ∀ left right : List RevisionAnchor,
      (comparisonPairs embedText similarity threshold left right).Nodup :=
    fun _ _ ↦ (nodup_matchedPairs _).1.of_map
  refine (List.perm_ext_iff_of_nodup (hnodup right left) ((hnodup left right).map ?_)).mpr fun c ↦ ?_
  · exact fun a b h ↦ congrArg CandidatePair.swap h
  · rw [mem_map_swap, mem_comparisonPairs_swap hsym]

theorem renderMatch_swap (c : CandidatePair) :
    renderMatch right left c.swap = (renderMatch left right c).map ComparisonMatch.swap := by
  rw [renderMatch, renderMatch, CandidatePair.swap]
  cases left[c.left]? with
  | none => cases right[c.right]? <;> rfl
  | some l => cases right[c.right]? <;> rfl

theorem unusedAnchors_congr {anchors : List RevisionAnchor} {used used' : List ℕ}
    (h : ∀ i, i ∈ used ↔ i ∈ used') : unusedAnchors anchors used = unusedAnchors anchors used' :=
  congrArg (List.map _) (List.filter_congr fun x _ ↦ decide_eq_decide.mpr (not_congr (h x.2)))

theorem mirrorImage_comparisonOf (hsym : ∀ a b, similarity a b = similarity b a)
    (leftRevisionId rightRevisionId : UUID) :
    MirrorImage (comparisonOf embedText similarity leftRevisionId rightRevisionId left right threshold)
      (comparisonOf embedText similarity rightRevisionId leftRevisionId right left threshold) := by
  have hpairs : (comparisonPairs embedText similarity threshold right left).Perm
      ((comparisonPairs embedText similarity threshold left right).map CandidatePair.swap) :=
    comparisonPairs_swap hsym
  refine ⟨rfl, rfl, ?_, unusedAnchors_congr fun i ↦ ?_, unusedAnchors_congr fun i ↦ ?_⟩
  · refine (sortedBy_perm _ _).trans ((hpairs.filterMap _).trans ?_)
    refine List.Perm.trans (List.Perm.of_eq ?_) ((sortedBy_perm _ _).map _).symm
    rw [List.filterMap_map, List.map_filterMap]
    exact List.filterMap_congr fun c _ ↦ renderMatch_swap c
  · rw [(hpairs.map (·.left)).mem_iff, List.map_map]
    rfl
  · rw [(hpairs.map (·.right)).mem_iff, List.map_map]
    rfl

theorem Comparable.swap {leftRevisionId rightRevisionId : UUID}
    (h : Comparable embedText leftRevisionId rightRevisionId left right threshold) :
    Comparable embedText rightRevisionId leftRevisionId right left threshold where
  different := h.different.symm
  threshold := h.threshold
  ofLeft := h.ofRight
  ofRight := h.ofLeft
  sizes := h.sizes.symm
  budget := by
    rw [length_comparedPairs_swap]
    exact h.budget

/-- The budget fails only after everything else has been checked. -/
theorem compareAnchorSets_eq_budget {leftRevisionId rightRevisionId : UUID} :
    compareAnchorSets embedText similarity leftRevisionId rightRevisionId left right threshold =
        .error (.valueError "comparison work budget exceeded") ↔
      leftRevisionId ≠ rightRevisionId ∧ (1 / 2 ≤ threshold ∧ threshold ≤ 1) ∧
        (∀ anchor ∈ left, anchor.revisionId = leftRevisionId) ∧
        (∀ anchor ∈ right, anchor.revisionId = rightRevisionId) ∧
        (left.length ≤ maxComparisonAnchors ∧ right.length ≤ maxComparisonAnchors) ∧
        maxCandidatePairs < (comparedPairs embedText left right).length := by
  have hcheck : ∀ {c : Prop} [Decidable c] {message : String} {f : PUnit → Except Error DocumentComparison},
      message ≠ "comparison work budget exceeded" →
        (require c (.valueError message) >>= f = .error (.valueError "comparison work budget exceeded") ↔
          c ∧ f ⟨⟩ = .error (.valueError "comparison work budget exceeded")) := by
    intro c _ message f hmessage
    by_cases hc : c
    · rw [require_of hc, ok_bind]
      exact (and_iff_right hc).symm
    · rw [require_of_not hc, error_bind]
      exact ⟨fun h ↦ absurd (Error.valueError.inj (Except.error.inj h)) hmessage, fun h ↦ absurd h.1 hc⟩
  rw [compareAnchorSets, hcheck (by decide), hcheck (by decide), hcheck (by decide),
    hcheck (by decide), hcheck (by decide), collectCandidates_eq, ← not_le]
  refine and_congr_right fun _ ↦ and_congr_right fun _ ↦ and_congr_right fun _ ↦
    and_congr_right fun _ ↦ and_congr_right fun _ ↦ ?_
  split
  · next hbudget => exact ⟨(by rintro ⟨⟩), fun h ↦ absurd hbudget h⟩
  · next hbudget => exact ⟨fun _ ↦ hbudget, fun _ ↦ rfl⟩

/-- **The comparison is symmetric**: in the other direction it returns the mirror image, and it runs out
of its budget in the one direction exactly if it does in the other. -/
theorem compareAnchorSets_symmetric (embedText : String → List ℚ) {similarity : String → String → ℚ}
    (hsym : ∀ a b, similarity a b = similarity b a) (leftRevisionId rightRevisionId : UUID)
    (left right : List RevisionAnchor) (threshold : ℚ) :
    (∀ comparison, compareAnchorSets embedText similarity leftRevisionId rightRevisionId left right
        threshold = .ok comparison →
      ∃ mirrored, compareAnchorSets embedText similarity rightRevisionId leftRevisionId right left
        threshold = .ok mirrored ∧ MirrorImage comparison mirrored) ∧
    (compareAnchorSets embedText similarity leftRevisionId rightRevisionId left right threshold =
        .error (.valueError "comparison work budget exceeded") ↔
      compareAnchorSets embedText similarity rightRevisionId leftRevisionId right left threshold =
        .error (.valueError "comparison work budget exceeded")) := by
  constructor
  · intro comparison h
    obtain ⟨hcomparable, rfl⟩ := compareAnchorSets_eq_ok.mp h
    exact ⟨_, compareAnchorSets_eq_ok.mpr ⟨hcomparable.swap, rfl⟩,
      mirrorImage_comparisonOf hsym leftRevisionId rightRevisionId⟩
  · rw [compareAnchorSets_eq_budget, compareAnchorSets_eq_budget, length_comparedPairs_swap]
    constructor
    · rintro ⟨hdifferent, hthreshold, hleft, hright, hsizes, hbudget⟩
      exact ⟨hdifferent.symm, hthreshold, hright, hleft, hsizes.symm, hbudget⟩
    · rintro ⟨hdifferent, hthreshold, hleft, hright, hsizes, hbudget⟩
      exact ⟨hdifferent.symm, hthreshold, hright, hleft, hsizes.symm, hbudget⟩

end

theorem compareAnchorSets_symmetric_agenda : ∃ comparison mirrored,
    compareAnchorSets twoBuckets equalTexts 10 20 leftAnchors rightAnchors (3 / 4) = .ok comparison ∧
      compareAnchorSets twoBuckets equalTexts 20 10 rightAnchors leftAnchors (3 / 4) =
        .ok mirrored ∧ MirrorImage comparison mirrored := by
  have hsym : ∀ a b, equalTexts a b = equalTexts b a := fun _ _ ↦ if_congr eq_comm rfl rfl
  have hcompared : compareAnchorSets twoBuckets equalTexts 10 20 leftAnchors rightAnchors (3 / 4) =
      .ok (comparisonOf twoBuckets equalTexts 10 20 leftAnchors rightAnchors (3 / 4)) :=
    compareAnchorSets_eq_ok.mpr ⟨comparable_agenda, rfl⟩
  obtain ⟨mirrored, hmirrored, hmirrors⟩ :=
    (compareAnchorSets_symmetric twoBuckets hsym 10 20 leftAnchors rightAnchors (3 / 4)).1 _ hcompared
  exact ⟨_, mirrored, hcompared, hmirrored, hmirrors⟩

end MeetingRag
