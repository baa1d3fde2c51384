import MeetingRag.Domain.Policies

/-!
# The decision to close a session

What the close policy decides, as a fact about sets. The policy indexes its two arguments by
revision id, in the order in which they are given, and it classifies the ids in sorted order. A
key that comes twice is refused whichever of the two lists it comes in, so what is indexed is a
finite map, and a finite map has no order left for the decision to depend on.

## Main results

* `raises_iff`: the lists that are refused.
* `Partitions`, `partitions_closeDecision`: the three lists of a decision are a partition of the
  given ids.
* `closeDecision_perm`: the decision is the same for every order of both lists.
-/

open Outcome Table Text

namespace MeetingRag

/-! ## What is refused -/

/-- **The lists that are refused**: an id is there twice, or an exclusion excludes nothing. -/
theorem raises_iff {revisions : List RevisionStatus} {exclusions : List CloseExclusion} :
    (∃ e, evaluateCloseEligibility revisions exclusions = .error e) ↔
      ¬(revisions.map (·.revisionId)).Nodup ∨ ¬(exclusions.map (·.revisionId)).Nodup ∨
        ∃ x ∈ exclusions, x.revisionId ∉ revisions.map (·.revisionId) := by
  have hok : (∃ decision, evaluateCloseEligibility revisions exclusions = .ok decision) ↔
      (revisions.map (·.revisionId)).Nodup ∧ (exclusions.map (·.revisionId)).Nodup ∧
        ∀ x ∈ exclusions, x.revisionId ∈ revisions.map (·.revisionId) := by
    constructor
    · rintro ⟨decision, h⟩
      obtain ⟨hrevisions, hexclusions, hknown, -⟩ := evaluateCloseEligibility_eq_ok.mp h
      exact ⟨hrevisions, hexclusions, hknown⟩
    · rintro ⟨hrevisions, hexclusions, hknown⟩
      exact ⟨_, evaluateCloseEligibility_eq_ok.mpr ⟨hrevisions, hexclusions, hknown, rfl⟩⟩
  have herror : (∃ e, evaluateCloseEligibility revisions exclusions = .error e) ↔
      ¬∃ decision, evaluateCloseEligibility revisions exclusions = .ok decision := by
    cases evaluateCloseEligibility revisions exclusions with
    | ok decision => simp
    | error e => simp
  rw [herror, hok]
  simp only [not_and_or, not_forall, exists_prop]

/-! ## What a decision says -/

/-- The three lists of a decision share no id, and together they are the given ones. -/
structure Partitions (decision : CloseEligibility) (ids : List String) : Prop where
  included_excluded : decision.includedRevisionIds.Disjoint decision.excludedRevisionIds
  included_blocking : decision.includedRevisionIds.Disjoint decision.blockingRevisionIds
  excluded_blocking : decision.excludedRevisionIds.Disjoint decision.blockingRevisionIds
  together : (decision.includedRevisionIds ++ decision.excludedRevisionIds ++
    decision.blockingRevisionIds).Perm ids

theorem mem_excludedRevisionIds {revisions : List RevisionStatus}
    {exclusions : List CloseExclusion} {id : String} :
    id ∈ (closeDecision revisions exclusions).excludedRevisionIds ↔
      id ∈ revisions.map (·.revisionId) ∧ id ∈ exclusions.map (·.revisionId) := by
  simp [closeDecision]

theorem mem_blockingRevisionIds {revisions : List RevisionStatus}
    {exclusions : List CloseExclusion} {id : String} :
    id ∈ (closeDecision revisions exclusions).blockingRevisionIds ↔
      id ∈ revisions.map (·.revisionId) ∧ hasState revisions .ready id = false ∧
        id ∉ exclusions.map (·.revisionId) := by
  simp [closeDecision]

/-- Filtering by three conditions of which exactly one holds rearranges a list. -/
theorem perm_filter_three {α : Type} (excluded ready : α → Bool) (ids : List α) :
    (ids.filter (fun a ↦ !excluded a && ready a) ++ ids.filter excluded ++
      ids.filter (fun a ↦ !ready a && !excluded a)).Perm ids := by
  induction ids with
  | nil => exact .refl _
  | cons a ids ih =>
    -- `a` is put in front of the one list of the three that takes it.
    cases hexcluded : excluded a with
    | true =>
      simp only [List.filter_cons, hexcluded, Bool.not_true, Bool.false_and, Bool.and_false,
        Bool.false_eq_true, if_false, if_true, List.append_assoc, List.cons_append]
      exact List.perm_middle.trans (((List.append_assoc _ _ _) ▸ ih).cons a)
    | false =>
      cases hready : ready a with
      | true =>
        simp only [List.filter_cons, hexcluded, hready, Bool.not_false, Bool.not_true,
          Bool.and_true, Bool.false_eq_true, if_false, if_true, List.cons_append]
        exact ih.cons a
      | false =>
        simp only [List.filter_cons, hexcluded, hready, Bool.not_false, Bool.and_false,
          Bool.and_true, Bool.false_eq_true, if_false, if_true]
        exact List.perm_middle.trans (ih.cons a)

/-- **A decision is a partition of the given ids.** -/
theorem partitions_closeDecision (revisions : List RevisionStatus)
    (exclusions : List CloseExclusion) :
    Partitions (closeDecision revisions exclusions) (revisions.map (·.revisionId)) where
  included_excluded id hincluded hexcluded :=
    (mem_includedRevisionIds.mp hincluded).2.1 (mem_excludedRevisionIds.mp hexcluded).2
  included_blocking id hincluded hblocking := by
    have hready := (mem_includedRevisionIds.mp hincluded).2.2
    rw [(mem_blockingRevisionIds.mp hblocking).2.1] at hready
    exact Bool.false_ne_true hready
  excluded_blocking id hexcluded hblocking :=
    (mem_blockingRevisionIds.mp hblocking).2.2 (mem_excludedRevisionIds.mp hexcluded).2
  together := (perm_filter_three _ _ _).trans (sorted_perm _)

/-! ## The order of the arguments -/

/-- Sorting forgets the order. -/
theorem sorted_eq_of_perm {ids ids' : List String} (h : ids.Perm ids') :
    sorted ids = sorted ids' :=
  (((sorted_perm ids).trans h).trans (sorted_perm ids').symm).eq_of_pairwise'
    (List.pairwise_insertionSort _ _) (List.pairwise_insertionSort _ _)

/-- Among revisions with different ids, a state is looked up in any order. -/
theorem hasState_perm {revisions revisions' : List RevisionStatus}
    (hnodup : (revisions.map (·.revisionId)).Nodup) (h : revisions.Perm revisions') :
    hasState revisions = hasState revisions' := by
  have hmem : ∀ {rs : List RevisionStatus}, (rs.map (·.revisionId)).Nodup → ∀ s id,
      hasState rs s id = true ↔ ∃ r ∈ rs, r.revisionId = id ∧ r.processingState = s := by
    intro rs hrs s id
    simp only [hasState, Option.any_eq_true, decide_eq_true_eq]
    constructor
    · rintro ⟨r, hr, hstate⟩
      exact ⟨r, List.mem_of_find?_eq_some hr, by simpa using List.find?_some hr, hstate⟩
    · rintro ⟨r, hr, rfl, hstate⟩
      -- The first revision found under the id is `r`, since no other one has it.
      obtain ⟨q, hq⟩ : ∃ q, rs.find? (fun q ↦ q.revisionId = r.revisionId) = some q :=
        Option.isSome_iff_exists.mp (List.find?_isSome.mpr ⟨r, hr, by simp⟩)
      have hqid : q.revisionId = r.revisionId := by simpa using List.find?_some hq
      have heq : q = r :=
        List.inj_on_of_nodup_map hrs (List.mem_of_find?_eq_some hq) hr hqid
      exact ⟨q, hq, heq ▸ hstate⟩
  funext s id
  rw [Bool.eq_iff_iff, hmem hnodup, hmem ((h.map _).nodup_iff.mp hnodup)]
  simp only [h.mem_iff]

/-- **The decision is the same for every order of both lists.** -/
theorem closeDecision_perm {revisions revisions' : List RevisionStatus}
    {exclusions exclusions' : List CloseExclusion}
    (hnodup : (revisions.map (·.revisionId)).Nodup) (hrevisions : revisions.Perm revisions')
    (hexclusions : exclusions.Perm exclusions') :
    closeDecision revisions exclusions = closeDecision revisions' exclusions' := by
  have hids : sorted (revisions.map (·.revisionId)) = sorted (revisions'.map (·.revisionId)) :=
    sorted_eq_of_perm (hrevisions.map _)
  have hexcluded : ∀ id, id ∈ exclusions.map (·.revisionId) ↔
      id ∈ exclusions'.map (·.revisionId) := fun id ↦ (hexclusions.map _).mem_iff
  simp only [closeDecision, hids, hasState_perm hnodup hrevisions, hexcluded]

/-- A close request is decided alike in every order in which it can be put. -/
theorem evaluateCloseEligibility_perm {revisions revisions' : List RevisionStatus}
    {exclusions exclusions' : List CloseExclusion} {decision : CloseEligibility}
    (hrevisions : revisions.Perm revisions') (hexclusions : exclusions.Perm exclusions')
    (h : evaluateCloseEligibility revisions exclusions = .ok decision) :
    evaluateCloseEligibility revisions' exclusions' = .ok decision := by
  rw [evaluateCloseEligibility_eq_ok] at h ⊢
  obtain ⟨hnodup, hunique, hknown, rfl⟩ := h
  refine ⟨(hrevisions.map _).nodup_iff.mp hnodup, (hexclusions.map _).nodup_iff.mp hunique,
    fun x hx ↦ ?_, closeDecision_perm hnodup hrevisions hexclusions⟩
  exact (hrevisions.map _).mem_iff.mp (hknown x (hexclusions.mem_iff.mpr hx))

/-! ## The close policy -/

/-- **The close policy** refuses the lists in which an id is repeated or an exclusion is unknown;
every other pair of lists it decides by a partition of the given ids, the same for every order of
the two lists, and the session is eligible if nothing blocks. -/
theorem evaluateCloseEligibility_spec (revisions : List RevisionStatus)
    (exclusions : List CloseExclusion) :
    ((∃ e, evaluateCloseEligibility revisions exclusions = .error e) ↔
      ¬(revisions.map (·.revisionId)).Nodup ∨ ¬(exclusions.map (·.revisionId)).Nodup ∨
        ∃ x ∈ exclusions, x.revisionId ∉ revisions.map (·.revisionId)) ∧
    ∀ decision, evaluateCloseEligibility revisions exclusions = .ok decision →
      Partitions decision (revisions.map (·.revisionId)) ∧
      (decision.eligible = true ↔ decision.blockingRevisionIds = []) ∧
      ∀ revisions' exclusions', revisions.Perm revisions' → exclusions.Perm exclusions' →
        evaluateCloseEligibility revisions' exclusions' = .ok decision := by
  refine ⟨raises_iff, fun decision h ↦ ⟨?_, ?_, fun revisions' exclusions' hr hx ↦
    evaluateCloseEligibility_perm hr hx h⟩⟩
  · obtain ⟨-, -, -, rfl⟩ := evaluateCloseEligibility_eq_ok.mp h
    exact partitions_closeDecision revisions exclusions
  · obtain ⟨-, -, -, rfl⟩ := evaluateCloseEligibility_eq_ok.mp h
    simp [closeDecision]

/-- The same revision given twice is refused as well, with no exclusion at all. -/
theorem repeated_revision_raises :
    ¬∀ (revisions : List RevisionStatus) (exclusions : List CloseExclusion),
      (∃ e, evaluateCloseEligibility revisions exclusions = .error e) ↔
        ¬(exclusions.map (·.revisionId)).Nodup ∨
          ∃ x ∈ exclusions, x.revisionId ∉ revisions.map (·.revisionId) := by
  intro h
  have hrefused := (h [⟨"r", .ready, by decide⟩, ⟨"r", .ready, by decide⟩] []).mp
    ⟨.domainInvariant "duplicate current revision: r", by decide⟩
  simp at hrefused

end MeetingRag
