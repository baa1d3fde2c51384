import MeetingRag.Generation.Grounding
import MeetingRag.Library.Json
import MeetingRag.Library.Lists

/-!
# Planning the context of a summary

The anchors of a snapshot are grouped by their revisions, and every revision becomes one document: an
anchor that repeats an earlier one of its revision is left out, and the rest is kept in order.

The loop also cuts the document of a revision in two when its characters exceed the budget. It never
does: what it has kept of all revisions is compared with the same budget before.
-/

open Outcome Py Lists

namespace MeetingRag

/-- What `plan_generation_context` may raise. -/
inductive ContextFailure
  | valueError (message : String)
  /-- `GenerationProviderFailure` -/
  | generation (code : String) (detail : Option String)
  /-- An exception of `is_conservative_duplicate`. -/
  | raised (e : Exc)
deriving DecidableEq, Repr

structure ContextDocument where
  revisionId : UUID
  anchors : List RuntimeSourceAnchor

structure GenerationContextPlan where
  documents : List ContextDocument
  duplicateAnchorIds : List UUID
  estimatedInputTokens : ℕ

def GenerationContextPlan.anchors (plan : GenerationContextPlan) : List RuntimeSourceAnchor :=
  plan.documents.flatMap (·.anchors)

/-- `grouped`, in the order of `sorted(grouped, key=str)`. -/
def groupedAnchors (anchors : List RuntimeSourceAnchor) : List (UUID × List RuntimeSourceAnchor) :=
  ((firsts id (anchors.map (·.revisionId))).insertionSort fun a b ↦ a.str ≤ b.str).map fun r ↦
    (r, anchors.filter (·.revisionId = r))

/-- The local variables of the loop over the revisions. -/
structure Planning where
  documents : List ContextDocument
  duplicates : List UUID
  totalSelectedCharacters : ℕ
  comparisons : ℕ

/-- And those of the loop over the anchors of one revision. -/
structure Selecting extends Planning where
  selected : List RuntimeSourceAnchor
  selectedCharacters : ℕ
  seenForRevision : List RuntimeSourceAnchor

section Plan

variable (isConservativeDuplicate : Str → Str → Except ContextFailure Bool)

/-- `any(is_conservative_duplicate(text, existing) for existing in seen)` -/
def anyDuplicate (text : Str) : List RuntimeSourceAnchor → Except ContextFailure Bool
  | [] => .ok false
  | existing :: rest => do
    let duplicate ← isConservativeDuplicate text existing.exactQuote
    if duplicate then .ok true else anyDuplicate text rest

/-- One turn of the loop over the anchors of a revision. -/
def considerAnchor (characterBudget : ℕ) (revisionId : UUID) (s : Selecting)
    (anchor : RuntimeSourceAnchor) : Except ContextFailure Selecting := do
  let comparisons := s.comparisons + s.seenForRevision.length
  require (comparisons ≤ 200000) (.generation "context_comparison_budget_exceeded" none)
  let duplicate ← anyDuplicate isConservativeDuplicate anchor.exactQuote s.seenForRevision
  if duplicate then
    .ok { s with comparisons := comparisons, duplicates := s.duplicates ++ [anchor.id] }
  else do
    let required := anchor.exactQuote.length
    require (required ≤ characterBudget) (.generation "context_anchor_too_large"
      (some "one source anchor exceeds the configured token budget"))
    require (s.totalSelectedCharacters + required ≤ characterBudget)
      (.generation "context_budget_exceeded"
        (some "generation context exceeds the configured token budget"))
    let cut := s.selected ≠ [] ∧ characterBudget < s.selectedCharacters + required
    .ok {
      documents := if cut then s.documents ++ [⟨revisionId, s.selected⟩] else s.documents
      duplicates := s.duplicates
      totalSelectedCharacters := s.totalSelectedCharacters + required
      comparisons := comparisons
      selected := if cut then [anchor] else s.selected ++ [anchor]
      selectedCharacters := if cut then required else s.selectedCharacters + required
      seenForRevision := s.seenForRevision ++ [anchor] }

/-- One turn of the loop over the revisions. -/
def planRevision (characterBudget : ℕ) (s : Planning) (group : UUID × List RuntimeSourceAnchor) :
    Except ContextFailure Planning := do
  require (group.2.length ≤ 2000) (.generation "context_anchor_budget_exceeded" none)
  let s ← group.2.foldlM (considerAnchor isConservativeDuplicate characterBudget group.1)
    ⟨s, [], 0, []⟩
  .ok { s.toPlanning with
    documents := if s.selected ≠ [] then s.documents ++ [⟨group.1, s.selected⟩] else s.documents }

/-- `plan_generation_context` -/
def planGenerationContext (anchors : List RuntimeSourceAnchor) (maxEstimatedTokens : ℕ) :
    Except ContextFailure GenerationContextPlan := do
  require (anchors ≠ []) (.valueError "generation context requires source anchors")
  require (1000 ≤ maxEstimatedTokens) (.valueError "generation context token budget is too small")
  let s ← (groupedAnchors anchors).foldlM
    (planRevision isConservativeDuplicate (maxEstimatedTokens * 4)) ⟨[], [], 0, 0⟩
  require (s.documents.length ≤ 32) (.generation "context_call_budget_exceeded" none)
  .ok ⟨s.documents, s.duplicates, max 1 ((s.totalSelectedCharacters + 3) / 4)⟩

end Plan

/-- The characters of some anchors. -/
def characters (anchors : List RuntimeSourceAnchor) : ℕ :=
  (anchors.map (·.exactQuote.length)).sum

section Grouped

variable {anchors : List RuntimeSourceAnchor}

theorem revisions_perm (anchors : List RuntimeSourceAnchor) :
    ((groupedAnchors anchors).map Prod.fst).Perm (firsts id (anchors.map (·.revisionId))) := by
  rw [groupedAnchors, List.map_map]
  simp only [Function.comp_def, List.map_id']
  exact List.perm_insertionSort _ _

/-- One group for each revision. -/
theorem revisions_nodup (anchors : List RuntimeSourceAnchor) :
    ((groupedAnchors anchors).map Prod.fst).Nodup := by
  have h := nodup_map_firsts id (anchors.map (·.revisionId))
  rw [List.map_id] at h
  exact (revisions_perm anchors).nodup_iff.mpr h

theorem mem_revisions {r : UUID} :
    r ∈ (groupedAnchors anchors).map Prod.fst ↔ r ∈ anchors.map (·.revisionId) := by
  rw [(revisions_perm anchors).mem_iff]
  have h : r ∈ (firsts id (anchors.map (·.revisionId))).map id ↔
      r ∈ (anchors.map (·.revisionId)).map id := mem_map_firsts
  rwa [List.map_id, List.map_id] at h

theorem eq_filter_of_mem_grouped {group : UUID × List RuntimeSourceAnchor}
    (h : group ∈ groupedAnchors anchors) : group.2 = anchors.filter (·.revisionId = group.1) := by
  obtain ⟨r, -, rfl⟩ := List.mem_map.mp h
  rfl

theorem grouped_ne_nil {group : UUID × List RuntimeSourceAnchor}
    (h : group ∈ groupedAnchors anchors) : group.2 ≠ [] := by
  obtain ⟨a, ha, hrevision⟩ := List.mem_map.mp (mem_revisions.mp (List.mem_map_of_mem h))
  rw [eq_filter_of_mem_grouped h]
  exact List.ne_nil_of_mem (List.mem_filter.mpr ⟨ha, decide_eq_true hrevision⟩)

/-- The groups hold the anchors. -/
theorem grouped_perm (anchors : List RuntimeSourceAnchor) :
    ((groupedAnchors anchors).flatMap Prod.snd).Perm anchors := by
  have hfilter : ∀ (revisions : List UUID), revisions.Nodup →
      (revisions.flatMap fun r ↦ anchors.filter (·.revisionId = r)).Perm
        (anchors.filter (·.revisionId ∈ revisions)) := by
    intro revisions
    induction revisions with
    | nil => simp
    | cons r rest ih =>
      intro hnodup
      obtain ⟨hr, hrest⟩ := List.nodup_cons.mp hnodup
      rw [List.flatMap_cons]
      refine (List.Perm.append_left _ (ih hrest)).trans ?_
      have hsplit := List.filter_append_perm (fun a : RuntimeSourceAnchor ↦ decide (a.revisionId = r))
        (anchors.filter (·.revisionId ∈ r :: rest))
      refine List.Perm.trans (List.Perm.of_eq ?_) hsplit
      rw [List.filter_filter, List.filter_filter]
      refine congrArg₂ (· ++ ·) (List.filter_congr fun a _ ↦ ?_) (List.filter_congr fun a _ ↦ ?_)
      · simp only [List.mem_cons]
        by_cases h : a.revisionId = r <;> simp [h]
      · simp only [List.mem_cons]
        by_cases h : a.revisionId = r
        · simp [h, hr]
        · simp [h]
  have hgroups : (groupedAnchors anchors).flatMap Prod.snd =
      ((groupedAnchors anchors).map Prod.fst).flatMap fun r ↦ anchors.filter (·.revisionId = r) := by
    rw [List.flatMap_map]
    exact List.flatMap_congr fun group hgroup ↦ eq_filter_of_mem_grouped hgroup
  rw [hgroups]
  refine (hfilter _ (revisions_nodup anchors)).trans (List.Perm.of_eq ?_)
  refine List.filter_eq_self.mpr fun a ha ↦ decide_eq_true ?_
  exact mem_revisions.mpr (List.mem_map_of_mem ha)

end Grouped

/-! ## One revision -/

section Revision

variable {dup : Str → Str → Except ContextFailure Bool} {text : Str}
  {seen : List RuntimeSourceAnchor}

theorem anyDuplicate_eq_true (h : anyDuplicate dup text seen = .ok true) :
    ∃ kept ∈ seen, dup text kept.exactQuote = .ok true := by
  induction seen with
  | nil => exact nomatch h
  | cons existing rest ih =>
    obtain ⟨duplicate, hduplicate, h⟩ := bind_eq_ok.mp h
    split at h
    · next htrue => exact ⟨existing, List.mem_cons_self, htrue ▸ hduplicate⟩
    · obtain ⟨kept, hkept, hdup⟩ := ih h
      exact ⟨kept, List.mem_cons_of_mem _ hkept, hdup⟩

theorem anyDuplicate_eq_false (h : anyDuplicate dup text seen = .ok false) :
    ∀ kept ∈ seen, dup text kept.exactQuote = .ok false := by
  induction seen with
  | nil => exact List.forall_mem_nil _
  | cons existing rest ih =>
    obtain ⟨duplicate, hduplicate, h⟩ := bind_eq_ok.mp h
    split at h
    · exact nomatch h
    · next hfalse =>
      rw [Bool.eq_false_iff.mpr hfalse] at hduplicate
      exact List.forall_mem_cons.mpr ⟨hduplicate, ih h⟩

/-- An anchor that was left out repeats one that was kept before it. -/
def Repeats (dup : Str → Str → Except ContextFailure Bool) (all kept : List RuntimeSourceAnchor)
    (a : RuntimeSourceAnchor) : Prop :=
  ∃ b ∈ kept, [b, a].Sublist all ∧ dup a.exactQuote b.exactQuote = .ok true

/-- None of the anchors repeats an earlier one. -/
def Distinct (dup : Str → Str → Except ContextFailure Bool) (kept : List RuntimeSourceAnchor) : Prop :=
  kept.Pairwise fun earlier later ↦ dup later.exactQuote earlier.exactQuote = .ok false

/-- What the loop over the anchors of a revision has done. -/
structure Selects (dup : Str → Str → Except ContextFailure Bool) (characterBudget : ℕ)
    (before : Planning) (done : List RuntimeSourceAnchor) (s : Selecting) : Prop where
  documents : s.documents = before.documents
  selected : s.selected = s.seenForRevision
  selectedCharacters : s.selectedCharacters = characters s.seenForRevision
  total : s.totalSelectedCharacters =
    before.totalSelectedCharacters + characters s.seenForRevision
  within : s.totalSelectedCharacters ≤ characterBudget
  sublist : s.seenForRevision.Sublist done
  started : done ≠ [] → s.seenForRevision ≠ []
  distinct : Distinct dup s.seenForRevision
  dropped : ∃ dropped : List RuntimeSourceAnchor,
    s.duplicates = before.duplicates ++ dropped.map (·.id) ∧
    (s.seenForRevision ++ dropped).Perm done ∧
    ∀ a ∈ dropped, Repeats dup done s.seenForRevision a

theorem characters_concat (anchors : List RuntimeSourceAnchor) (a : RuntimeSourceAnchor) :
    characters (anchors ++ [a]) = characters anchors + a.exactQuote.length := by
  simp [characters]

theorem Selects.step {characterBudget : ℕ} {before : Planning} {done : List RuntimeSourceAnchor}
    {revisionId : UUID} {s s' : Selecting} {anchor : RuntimeSourceAnchor}
    (hs : Selects dup characterBudget before done s)
    (h : considerAnchor dup characterBudget revisionId s anchor = .ok s') :
    Selects dup characterBudget before (done ++ [anchor]) s' := by
  obtain ⟨-, h⟩ := require_bind_eq_ok.mp h
  obtain ⟨duplicate, hduplicate, h⟩ := bind_eq_ok.mp h
  obtain ⟨dropped, hids, hperm, hrepeats⟩ := hs.dropped
  have hlater : ∀ kept, ∀ a ∈ dropped, Repeats dup (done ++ [anchor]) (s.seenForRevision ++ kept) a := by
    intro kept a ha
    obtain ⟨b, hb, hsublist, hdup⟩ := hrepeats a ha
    exact ⟨b, List.mem_append_left _ hb, hsublist.trans (List.sublist_append_left _ _), hdup⟩
  split at h
  · next htrue =>
    rw [← Except.ok.inj h]
    obtain ⟨b, hb, hdup⟩ := anyDuplicate_eq_true (htrue ▸ hduplicate)
    refine ⟨hs.documents, hs.selected, hs.selectedCharacters, hs.total, hs.within,
      hs.sublist.trans (List.sublist_append_left _ _), fun _ ↦ List.ne_nil_of_mem hb, hs.distinct,
      dropped ++ [anchor], ?_, ?_, ?_⟩
    · rw [List.map_append, ← List.append_assoc, ← hids, List.map_singleton]
    · rw [← List.append_assoc]
      exact hperm.append_right _
    · refine List.forall_mem_append.mpr ⟨fun a ha ↦ ?_, List.forall_mem_singleton.mpr ?_⟩
      · simpa using hlater [] a ha
      · have hdone : [b].Sublist done := List.singleton_sublist.mpr (hs.sublist.subset hb)
        exact ⟨b, hb, hdone.append (List.Sublist.refl [anchor]), hdup⟩
  · next hfalse =>
    rw [Bool.eq_false_iff.mpr hfalse] at hduplicate
    obtain ⟨-, h⟩ := require_bind_eq_ok.mp h
    obtain ⟨hfits, h⟩ := require_bind_eq_ok.mp h
    -- the characters of one revision are among those of all
    have hcut : ¬(s.selected ≠ [] ∧
        characterBudget < s.selectedCharacters + anchor.exactQuote.length) := by
      rintro ⟨-, hover⟩
      have htotal := hs.total
      rw [hs.selectedCharacters] at hover
      omega
    rw [← Except.ok.inj h]
    simp only [if_neg hcut]
    refine ⟨hs.documents, by rw [hs.selected], ?_, ?_, hfits,
      hs.sublist.append (List.Sublist.refl [anchor]), fun _ ↦ by simp, ?_, dropped, hids, ?_,
      hlater [anchor]⟩
    · rw [hs.selectedCharacters, characters_concat]
    · rw [hs.total, characters_concat, Nat.add_assoc]
    · refine List.pairwise_append.mpr ⟨hs.distinct, List.pairwise_singleton _ _, fun b hb a ha ↦ ?_⟩
      rw [List.mem_singleton.mp ha]
      exact anyDuplicate_eq_false hduplicate b hb
    · refine List.Perm.trans ?_ (hperm.append_right [anchor])
      rw [List.append_assoc, List.append_assoc]
      exact List.Perm.append_left _ List.perm_append_comm

end Revision

/-! ## All revisions -/

section Revisions

variable {dup : Str → Str → Except ContextFailure Bool} {characterBudget : ℕ}

/-- The document of a revision. -/
structure DocumentOf (dup : Str → Str → Except ContextFailure Bool)
    (group : UUID × List RuntimeSourceAnchor) (document : ContextDocument) : Prop where
  revision : document.revisionId = group.1
  sublist : document.anchors.Sublist group.2
  nonempty : document.anchors ≠ []
  distinct : Distinct dup document.anchors

/-- What the loop over the revisions has done. -/
structure Plans (dup : Str → Str → Except ContextFailure Bool) (characterBudget : ℕ)
    (done : List (UUID × List RuntimeSourceAnchor)) (s : Planning) : Prop where
  documents : List.Forall₂ (DocumentOf dup) done s.documents
  total : s.totalSelectedCharacters = characters (s.documents.flatMap (·.anchors))
  within : s.totalSelectedCharacters ≤ characterBudget
  dropped : ∃ dropped : List RuntimeSourceAnchor, s.duplicates = dropped.map (·.id) ∧
    (s.documents.flatMap (·.anchors) ++ dropped).Perm (done.flatMap Prod.snd) ∧
    ∀ a ∈ dropped, ∃ group ∈ done, ∃ document ∈ s.documents, document.revisionId = group.1 ∧
      Repeats dup group.2 document.anchors a

theorem Plans.step {done : List (UUID × List RuntimeSourceAnchor)} {s s' : Planning}
    {group : UUID × List RuntimeSourceAnchor} (hs : Plans dup characterBudget done s)
    (hgroup : group.2 ≠ []) (h : planRevision dup characterBudget s group = .ok s') :
    Plans dup characterBudget (done ++ [group]) s' := by
  obtain ⟨-, h⟩ := require_bind_eq_ok.mp h
  obtain ⟨t, ht, h⟩ := bind_eq_ok.mp h
  have hstart : Selects dup characterBudget s [] ⟨s, [], 0, []⟩ :=
    ⟨rfl, rfl, rfl, rfl, hs.within, List.Sublist.refl _, fun h ↦ absurd rfl h, List.Pairwise.nil,
      [], by simp, List.Perm.refl _, List.forall_mem_nil _⟩
  have hselects : Selects dup characterBudget s group.2 t :=
    foldlM_invariant (Selects dup characterBudget s) ht hstart
      fun _ _ _ _ hdone hstep ↦ hdone.step hstep
  have hkept : t.selected ≠ [] := by
    rw [hselects.selected]
    exact hselects.started hgroup
  obtain ⟨dropped, hids, hperm, hrepeats⟩ := hs.dropped
  obtain ⟨dropped', hids', hperm', hrepeats'⟩ := hselects.dropped
  rw [← Except.ok.inj h]
  simp only [if_pos hkept, hselects.documents]
  have hflat : (s.documents ++ [(⟨group.1, t.selected⟩ : ContextDocument)]).flatMap (·.anchors) =
      s.documents.flatMap (·.anchors) ++ t.seenForRevision := by
    rw [List.flatMap_append, List.flatMap_singleton, hselects.selected]
  refine ⟨List.rel_append hs.documents (.cons ⟨rfl, ?_, hkept, ?_⟩ .nil), ?_, hselects.within,
    dropped ++ dropped', ?_, ?_, ?_⟩
  · exact hselects.selected ▸ hselects.sublist
  · exact hselects.selected ▸ hselects.distinct
  · dsimp only
    rw [hflat, hselects.total, hs.total]
    simp [characters]
  · rw [hids', hids, List.map_append]
  · dsimp only
    rw [hflat, List.flatMap_append, List.flatMap_singleton]
    refine List.Perm.trans ?_ (hperm.append hperm')
    rw [List.append_assoc, List.append_assoc]
    refine List.Perm.append_left _ ?_
    rw [← List.append_assoc, ← List.append_assoc]
    exact List.perm_append_comm.append_right _
  · refine List.forall_mem_append.mpr ⟨fun a ha ↦ ?_, fun a ha ↦ ?_⟩
    · obtain ⟨g, hg, document, hdocument, hrevision, hrep⟩ := hrepeats a ha
      exact ⟨g, List.mem_append_left _ hg, document, List.mem_append_left _ hdocument, hrevision, hrep⟩
    · refine ⟨group, List.mem_append_right _ (List.mem_singleton_self _), ⟨group.1, t.selected⟩,
        List.mem_append_right _ (List.mem_singleton_self _), rfl, ?_⟩
      exact hselects.selected ▸ hrepeats' a ha

theorem revisions_of_documents {groups : List (UUID × List RuntimeSourceAnchor)}
    {documents : List ContextDocument} (h : List.Forall₂ (DocumentOf dup) groups documents) :
    documents.map (·.revisionId) = groups.map Prod.fst := by
  induction h with
  | nil => rfl
  | cons hdocument _ ih => rw [List.map_cons, List.map_cons, ih, hdocument.revision]

end Revisions

theorem exists_of_forall₂ {α β : Type} {p : α → β → Prop} {xs : List α} {ys : List β}
    (h : List.Forall₂ p xs ys) {y : β} (hy : y ∈ ys) : ∃ x ∈ xs, p x y := by
  induction h with
  | nil => exact absurd hy List.not_mem_nil
  | cons hxy _ ih =>
    rcases List.mem_cons.mp hy with rfl | hy
    · exact ⟨_, List.mem_cons_self, hxy⟩
    · obtain ⟨x, hx, hp⟩ := ih hy
      exact ⟨x, List.mem_cons_of_mem _ hx, hp⟩

/-- A plan loses nothing but duplicates. -/
structure LosslessPlan (dup : Str → Str → Except ContextFailure Bool)
    (anchors : List RuntimeSourceAnchor) (maxEstimatedTokens : ℕ) (plan : GenerationContextPlan) :
    Prop where
  partition : ∃ dropped : List RuntimeSourceAnchor, plan.duplicateAnchorIds = dropped.map (·.id) ∧
    (plan.anchors ++ dropped).Perm anchors ∧
    ∀ a ∈ dropped, ∃ document ∈ plan.documents, document.revisionId = a.revisionId ∧
      Repeats dup anchors document.anchors a
  revisions : (plan.documents.map (·.revisionId)).Nodup ∧
    ∀ r, r ∈ plan.documents.map (·.revisionId) ↔ r ∈ anchors.map (·.revisionId)
  documents : ∀ document ∈ plan.documents, document.anchors ≠ [] ∧
    document.anchors.Sublist (anchors.filter (·.revisionId = document.revisionId)) ∧
    Distinct dup document.anchors
  count : 1 ≤ plan.documents.length ∧ plan.documents.length ≤ 32
  budget : characters plan.anchors ≤ 4 * maxEstimatedTokens

/-- **The plan of a context is lossless up to duplicates.** The anchors need not even have distinct
ids. -/
theorem planGenerationContext_lossless {dup : Str → Str → Except ContextFailure Bool}
    {anchors : List RuntimeSourceAnchor} {maxEstimatedTokens : ℕ} {plan : GenerationContextPlan}
    (h : planGenerationContext dup anchors maxEstimatedTokens = .ok plan) :
    LosslessPlan dup anchors maxEstimatedTokens plan := by
  obtain ⟨hanchors, h⟩ := require_bind_eq_ok.mp h
  obtain ⟨-, h⟩ := require_bind_eq_ok.mp h
  obtain ⟨s, hs, h⟩ := bind_eq_ok.mp h
  obtain ⟨hcount, h⟩ := require_bind_eq_ok.mp h
  have hplans : Plans dup (maxEstimatedTokens * 4) (groupedAnchors anchors) s := by
    have hstart : Plans dup (maxEstimatedTokens * 4) [] ⟨[], [], 0, 0⟩ :=
      ⟨.nil, rfl, Nat.zero_le _, [], rfl, List.Perm.refl _, List.forall_mem_nil _⟩
    refine foldlM_invariant (fun done s ↦ (∀ group ∈ done, group.2 ≠ []) →
      Plans dup (maxEstimatedTokens * 4) done s) hs (fun _ ↦ hstart) ?_ fun _ hgroup ↦
        grouped_ne_nil hgroup
    intro done group t t' hdone hstep hall
    exact (hdone fun g hg ↦ hall g (List.mem_append_left _ hg)).step
      (hall group (List.mem_append_right _ (List.mem_singleton_self _))) hstep
  obtain ⟨dropped, hids, hperm, hrepeats⟩ := hplans.dropped
  rw [← Except.ok.inj h]
  refine ⟨⟨dropped, hids, hperm.trans (grouped_perm anchors), fun a ha ↦ ?_⟩, ?_, fun d hd ↦ ?_,
    ⟨?_, hcount⟩, ?_⟩
  · obtain ⟨group, hgroup, document, hdocument, hrevision, b, hb, hsublist, hdup⟩ := hrepeats a ha
    rw [eq_filter_of_mem_grouped hgroup] at hsublist
    have hmem : a ∈ anchors.filter (·.revisionId = group.1) := hsublist.subset (by simp)
    refine ⟨document, hdocument, ?_, b, hb, hsublist.trans List.filter_sublist, hdup⟩
    rw [hrevision, of_decide_eq_true (List.mem_filter.mp hmem).2]
  · rw [revisions_of_documents hplans.documents]
    exact ⟨revisions_nodup anchors, fun _ ↦ mem_revisions⟩
  · obtain ⟨group, hgroup, hdocument⟩ := exists_of_forall₂ hplans.documents hd
    refine ⟨hdocument.nonempty, ?_, hdocument.distinct⟩
    rw [hdocument.revision, ← eq_filter_of_mem_grouped hgroup]
    exact hdocument.sublist
  · rw [← hplans.documents.length_eq]
    obtain ⟨a, ha⟩ := List.exists_mem_of_ne_nil _ hanchors
    have hrevision := mem_revisions.mpr (List.mem_map_of_mem (f := (·.revisionId)) ha)
    rw [← List.length_map (f := Prod.fst)]
    exact List.length_pos_of_mem hrevision
  · have htotal := hplans.total
    have hwithin := hplans.within
    rw [GenerationContextPlan.anchors, ← htotal]
    omega

/-! ### An anchor that is there twice -/

def budgetAnchor (id : UUID) : RuntimeSourceAnchor :=
  ⟨id, 7, lit "The budget has 3 parts.", lit "factual_claim", lit "paragraph", none,
    by decide, by decide, by decide, fun _ h ↦ nomatch h⟩

theorem planGenerationContext_lossless_of_budget :
    ∃ plan, planGenerationContext (fun a b ↦ .ok (decide (a = b))) [budgetAnchor 1, budgetAnchor 2]
        1000 = .ok plan ∧ plan.duplicateAnchorIds = [2] ∧
      LosslessPlan (fun a b ↦ .ok (decide (a = b))) [budgetAnchor 1, budgetAnchor 2] 1000 plan := by
  have hplan : planGenerationContext (fun a b ↦ .ok (decide (a = b)))
      [budgetAnchor 1, budgetAnchor 2] 1000 = .ok ⟨[⟨7, [budgetAnchor 1]⟩], [2], 6⟩ := by
    rfl
  exact ⟨_, hplan, rfl, planGenerationContext_lossless hplan⟩

end MeetingRag
