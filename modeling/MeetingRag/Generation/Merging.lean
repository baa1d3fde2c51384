import MeetingRag.Generation.Grounding
import MeetingRag.Library.Lists

/-!
# Which items survive the merge

The merge of the document summaries reads their items round by round, skips an item whose text and
anchors it has seen, and stops at one hundred items. So what it keeps is a prefix of the first items of
each signature, grouped under the headings in the order of their first items.
-/

open Outcome Py Lists

namespace MeetingRag

/-- The key by which the merge tells items apart. -/
def entrySignature (entry : Str × GroundedSummaryItem) : Str × List UUID := entry.2.signature

/-- The items that survive the merge, with their headings. -/
def survivors (summaries : List GroundedSummary) : List (Str × GroundedSummaryItem) :=
  (firsts entrySignature (roundRobin (summaries.map (·.entries)))).take 100

/-- The items grouped under their headings. -/
def groupItems (entries : List (Str × GroundedSummaryItem)) :
    List (Str × List GroundedSummaryItem) :=
  entries.foldl (fun groups entry ↦ appendUnder entry.1 entry.2 groups) []

/-- The state of the merge that has kept the given items. -/
def Merged.of (kept : List (Str × GroundedSummaryItem)) : Merged :=
  ⟨groupItems kept, kept.map entrySignature, kept.length⟩

section Fold

theorem mergeItem_of {kept : List (Str × GroundedSummaryItem)} (h : kept.length ≤ 100)
    (entry : Str × GroundedSummaryItem) :
    mergeItem (.of kept) entry = .of (cappedStep 100 entrySignature kept entry) := by
  have hfull : kept.length = 100 ↔ 100 ≤ kept.length := by omega
  rw [mergeItem, cappedStep]
  by_cases hskip : 100 ≤ kept.length ∨ entrySignature entry ∈ kept.map entrySignature
  · rw [if_pos hskip]
    exact if_pos (hskip.imp_left hfull.mpr)
  · rw [if_neg hskip]
    refine (if_neg fun h ↦ hskip (h.imp_left hfull.mp)).trans ?_
    simp [Merged.of, groupItems, List.foldl_append, entrySignature]

/-- The merge keeps the first hundred items that differ. -/
theorem foldl_mergeItem (xs : List (Str × GroundedSummaryItem)) :
    xs.foldl mergeItem (.of []) = .of ((firsts entrySignature xs).take 100) := by
  have hfold : ∀ ys kept : List (Str × GroundedSummaryItem), kept.length ≤ 100 →
      ys.foldl mergeItem (.of kept) = .of (ys.foldl (cappedStep 100 entrySignature) kept) := by
    intro ys
    induction ys with
    | nil => exact fun _ _ ↦ rfl
    | cons y ys ih =>
      intro kept h
      rw [List.foldl_cons, List.foldl_cons, mergeItem_of h, ih _ (length_cappedStep_le h)]
  rw [hfold xs [] (Nat.zero_le _), foldl_cappedStep]

theorem foldl_mergeRound (perDocument : List (List (Str × GroundedSummaryItem))) (indices : List ℕ)
    (merged : Merged) :
    indices.foldl (mergeRound perDocument) merged =
      (indices.flatMap fun i ↦ perDocument.filterMap (·[i]?)).foldl mergeItem merged := by
  induction indices generalizing merged with
  | nil => rfl
  | cons i indices ih => rw [List.foldl_cons, List.flatMap_cons, List.foldl_append, ih, mergeRound]

end Fold

/-! ## Groups -/

section Groups

variable {entries : List (Str × GroundedSummaryItem)}

theorem keys_appendUnder (heading : Str) (item : GroundedSummaryItem)
    (groups : List (Str × List GroundedSummaryItem)) :
    (appendUnder heading item groups).map Prod.fst =
      if heading ∈ groups.map Prod.fst then groups.map Prod.fst
      else groups.map Prod.fst ++ [heading] := by
  induction groups with
  | nil => rfl
  | cons group rest ih =>
    obtain ⟨name, items⟩ := group
    simp only [appendUnder, List.map_cons]
    by_cases hname : name = heading
    · rw [if_pos hname, if_pos (by rw [← hname]; exact List.mem_cons_self), List.map_cons]
    · rw [if_neg hname, List.map_cons, ih]
      by_cases hmem : heading ∈ rest.map Prod.fst
      · rw [if_pos hmem, if_pos (List.mem_cons_of_mem _ hmem)]
      · rw [if_neg hmem, if_neg, List.cons_append]
        exact fun h ↦ (List.mem_cons.mp h).elim (fun heq ↦ hname heq.symm) hmem

/-- One group for each heading. -/
theorem keys_groupItems (entries : List (Str × GroundedSummaryItem)) :
    ((groupItems entries).map Prod.fst).Nodup ∧
      ∀ heading, heading ∈ (groupItems entries).map Prod.fst ↔ heading ∈ entries.map Prod.fst := by
  induction entries using List.reverseRecOn with
  | nil => exact ⟨List.nodup_nil, fun _ ↦ Iff.rfl⟩
  | append_singleton entries entry ih =>
    obtain ⟨hnodup, hmem⟩ := ih
    have hgroups : groupItems (entries ++ [entry]) =
        appendUnder entry.1 entry.2 (groupItems entries) := List.foldl_concat ..
    rw [hgroups, keys_appendUnder]
    split
    · next hold =>
      refine ⟨hnodup, fun heading ↦ ?_⟩
      rw [hmem, List.map_append, List.mem_append, List.map_singleton, List.mem_singleton]
      exact (or_iff_left_of_imp fun heq ↦ heq ▸ (hmem entry.1).mp hold).symm
    · next hnew =>
      refine ⟨List.nodup_append.mpr ⟨hnodup, List.nodup_singleton _, ?_⟩, fun heading ↦ ?_⟩
      · rintro a ha b hb rfl
        exact hnew (List.mem_singleton.mp hb ▸ ha)
      · rw [List.mem_append, hmem, List.map_append, List.mem_append, List.map_singleton]

theorem length_groupItems (entries : List (Str × GroundedSummaryItem)) :
    (groupItems entries).length = (entries.map Prod.fst).dedup.length := by
  obtain ⟨hnodup, hmem⟩ := keys_groupItems entries
  rw [← List.length_map (f := Prod.fst)]
  refine ((List.perm_ext_iff_of_nodup hnodup (List.nodup_dedup _)).mpr fun heading ↦ ?_).length_eq
  rw [hmem, List.mem_dedup]

/-- The items under a heading. -/
def itemsUnder (heading : Str) (groups : List (Str × List GroundedSummaryItem)) :
    List GroundedSummaryItem :=
  ((groups.find? (·.1 = heading)).map Prod.snd).getD []

theorem itemsUnder_appendUnder (heading heading' : Str) (item : GroundedSummaryItem)
    (groups : List (Str × List GroundedSummaryItem)) :
    itemsUnder heading (appendUnder heading' item groups) =
      if heading' = heading then itemsUnder heading groups ++ [item]
      else itemsUnder heading groups := by
  induction groups with
  | nil =>
    by_cases h : heading' = heading
    · simp [itemsUnder, appendUnder, h]
    · simp [itemsUnder, appendUnder, h]
  | cons group rest ih =>
    obtain ⟨name, items⟩ := group
    rw [itemsUnder] at ih
    by_cases hname : name = heading
    · by_cases h : heading' = heading
      · simp [itemsUnder, appendUnder, hname, h]
      · have hne : heading ≠ heading' := fun heq ↦ h heq.symm
        simp [itemsUnder, appendUnder, hname, h, hne]
    · by_cases h : name = heading'
      · have hne : heading' ≠ heading := fun heq ↦ hname (h.trans heq)
        simp [itemsUnder, appendUnder, h, hne]
      · simp only [itemsUnder, appendUnder, if_neg h, List.find?_cons, hname, decide_false]
        exact ih

theorem itemsUnder_groupItems (heading : Str) (entries : List (Str × GroundedSummaryItem)) :
    itemsUnder heading (groupItems entries) =
      (entries.filter (·.1 = heading)).map Prod.snd := by
  induction entries using List.reverseRecOn with
  | nil => rfl
  | append_singleton entries entry ih =>
    have hgroups : groupItems (entries ++ [entry]) =
        appendUnder entry.1 entry.2 (groupItems entries) := List.foldl_concat ..
    rw [hgroups, itemsUnder_appendUnder, ih, List.filter_append, List.map_append]
    by_cases h : entry.1 = heading
    · simp [h]
    · simp [h]

theorem flatMap_appendUnder (heading : Str) (item : GroundedSummaryItem)
    (groups : List (Str × List GroundedSummaryItem)) :
    ((appendUnder heading item groups).flatMap Prod.snd).Perm (groups.flatMap Prod.snd ++ [item]) := by
  induction groups with
  | nil => exact .refl _
  | cons group rest ih =>
    obtain ⟨name, items⟩ := group
    rw [appendUnder]
    split
    · rw [List.flatMap_cons, List.flatMap_cons, List.append_assoc, List.append_assoc]
      exact List.perm_append_comm.append_left items
    · rw [List.flatMap_cons, List.flatMap_cons, List.append_assoc]
      exact ih.append_left items

/-- Grouping moves the items, and does nothing else. -/
theorem flatMap_groupItems (entries : List (Str × GroundedSummaryItem)) :
    ((groupItems entries).flatMap Prod.snd).Perm (entries.map Prod.snd) := by
  induction entries using List.reverseRecOn with
  | nil => exact .refl _
  | append_singleton entries entry ih =>
    have hgroups : groupItems (entries ++ [entry]) =
        appendUnder entry.1 entry.2 (groupItems entries) := List.foldl_concat ..
    rw [hgroups, List.map_append, List.map_singleton]
    exact (flatMap_appendUnder _ _ _).trans (ih.append_right _)

/-- A group has the items that stand under its heading. -/
theorem mem_groupItems {p : Str × List GroundedSummaryItem} (h : p ∈ groupItems entries) :
    p.2 = (entries.filter (·.1 = p.1)).map Prod.snd := by
  obtain ⟨q, hq⟩ : ∃ q, (groupItems entries).find? (·.1 = p.1) = some q :=
    Option.isSome_iff_exists.mp (List.find?_isSome.mpr ⟨p, h, decide_eq_true rfl⟩)
  have hsame : q = p := List.inj_on_of_nodup_map (keys_groupItems entries).1
    (List.mem_of_find?_eq_some hq) h (of_decide_eq_true (List.find?_some hq :))
  rw [← itemsUnder_groupItems, itemsUnder, hq, hsame]
  rfl

end Groups

/-! ## The merge -/

/-- The headings that survive the merge. -/
def survivingHeadings (summaries : List GroundedSummary) : List Str :=
  ((survivors summaries).map Prod.fst).dedup

section Synthesize

variable {summaries : List GroundedSummary} {summary : GroundedSummary}

/-- The sections of the merged summary. -/
def mergedSections (summaries : List GroundedSummary) : List GroundedSummarySection :=
  (groupItems (survivors summaries)).map fun p ↦ ⟨p.1, p.2⟩

/-- **The merged summary** has the surviving items, grouped under their headings. -/
theorem synthesizeDocumentSummaries_eq (summaries : List GroundedSummary) :
    synthesizeDocumentSummaries summaries =
      if mergedSections summaries ≠ [] then .ok ⟨mergedSections summaries⟩
      else .error ⟨"empty_hierarchical_summary", "no document summary survived"⟩ := by
  have hmerged : (List.range (((summaries.map (·.entries)).map (·.length)).foldr max 0)).foldl
      (mergeRound (summaries.map (·.entries))) ⟨[], [], 0⟩ = Merged.of (survivors summaries) := by
    rw [foldl_mergeRound]
    exact foldl_mergeItem _
  have hfilter : (groupItems (survivors summaries)).filter (·.2 ≠ []) =
      groupItems (survivors summaries) := by
    refine List.filter_eq_self.mpr fun p hp ↦ decide_eq_true fun hnil ↦ ?_
    have hkey : p.1 ∈ (survivors summaries).map Prod.fst :=
      ((keys_groupItems _).2 p.1).mp (List.mem_map_of_mem hp)
    obtain ⟨entry, hentry, hheading⟩ := List.mem_map.mp hkey
    rw [mem_groupItems hp, List.map_eq_nil_iff] at hnil
    exact absurd (decide_eq_true hheading) (List.filter_eq_nil_iff.mp hnil entry hentry)
  have hsections : ((Merged.of (survivors summaries)).itemsByHeading.filter (·.2 ≠ [])).map
      (fun p ↦ (⟨p.1, p.2⟩ : GroundedSummarySection)) = mergedSections summaries :=
    congrArg (List.map _) hfilter
  rw [synthesizeDocumentSummaries, hmerged, hsections, require]
  split
  · rfl
  · rfl

theorem synthesizeDocumentSummaries_eq_ok (h : synthesizeDocumentSummaries summaries = .ok summary) :
    summary.sections = (groupItems (survivors summaries)).map fun p ↦ ⟨p.1, p.2⟩ := by
  rw [synthesizeDocumentSummaries_eq] at h
  split at h
  · exact congrArg GroundedSummary.sections (Except.ok.inj h).symm
  · cases h

theorem length_sections (h : synthesizeDocumentSummaries summaries = .ok summary) :
    summary.sections.length = (survivingHeadings summaries).length := by
  rw [synthesizeDocumentSummaries_eq_ok h, List.length_map, length_groupItems]
  rfl

/-- The items of the merged summary are the survivors. -/
theorem mem_survivors (h : synthesizeDocumentSummaries summaries = .ok summary) {heading : Str}
    {item : GroundedSummaryItem} :
    (heading, item) ∈ survivors summaries ↔
      ∃ part ∈ summary.sections, part.heading = heading ∧ item ∈ part.items := by
  rw [synthesizeDocumentSummaries_eq_ok h]
  simp only [List.mem_map, exists_exists_and_eq_and]
  constructor
  · intro hmem
    obtain ⟨p, hp, hheading⟩ := List.mem_map.mp
      (((keys_groupItems _).2 heading).mpr (List.mem_map_of_mem hmem))
    refine ⟨p, hp, hheading, ?_⟩
    rw [mem_groupItems hp]
    exact List.mem_map.mpr ⟨_, List.mem_filter.mpr ⟨hmem, decide_eq_true hheading.symm⟩, rfl⟩
  · rintro ⟨p, hp, rfl, hitem⟩
    rw [mem_groupItems hp] at hitem
    obtain ⟨entry, hentry, rfl⟩ := List.mem_map.mp hitem
    obtain ⟨hmem, hheading⟩ := List.mem_filter.mp hentry
    rw [← of_decide_eq_true hheading]
    exact hmem

/-- No section of the merged summary has more than a hundred items. -/
theorem length_items_le (h : synthesizeDocumentSummaries summaries = .ok summary) :
    ∀ part ∈ summary.sections, part.items.length ≤ 100 := by
  rw [synthesizeDocumentSummaries_eq_ok h]
  refine List.forall_mem_map.mpr fun p hp ↦ ?_
  have htotal : (survivors summaries).length ≤ 100 := List.length_take_le _ _
  dsimp only
  rw [mem_groupItems hp, List.length_map]
  exact (List.length_filter_le _ _).trans htotal

end Synthesize

end MeetingRag
