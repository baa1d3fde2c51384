import MeetingRag.Generation.Merging
import MeetingRag.Library.Rounds

/-!
# The merge is fair

The merge of the document summaries reads their items in rounds. Which items it keeps is said by the
places where they stand, so that two items that are equal remain apart: the kept places are those of the
first items of each signature, up to one hundred. The cap falls into one round; by then every item of
an earlier round has been kept, or repeats one that has.
-/

open Lists Outcome Py Rounds

namespace MeetingRag

section

variable (summaries : List GroundedSummary)

/-- The items of every document, with their headings. -/
def entryRows : List (List (Str × GroundedSummaryItem)) := summaries.map (·.entries)

/-- The item at a place, a document by its number and an item by its rank. -/
def entryAt (p : Rounds.Place) : Option (Str × GroundedSummaryItem) := elementAt (entryRows summaries) p

/-- The places that the merge looks at. -/
def entryPlaces : List Rounds.Place :=
  placesOf (entryRows summaries) (((entryRows summaries).map (·.length)).foldr max 0)

def signatureAt (p : Rounds.Place) : Option (Str × List UUID) := (entryAt summaries p).map entrySignature

/-- The places of the items that the merge keeps. -/
def keptPlaces : List Rounds.Place := (firsts (signatureAt summaries) (entryPlaces summaries)).take 100

end

/-- A merge that treats the documents alike. -/
structure FairMerge (summaries : List GroundedSummary) (kept : List Rounds.Place) (summary : GroundedSummary) :
    Prop where
  headings : (summary.sections.map (·.heading)).Nodup
  distinct : ((summary.sections.flatMap (·.items)).map (·.signature)).Nodup
  bounded : (summary.sections.flatMap (·.items)).length ≤ 100
  /-- The items of a section are items of the documents, under the same heading and unchanged. -/
  drawn : ∀ part ∈ summary.sections, ∃ places, List.Sublist places kept ∧
    places.map (entryAt summaries) = part.items.map fun item ↦ some (part.heading, item)
  /-- Items of one document stay in order. -/
  ordered : kept.Pairwise fun p q ↦ p.1 = q.1 → p.2 < q.2
  /-- An item that is left out repeats one that is kept; or the cap was reached in some round, not after
  that of the item, and every item of the rounds before that one was kept or repeats one that was. -/
  leftOut : ∀ p heading item, entryAt summaries p = some (heading, item) →
    (∃ part ∈ summary.sections, ∃ other ∈ part.items, other.signature = item.signature) ∨
    (summary.sections.flatMap (·.items)).length = 100 ∧ ∃ last ∈ kept, last.2 ≤ p.2 ∧
      (∀ q ∈ kept, q.2 ≤ last.2) ∧
      ∀ q heading' item', entryAt summaries q = some (heading', item') → q.2 < last.2 →
        ∃ part ∈ summary.sections, ∃ other ∈ part.items, other.signature = item'.signature

section

variable {summaries : List GroundedSummary}

/-- **The kept places are those of the survivors.** -/
theorem map_keptPlaces (summaries : List GroundedSummary) :
    (keptPlaces summaries).map (entryAt summaries) = (survivors summaries).map some := by
  have hall : (entryPlaces summaries).map (entryAt summaries) =
      (roundRobin (entryRows summaries)).map some := by
    rw [roundRobin, flatMap_rounds]
    exact map_placesOf _ _
  have hfirsts : (firsts (signatureAt summaries) (entryPlaces summaries)).map (entryAt summaries) =
      (firsts entrySignature (roundRobin (entryRows summaries))).map some := by
    calc (firsts (signatureAt summaries) (entryPlaces summaries)).map (entryAt summaries)
        = firsts (Option.map entrySignature) ((entryPlaces summaries).map (entryAt summaries)) :=
          (firsts_map (entryAt summaries) (entryPlaces summaries)).symm
      _ = firsts (Option.map entrySignature) ((roundRobin (entryRows summaries)).map some) := by
          rw [hall]
      _ = (firsts (fun entry ↦ some (entrySignature entry))
            (roundRobin (entryRows summaries))).map some := firsts_map some _
      _ = _ := by rw [firsts_injective (Option.some_injective _)]
  rw [keptPlaces, List.map_take, hfirsts, ← List.map_take]
  rfl

theorem pairwise_keptPlaces (summaries : List GroundedSummary) :
    (keptPlaces summaries).Pairwise Before :=
  (pairwise_places _ _).sublist ((List.take_sublist _ _).trans (firsts_sublist _ _))

/-- A place whose item was neither kept nor repeats a kept one lies past the cap. -/
theorem capped_of_left {p : Rounds.Place} (hp : p ∈ entryPlaces summaries)
    (hleft : signatureAt summaries p ∉ (keptPlaces summaries).map (signatureAt summaries)) :
    (keptPlaces summaries).length = 100 ∧ ∀ kept ∈ keptPlaces summaries, Before kept p ∧
      ∀ q ∈ entryPlaces summaries, Before q kept →
        signatureAt summaries q ∈ (keptPlaces summaries).map (signatureAt summaries) := by
  obtain ⟨m, hm⟩ := exists_take_firsts (signatureAt summaries) (entryPlaces summaries) 100
  have hread : ∀ q ∈ (entryPlaces summaries).take m,
      signatureAt summaries q ∈ (keptPlaces summaries).map (signatureAt summaries) := by
    intro q hq
    rw [keptPlaces, hm, mem_map_firsts]
    exact List.mem_map_of_mem hq
  have hsplit := List.take_append_drop m (entryPlaces summaries)
  have hordered : ((entryPlaces summaries).take m ++ (entryPlaces summaries).drop m).Pairwise
      Before := by
    rw [hsplit]
    exact pairwise_places _ _
  have hbefore := (List.pairwise_append.mp hordered).2.2
  have hmem : ∀ q ∈ entryPlaces summaries,
      q ∈ (entryPlaces summaries).take m ∨ q ∈ (entryPlaces summaries).drop m := by
    intro q hq
    rw [← hsplit] at hq
    exact List.mem_append.mp hq
  constructor
  · rw [keptPlaces, List.length_take]
    by_contra hfew
    have hwhole : (firsts (signatureAt summaries) (entryPlaces summaries)).take 100 =
        firsts (signatureAt summaries) (entryPlaces summaries) :=
      List.take_of_length_le (by omega)
    rw [keptPlaces, hwhole, mem_map_firsts] at hleft
    exact hleft (List.mem_map_of_mem hp)
  · intro kept hkept
    rw [keptPlaces, hm] at hkept
    have hkept := mem_of_mem_firsts hkept
    have hpast := (hmem p hp).resolve_left fun hin ↦ hleft (hread p hin)
    refine ⟨hbefore kept hkept p hpast, fun q hq hqk ↦ ?_⟩
    rcases hmem q hq with hin | hout
    · exact hread q hin
    · exact absurd (antisymm (r := Before) hqk (hbefore kept hkept q hout) ▸ hqk) (irrefl _)

/-! ## The sections -/

theorem perm_items (summaries : List GroundedSummary) :
    ((mergedSections summaries).flatMap (·.items)).Perm ((survivors summaries).map Prod.snd) := by
  rw [mergedSections, List.flatMap_map]
  exact flatMap_groupItems _

theorem length_items (summaries : List GroundedSummary) :
    ((mergedSections summaries).flatMap (·.items)).length = (keptPlaces summaries).length := by
  rw [(perm_items summaries).length_eq, List.length_map, ← List.length_map some, ← map_keptPlaces,
    List.length_map]

/-- A signature that some kept place has is that of an item of a section. -/
theorem exists_item_of_kept {p : Rounds.Place} {heading : Str} {item : GroundedSummaryItem}
    (hp : entryAt summaries p = some (heading, item))
    (hkept : signatureAt summaries p ∈ (keptPlaces summaries).map (signatureAt summaries)) :
    ∃ part ∈ mergedSections summaries, ∃ other ∈ part.items, other.signature = item.signature := by
  obtain ⟨q, hq, hsignature⟩ := List.mem_map.mp hkept
  have hentry : entryAt summaries q ∈ (survivors summaries).map some := by
    rw [← map_keptPlaces]
    exact List.mem_map_of_mem hq
  obtain ⟨entry, hsurvives, hentry⟩ := List.mem_map.mp hentry
  have hitem : entry.2 ∈ (mergedSections summaries).flatMap (·.items) :=
    (perm_items summaries).mem_iff.mpr (List.mem_map_of_mem hsurvives)
  obtain ⟨part, hpart, hother⟩ := List.mem_flatMap.mp hitem
  rw [signatureAt, signatureAt, hp, ← hentry, Option.map_some, Option.map_some] at hsignature
  exact ⟨part, hpart, entry.2, hother, Option.some.inj hsignature⟩

/-- The items of a section stand at kept places. -/
theorem exists_places {part : GroundedSummarySection} (h : part ∈ mergedSections summaries) :
    ∃ places, List.Sublist places (keptPlaces summaries) ∧
      places.map (entryAt summaries) = part.items.map fun item ↦ some (part.heading, item) := by
  obtain ⟨p, hp, rfl⟩ := List.mem_map.mp h
  refine ⟨(keptPlaces summaries).filter fun q ↦ (entryAt summaries q).map Prod.fst = some p.1,
    List.filter_sublist, ?_⟩
  have hread : ((keptPlaces summaries).filter fun q ↦
      (entryAt summaries q).map Prod.fst = some p.1).map (entryAt summaries) =
        ((survivors summaries).filter (·.1 = p.1)).map some := by
    have hfilter := List.filter_map (f := entryAt summaries) (l := keptPlaces summaries)
      (p := fun entry ↦ entry.map Prod.fst = some p.1)
    rw [map_keptPlaces, List.filter_map] at hfilter
    refine Eq.trans hfilter.symm (congrArg (List.map some) (List.filter_congr fun entry _ ↦ ?_))
    simp
  rw [hread, mem_groupItems hp, List.map_map]
  refine List.map_congr_left fun entry hentry ↦ ?_
  have hheading : entry.1 = p.1 := of_decide_eq_true (List.mem_filter.mp hentry).2
  rw [Function.comp_apply, ← hheading]

theorem mem_entryPlaces {p : Rounds.Place} (h : (entryAt summaries p).isSome) :
    p ∈ entryPlaces summaries := by
  refine mem_placesOf.mpr ⟨?_, h⟩
  have hlt := isSome_elementAt.mp h
  rw [List.getD_eq_getElem?_getD] at hlt
  cases hlength : ((entryRows summaries).map (·.length))[p.1]? with
  | none =>
    rw [hlength] at hlt
    exact absurd hlt (Nat.not_lt_zero _)
  | some n =>
    rw [hlength, Option.getD_some] at hlt
    exact hlt.trans_le (le_foldr_max (List.mem_of_getElem? hlength))

/-- A document has nothing but what the merge has seen. -/
theorem entries_eq_nil (h : mergedSections summaries = []) :
    ∀ document ∈ summaries, document.entries = [] := by
  intro document hdocument
  by_contra hentries
  obtain ⟨i, hi, hdocument⟩ := List.getElem_of_mem hdocument
  have hsome : (entryAt summaries (i, 0)).isSome := by
    rw [entryAt, isSome_elementAt, entryRows, List.getD_eq_getElem?_getD, List.getElem?_map,
      List.getElem?_map, List.getElem?_eq_getElem hi, hdocument]
    exact List.length_pos_iff.mpr hentries
  have hnone : (keptPlaces summaries).length = 0 := by
    rw [← length_items, h]
    rfl
  have hcapped := capped_of_left (mem_entryPlaces hsome) (by
    rw [List.eq_nil_of_length_eq_zero hnone]
    exact List.not_mem_nil)
  rw [hnone] at hcapped
  exact absurd hcapped.1 (by decide)

/-- **The merge is fair**, if there is anything to merge. -/
theorem synthesizeDocumentSummaries_fair (summaries : List GroundedSummary) :
    (∃ summary kept, synthesizeDocumentSummaries summaries = .ok summary ∧
      FairMerge summaries kept summary) ∨
    synthesizeDocumentSummaries summaries =
        .error ⟨"empty_hierarchical_summary", "no document summary survived"⟩ ∧
      ∀ document ∈ summaries, document.entries = [] := by
  rw [synthesizeDocumentSummaries_eq]
  by_cases hnil : mergedSections summaries = []
  · exact .inr ⟨if_neg (not_not.mpr hnil), entries_eq_nil hnil⟩
  refine .inl ⟨⟨mergedSections summaries⟩, keptPlaces summaries, if_pos hnil, ?_, ?_, ?_,
    fun part hpart ↦ exists_places hpart, ?_, ?_⟩
  · have hkeys := (keys_groupItems (survivors summaries)).1
    rw [mergedSections, List.map_map]
    exact hkeys
  · refine ((perm_items summaries).map _).nodup_iff.mpr ?_
    rw [List.map_map]
    exact (nodup_map_firsts _ _).sublist ((List.take_sublist _ _).map _)
  · rw [length_items]
    exact List.length_take_le _ _
  · exact (pairwise_keptPlaces summaries).imp fun hbefore hsame ↦
      hbefore.elim id fun h ↦ absurd hsame h.2.ne
  · intro p heading item hentry
    by_cases hkept : signatureAt summaries p ∈ (keptPlaces summaries).map (signatureAt summaries)
    · exact .inl (exists_item_of_kept hentry hkept)
    have hplace : p ∈ entryPlaces summaries := mem_entryPlaces (Option.isSome_of_mem hentry)
    obtain ⟨hfull, hcapped⟩ := capped_of_left hplace hkept
    have hne : keptPlaces summaries ≠ [] := List.ne_nil_of_length_pos (by omega)
    have hlast := List.getLast_mem hne
    refine .inr ⟨(length_items summaries).trans hfull, (keptPlaces summaries).getLast hne, hlast,
      ?_, fun q hq ↦ ?_, fun q heading' item' hentry' hlt ↦ ?_⟩
    · exact (hcapped _ hlast).1.le
    · have hpairwise := pairwise_keptPlaces summaries
      rw [← List.dropLast_append_getLast hne] at hpairwise hq
      rcases List.mem_append.mp hq with hinit | hend
      · exact ((List.pairwise_append.mp hpairwise).2.2 q hinit _ List.mem_cons_self).le
      · rw [List.mem_singleton.mp hend]
    · exact exists_item_of_kept hentry'
        ((hcapped _ hlast).2 q (mem_entryPlaces (Option.isSome_of_mem hentry')) (.inl hlt))

end

end MeetingRag
