import MeetingRag.Documents.Blocks
import MeetingRag.Library.Lists
import MeetingRag.Library.Loops
import MeetingRag.Library.Rounds

/-!
# The anchors of a report

The anchors for a report are taken in rounds: the first one of every document, then the second one of
every document that has one, and so on, until there are enough. The two loops take the anchors at a
prefix of the places of all rounds, so what holds of such a prefix holds of the selection.
-/

open Lists Outcome Rounds Text

namespace MeetingRag

/-- An anchor as the report pipeline takes it. -/
structure ReportAnchor where
  anchorId : UUID
  text : String
deriving DecidableEq, Repr

def ComparisonAnchor.report (anchor : ComparisonAnchor) : ReportAnchor :=
  ⟨anchor.anchorId, anchor.text⟩

section Select

variable (documents : List SnapshotDocument)

/-- `nonempty` -/
def nonemptyDocuments : List SnapshotDocument := documents.filter (·.anchors ≠ [])

/-- `max_per_document or max(…, default=0)` -/
def perDocumentLimit : Option ℕ → ℕ
  | some limit => limit
  | none => ((nonemptyDocuments documents).map (·.anchors.length)).foldr max 0

/-- What the inner loop finds in a document. -/
def anchorOfRound (step : ℕ × SnapshotDocument) : Option ReportAnchor :=
  step.2.anchors[step.1]?.map (·.report)

/-- The two loops, which return from the function once there are enough anchors. -/
def selectLoop (maxAnchors limit : ℕ) : List ReportAnchor :=
  returned <| (List.range limit).foldlM (fun selected anchorOrdinal ↦
    (nonemptyDocuments documents).foldlM (fun selected document ↦
      appendUntil maxAnchors anchorOfRound selected (anchorOrdinal, document)) selected) []

/-- `_select_report_anchors` -/
def selectReportAnchors (maxAnchors : ℤ) (maxPerDocument : Option ℤ) :
    Except Error (List ReportAnchor) := do
  require (¬(maxAnchors < 1 ∨ ∃ limit ∈ maxPerDocument, limit < 1))
    (.valueError "report anchor limits must be positive")
  .ok (selectLoop documents maxAnchors.toNat
    (perDocumentLimit documents (maxPerDocument.map Int.toNat)))

/-! ## The places -/

/-- The anchor at a place. -/
def anchorAt (place : Place) : Option ReportAnchor :=
  (elementAt (documents.map (·.anchors)) place).map (·.report)

/-- The places that the rounds look at. -/
def anchorPlaces (limit : ℕ) : List Place := placesOf (documents.map (·.anchors)) limit

end Select

section

variable {documents : List SnapshotDocument}

/-- A round finds what stands at its places: a document without anchors has nothing for it. -/
theorem filterMap_anchorOfRound (k : ℕ) :
    (nonemptyDocuments documents).filterMap (fun document ↦ anchorOfRound (k, document)) =
      ((documents.map (·.anchors)).filterMap (·[k]?)).map (·.report) := by
  have hnonempty : ∀ document : SnapshotDocument,
      (if document.anchors ≠ [] then anchorOfRound (k, document) else none) =
        anchorOfRound (k, document) := by
    intro document
    split
    · rfl
    · next hnil =>
      rw [anchorOfRound, not_not.mp hnil]
      rfl
  rw [nonemptyDocuments, List.filterMap_filter, List.filterMap_map, List.map_filterMap]
  simp only [decide_eq_true_eq, hnonempty]
  rfl

/-- **The loops take the anchors at a prefix of the places.** -/
theorem selectLoop_eq {maxAnchors limit : ℕ} (h : 0 < maxAnchors) :
    selectLoop documents maxAnchors limit =
      ((anchorPlaces documents limit).filterMap (anchorAt documents)).take maxAnchors := by
  have hsteps : (List.range limit).foldlM (fun selected anchorOrdinal ↦
      (nonemptyDocuments documents).foldlM (fun selected document ↦
        appendUntil maxAnchors anchorOfRound selected (anchorOrdinal, document)) selected) [] =
      ((List.range limit).flatMap fun k ↦ (nonemptyDocuments documents).map (k, ·)).foldlM
        (appendUntil maxAnchors anchorOfRound) [] := by
    rw [foldlM_flatMap]
    simp only [List.foldlM_map]
  have hfound : ((List.range limit).flatMap fun k ↦
      (nonemptyDocuments documents).map (k, ·)).filterMap anchorOfRound =
        (anchorPlaces documents limit).filterMap (anchorAt documents) := by
    have hat : anchorAt documents = fun place ↦
        (elementAt (documents.map (·.anchors)) place).map (·.report) := rfl
    rw [List.filterMap_flatMap, hat, ← List.map_filterMap, anchorPlaces, ← flatMap_rounds,
      List.map_flatMap]
    simp only [List.filterMap_map, Function.comp_def, filterMap_anchorOfRound]
  rw [selectLoop, hsteps, returned_foldlM_appendUntil h, hfound]

/-- How many anchors of a document the selection may take. -/
def quota (maxPerDocument : Option ℤ) (document : SnapshotDocument) : ℕ :=
  match maxPerDocument with
  | some limit => min document.anchors.length limit.toNat
  | none => document.anchors.length

/-- Without a limit there are as many rounds as the longest document has anchors. -/
theorem min_perDocumentLimit (maxPerDocument : Option ℤ) {document : SnapshotDocument}
    (h : document ∈ documents) :
    min document.anchors.length (perDocumentLimit documents (maxPerDocument.map Int.toNat)) =
      quota maxPerDocument document := by
  cases maxPerDocument with
  | some limit => rfl
  | none =>
    rw [Option.map_none, perDocumentLimit, quota]
    refine min_eq_left ?_
    by_cases hnil : document.anchors = []
    · rw [hnil]
      exact Nat.zero_le _
    · exact le_foldr_max (List.mem_map_of_mem (List.mem_filter.mpr ⟨h, decide_eq_true hnil⟩))

/-- **The selection is fair.** It takes the anchors at places of which none is seen twice, as many as both
limits leave; in each document a prefix of its anchors, in order; and of two documents the one with fewer
is behind by at most one, unless it has no more to give. -/
theorem selectReportAnchors_fair (documents : List SnapshotDocument) {maxAnchors : ℤ}
    {maxPerDocument : Option ℤ} (hmax : 1 ≤ maxAnchors) (hlimit : ∀ limit ∈ maxPerDocument, 1 ≤ limit) :
    ∃ (selected : List ReportAnchor) (seen : List Place),
      selectReportAnchors documents maxAnchors maxPerDocument = .ok selected ∧
      seen.map (anchorAt documents) = selected.map some ∧ seen.Nodup ∧
      (selected.length : ℤ) = min maxAnchors (documents.map (quota maxPerDocument)).sum ∧
      (∀ i, seen.filter (·.1 = i) = (List.range (seen.countP (·.1 = i))).map (i, ·)) ∧
      ∀ i j document, documents[i]? = some document →
        seen.countP (·.1 = j) ≤ seen.countP (·.1 = i) + 1 ∨
          seen.countP (·.1 = i) = quota maxPerDocument document := by
  let limit := perDocumentLimit documents (maxPerDocument.map Int.toNat)
  let all := anchorPlaces documents limit
  have hinitial : all.take maxAnchors.toNat <+: all := List.take_prefix _ _
  have hplaces : all.map (anchorAt documents) = (all.filterMap (anchorAt documents)).map some := by
    rw [List.map_filterMap_some_eq_filter_map_isSome, List.filter_eq_self.mpr]
    refine List.forall_mem_map.mpr fun place hplace ↦ ?_
    rw [anchorAt, Option.isSome_map]
    exact (mem_placesOf.mp hplace).2
  have hquotas : ((documents.map (·.anchors)).map (·.length)).map (min · limit) =
      documents.map (quota maxPerDocument) := by
    rw [List.map_map, List.map_map]
    exact List.map_congr_left fun document hmem ↦ min_perDocumentLimit maxPerDocument hmem
  have hlength : (all.filterMap (anchorAt documents)).length =
      (documents.map (quota maxPerDocument)).sum := by
    rw [← hquotas, ← length_places, ← List.length_map some, ← hplaces, List.length_map]
    rfl
  refine ⟨(all.filterMap (anchorAt documents)).take maxAnchors.toNat, all.take maxAnchors.toNat, ?_, ?_,
    hinitial.sublist.nodup (nodup_places _ _), ?_, filter_seen hinitial,
    fun i j document hdocument ↦ ?_⟩
  · have hvalid : ¬(maxAnchors < 1 ∨ ∃ limit ∈ maxPerDocument, limit < 1) := by
      rintro (h | ⟨n, hn, h⟩)
      · exact absurd hmax (not_le.mpr h)
      · exact absurd (hlimit n hn) (not_le.mpr h)
    rw [selectReportAnchors, require_of hvalid, ok_bind, selectLoop_eq (by omega)]
  · rw [List.map_take, List.map_take, hplaces]
  · rw [List.length_take, hlength]
    omega
  · have hquota : quota maxPerDocument document =
        min (((documents.map (·.anchors)).map (·.length)).getD i 0) limit := by
      rw [List.getD_eq_getElem?_getD, List.getElem?_map, List.getElem?_map, hdocument, Option.map_some,
        Option.map_some, Option.getD_some]
      exact (min_perDocumentLimit maxPerDocument (List.mem_of_getElem? hdocument)).symm
    rw [hquota]
    exact fair_seen hinitial i j

/-- A document with three anchors, and one with a single anchor. -/
def longAndShort : List SnapshotDocument :=
  [⟨1, "long", [⟨11, "first"⟩, ⟨12, "second"⟩, ⟨13, "third"⟩]⟩, ⟨2, "short", [⟨21, "only"⟩]⟩]

theorem selectReportAnchors_fair_longAndShort : ∃ (selected : List ReportAnchor) (seen : List Place),
    selectReportAnchors longAndShort 4 (some 2) = .ok selected ∧
      seen.map (anchorAt longAndShort) = selected.map some ∧ (selected.length : ℤ) = 3 := by
  obtain ⟨selected, seen, hselected, hseen, -, hlength, -⟩ := selectReportAnchors_fair longAndShort
    (by decide : (1 : ℤ) ≤ 4) (by simp : ∀ limit ∈ some (2 : ℤ), 1 ≤ limit)
  exact ⟨selected, seen, hselected, hseen, hlength.trans (by decide)⟩

end

end MeetingRag
