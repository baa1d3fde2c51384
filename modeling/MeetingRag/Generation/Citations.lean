import MeetingRag.Generation.Contents
import MeetingRag.System.Interference

/-!
# The citations of a summary

The writer of a summary counts the items while it walks over the sections, and gives each item a
segment with that ordinal and each support a citation of the segment. The reader flattens the stored
sections, counts again, and looks every support up by ordinal and anchor. The two counts agree because
no section of a grounded summary is without items and the content keeps the order of both.

What is stored for a document never changes: a later completion has another document, its segments
have other ids, and its citations name its own segments only.
-/

open Outcome Py Json Table

namespace MeetingRag

/-! ## The structured content -/

def GroundedSummarySupport.content (s : GroundedSummarySupport) : Fields :=
  obj [("source_anchor_id", .str (uuidText s.sourceAnchorId)), ("exact_quote", .str s.exactQuote),
    ("start", .int s.start), ("end", .int s.stop)]

/-- The content of an item, with the contents of its supports. -/
def GroundedSummaryItem.contentWith (item : GroundedSummaryItem) (supports : List Json) : Fields :=
  obj [("text", .str item.text),
    ("source_anchor_ids", .array (item.sourceAnchorIds.map fun id ↦ .str (uuidText id))),
    ("supports", .array supports)]

def GroundedSummaryItem.content (item : GroundedSummaryItem) : Fields :=
  item.contentWith (item.supports.map fun s ↦ .object s.content)

/-- The content of a section, with the contents of its items. -/
def GroundedSummarySection.contentWith (part : GroundedSummarySection) (items : List Json) :
    Fields :=
  obj [("heading", .str part.heading), ("items", .array items)]

def GroundedSummarySection.content (part : GroundedSummarySection) : Fields :=
  part.contentWith (part.items.map fun item ↦ .object item.content)

/-- `structured_content`. -/
def GroundedSummary.structuredContent (summary : GroundedSummary) : Fields :=
  obj [("sections", .array (summary.sections.map fun part ↦ .object part.content))]

/-! ## The completion -/

/-- What `uuid4` answers while a completion is built. -/
structure SummaryDraws where
  documentId : UUID
  segmentId : ℕ → UUID
  citationId : ℕ → ℕ → UUID

/-- The local variables of `_summary_completion`. -/
structure SummaryWrites where
  segments : List GeneratedSegmentWrite
  citations : List CitationWrite
  ordinal : ℕ

/-- The citations of the item with the given ordinal. -/
def itemCitations (draws : SummaryDraws) (ordinal : ℕ) (item : GroundedSummaryItem) :
    List CitationWrite :=
  item.supports.mapIdx fun k s ↦
    ⟨draws.citationId ordinal k, draws.segmentId ordinal, .sourceAnchor s.sourceAnchorId⟩

/-- One turn of the loop over the items. -/
def writeItem (draws : SummaryDraws) (writes : SummaryWrites) (item : GroundedSummaryItem) :
    Except Error SummaryWrites := do
  let segment ← GeneratedSegmentWrite.new (draws.segmentId writes.ordinal) writes.ordinal item.text
  .ok ⟨writes.segments ++ [segment],
    writes.citations ++ itemCitations draws writes.ordinal item, writes.ordinal + 1⟩

/-- `_summary_completion`. -/
def summaryCompletion (draws : SummaryDraws) (summary : GroundedSummary) :
    Except Error GenerationWrites := do
  let writes ← summary.sections.foldlM
    (fun writes part ↦ part.items.foldlM (writeItem draws) writes) ⟨[], [], 0⟩
  GenerationWrites.new .summary draws.documentId summary.structuredContent writes.segments writes.citations [] []

/-- The columns of the segment of an item. -/
def segmentRow (draws : SummaryDraws) (ordinal : ℕ) (item : GroundedSummaryItem) :
    GeneratedSegment :=
  ⟨draws.segmentId ordinal, draws.documentId, ordinal, item.text⟩

section Completion

variable {draws : SummaryDraws} {summary : GroundedSummary} {w : GenerationWrites}

theorem foldlM_sections {f : SummaryWrites → GroundedSummaryItem → Except Error SummaryWrites}
    (sections : List GroundedSummarySection) (writes : SummaryWrites) :
    sections.foldlM (fun writes part ↦ part.items.foldlM f writes) writes =
      (sections.flatMap (·.items)).foldlM f writes := by
  induction sections generalizing writes with
  | nil => rfl
  | cons part sections ih =>
    rw [List.foldlM_cons, List.flatMap_cons, List.foldlM_append]
    exact bind_congr ih

theorem segmentWrite_eq_ok {id : UUID} {ordinal : ℕ} {text : Str} {s : GeneratedSegmentWrite}
    (h : GeneratedSegmentWrite.new id ordinal text = .ok s) :
    s.id = id ∧ s.ordinal = ordinal ∧ s.text = text := by
  rw [GeneratedSegmentWrite.new] at h
  split at h
  · exact nomatch h
  · cases h
    exact ⟨rfl, rfl, rfl⟩

/-- **What the writer stores**: one segment for each item, under the number of the item, and one
citation for each of its supports. -/
theorem summaryCompletion_eq_ok (h : summaryCompletion draws summary = .ok w) :
    w.postInit = .ok () ∧ w.kind = .summary ∧ w.documentId = draws.documentId ∧
      w.structuredContent = summary.structuredContent ∧
      w.segmentRows = summary.items.mapIdx (segmentRow draws) ∧
      w.citations = (summary.items.mapIdx (itemCitations draws)).flatten ∧
      w.webEvidence = [] ∧ w.researchClaims = [] := by
  obtain ⟨writes, hwrites, h⟩ := bind_eq_ok.mp h
  rw [foldlM_sections] at hwrites
  obtain ⟨_, hinit, h⟩ := bind_eq_ok.mp h
  cases h
  have hloop := foldlM_invariant (fun done (writes : SummaryWrites) ↦
    writes.ordinal = done.length ∧
    (writes.segments.map fun s ↦ (⟨s.id, draws.documentId, s.ordinal, s.text⟩ : GeneratedSegment)) =
      done.mapIdx (segmentRow draws) ∧
    writes.citations = (done.mapIdx (itemCitations draws)).flatten) hwrites ⟨rfl, rfl, rfl⟩ ?_
  · exact ⟨hinit, rfl, rfl, rfl, hloop.2.1, hloop.2.2, rfl, rfl⟩
  · rintro done item t t' ⟨hordinal, hsegments, hcitations⟩ hstep
    obtain ⟨segment, hsegment, hstep⟩ := bind_eq_ok.mp hstep
    cases hstep
    obtain ⟨hid, hnumber, htext⟩ := segmentWrite_eq_ok hsegment
    refine ⟨by simp [hordinal], ?_, ?_⟩
    · rw [List.map_append, hsegments, List.mapIdx_concat, List.map_singleton, hid, hnumber,
        htext, hordinal]
      rfl
    · rw [hcitations, List.mapIdx_concat, List.flatten_append, hordinal, List.flatten_singleton]

end Completion

/-! ## The tables over time -/

def emptyContents : ContentTables := ⟨[], [], [], [], [], []⟩

/-- A transaction on the contents: a completion is inserted, or anchors are added elsewhere. -/
inductive ContentStep (ctype : Ctype) (t : ContentTables) : ContentTables → Prop
  | completed (w : GenerationWrites) (checked : w.postInit = .ok ()) (runId : UUID)
      {t' : ContentTables} (h : w.insert ctype runId t = .ok t') : ContentStep ctype t t'
  | anchored (ids : List UUID) :
      ContentStep ctype t { t with sourceAnchors := t.sourceAnchors ++ ids }

/-- Any number of transactions. -/
abbrev ContentSteps (ctype : Ctype) : ContentTables → ContentTables → Prop :=
  Relation.ReflTransGen (ContentStep ctype)

namespace ContentTables

/-- The segments of a document. -/
def segmentsOf (t : ContentTables) (documentId : UUID) : List GeneratedSegment :=
  t.segments.filter (·.documentId = documentId)

/-- The citations of the segments of a document. -/
def citationsOf (t : ContentTables) (documentId : UUID) : List CitationWrite :=
  t.citations.filter fun c ↦ ∃ s ∈ t.segmentsOf documentId, s.id = c.segmentId

/-- The foreign keys of the tables, and the primary keys that they refer to. -/
structure Referential (t : ContentTables) : Prop where
  segmentIds : (t.segments.map (·.id)).Nodup
  segments : ∀ s ∈ t.segments, ∃ d ∈ t.documents, d.id = s.documentId
  citations : ∀ c ∈ t.citations, ∃ s ∈ t.segments, s.id = c.segmentId

theorem referential_empty : emptyContents.Referential where
  segmentIds := List.nodup_nil
  segments := List.forall_mem_nil _
  citations := List.forall_mem_nil _

end ContentTables

/-- What an insert of a completion has found and done. -/
structure Inserts (ctype : Ctype) (w : GenerationWrites) (runId : UUID) (t t' : ContentTables) :
    Prop where
  content : StorableContent w.structuredContent
  fresh : ∀ d ∈ t.documents, d.id ≠ w.documentId
  texts : ∀ s ∈ w.segmentRows, StorableText s.text
  segmentKeys : Appendable segmentsKey t.segments w.segmentRows
  evidence : ∀ e ∈ w.webEvidence, StorableEvidence ctype e
  evidenceKeys : Appendable evidenceKey t.webEvidence w.webEvidence
  refers : ∀ c ∈ w.citations, CitationRefers t.sourceAnchors (t.segments ++ w.segmentRows)
    (t.webEvidence ++ w.webEvidence) c
  citationKeys : Appendable citationsKey t.citations w.citations
  claims : ∀ c ∈ w.claimRows runId, StorableClaim t.sourceAnchors c
  claimKeys : Appendable claimsKey t.researchClaims (w.claimRows runId)
  result : t' = ⟨t.sourceAnchors, t.documents ++ [⟨w.documentId, w.structuredContent⟩],
    t.segments ++ w.segmentRows, t.webEvidence ++ w.webEvidence, t.citations ++ w.citations,
    t.researchClaims ++ w.claimRows runId⟩

/-- **A completion is stored** exactly when every row passes its checks and is new. -/
theorem insert_eq_ok {ctype : Ctype} {w : GenerationWrites} {runId : UUID} {t t' : ContentTables} :
    w.insert ctype runId t = .ok t' ↔ Inserts ctype w runId t t' := by
  simp only [GenerationWrites.insert, bind_eq_ok, foldlM_insertRow, insertRow_eq_ok,
    Except.ok.injEq]
  constructor
  · rintro ⟨_, ⟨hcontent, hfresh, rfl⟩, _, ⟨htexts, hsegments, rfl⟩, _, ⟨hevidence, hkeys, rfl⟩, _,
      ⟨hrefers, hcitations, rfl⟩, _, ⟨hclaims, hclaimKeys, rfl⟩, rfl⟩
    exact ⟨hcontent, hfresh, htexts, hsegments, hevidence, hkeys, hrefers, hcitations, hclaims,
      hclaimKeys, rfl⟩
  · rintro ⟨hcontent, hfresh, htexts, hsegments, hevidence, hkeys, hrefers, hcitations, hclaims,
      hclaimKeys, rfl⟩
    exact ⟨_, ⟨hcontent, hfresh, rfl⟩, _, ⟨htexts, hsegments, rfl⟩, _, ⟨hevidence, hkeys, rfl⟩, _,
      ⟨hrefers, hcitations, rfl⟩, _, ⟨hclaims, hclaimKeys, rfl⟩, rfl⟩

section Steps

variable {ctype : Ctype} {w : GenerationWrites} {runId : UUID} {t t' : ContentTables}

/-- Where the citations of a completion point. -/
theorem postInit_citations (h : w.postInit = .ok ()) :
    ∀ c ∈ w.citations, ∃ s ∈ w.segmentRows, s.id = c.segmentId := by
  obtain ⟨_, -, h⟩ := bind_eq_ok.mp h
  obtain ⟨-, h⟩ := require_bind_eq_ok.mp h
  obtain ⟨-, h⟩ := require_bind_eq_ok.mp h
  obtain ⟨-, h⟩ := require_bind_eq_ok.mp h
  obtain ⟨hcitations, -⟩ := require_bind_eq_ok.mp h
  intro c hc
  obtain ⟨s, hs, hid⟩ := hcitations c hc
  exact ⟨_, List.mem_map_of_mem hs, hid⟩

theorem mem_segmentRows {s : GeneratedSegment} (h : s ∈ w.segmentRows) :
    s.documentId = w.documentId := by
  obtain ⟨_, -, rfl⟩ := List.mem_map.mp h
  rfl

theorem ContentTables.Referential.insert (h : t.Referential) (hchecked : w.postInit = .ok ())
    (hins : Inserts ctype w runId t t') : t'.Referential := by
  rw [hins.result]
  refine ⟨?_, ?_, ?_⟩
  · rw [List.map_append, List.nodup_append]
    refine ⟨h.segmentIds, ?_, ?_⟩
    · refine List.pairwise_map.mpr (hins.segmentKeys.2.imp fun hkey heq ↦ hkey (Or.inl heq))
    · rintro _ ha _ hb rfl
      obtain ⟨s, hs, hid⟩ := List.mem_map.mp ha
      obtain ⟨s', hs', hid'⟩ := List.mem_map.mp hb
      exact hins.segmentKeys.1 s hs s' hs' (Or.inl (hid.trans hid'.symm))
  · refine List.forall_mem_append.mpr ⟨fun s hs ↦ ?_, fun s hs ↦ ?_⟩
    · obtain ⟨d, hd, hid⟩ := h.segments s hs
      exact ⟨d, List.mem_append_left _ hd, hid⟩
    · exact ⟨_, List.mem_append_right _ (List.mem_singleton_self _), (mem_segmentRows hs).symm⟩
  · refine List.forall_mem_append.mpr ⟨fun c hc ↦ ?_, fun c hc ↦ ?_⟩
    · obtain ⟨s, hs, hid⟩ := h.citations c hc
      exact ⟨s, List.mem_append_left _ hs, hid⟩
    · obtain ⟨s, hs, hid⟩ := postInit_citations hchecked c hc
      exact ⟨s, List.mem_append_right _ hs, hid⟩

theorem ContentTables.Referential.step (h : t.Referential) (hstep : ContentStep ctype t t') :
    t'.Referential := by
  cases hstep with
  | completed w checked runId hinsert => exact h.insert checked (insert_eq_ok.mp hinsert)
  | anchored ids => exact ⟨h.segmentIds, h.segments, h.citations⟩

theorem ContentTables.Referential.steps (h : t.Referential) (hsteps : ContentSteps ctype t t') :
    t'.Referential := by
  induction hsteps with
  | refl => exact h
  | tail _ hstep ih => exact ih.step hstep

/-- Two tables hold the same of a document. -/
structure SameContents (documentId : UUID) (t t' : ContentTables) : Prop where
  document : t'.documents.find? (·.id = documentId) = t.documents.find? (·.id = documentId)
  segments : t'.segmentsOf documentId = t.segmentsOf documentId
  citations : t'.citationsOf documentId = t.citationsOf documentId

/-- A completion leaves the documents that are there alone. -/
theorem sameContents_insert (hchecked : w.postInit = .ok ())
    (hins : Inserts ctype w runId t t') {documentId : UUID}
    (hthere : ∃ d ∈ t.documents, d.id = documentId) : SameContents documentId t t' := by
  obtain ⟨d, hd, rfl⟩ := hthere
  have hne : w.documentId ≠ d.id := fun heq ↦ hins.fresh d hd heq.symm
  have hsegments : t'.segmentsOf d.id = t.segmentsOf d.id := by
    rw [ContentTables.segmentsOf, hins.result, List.filter_append]
    refine (congrArg (_ ++ ·) (List.filter_eq_nil_iff.mpr fun s hs ↦ ?_)).trans (List.append_nil _)
    rw [decide_eq_true_eq, mem_segmentRows hs]
    exact hne
  refine ⟨?_, hsegments, ?_⟩
  · rw [hins.result, List.find?_append]
    have hsome : (t.documents.find? (·.id = d.id)).isSome = true :=
      List.find?_isSome.mpr ⟨d, hd, decide_eq_true rfl⟩
    obtain ⟨row, hrow⟩ := Option.isSome_iff_exists.mp hsome
    rw [hrow]
    rfl
  · rw [ContentTables.citationsOf, hsegments, hins.result, List.filter_append]
    refine (congrArg (_ ++ ·) (List.filter_eq_nil_iff.mpr fun c hc ↦ ?_)).trans (List.append_nil _)
    rw [decide_eq_true_eq]
    rintro ⟨s, hs, hid⟩
    -- the new citations name new segments
    obtain ⟨s', hs', hid'⟩ := postInit_citations hchecked c hc
    exact hins.segmentKeys.1 s (List.mem_filter.mp hs).1 s' hs' (Or.inl (hid.trans hid'.symm))

theorem sameContents_steps (hsteps : ContentSteps ctype t t') {documentId : UUID}
    (hthere : ∃ d ∈ t.documents, d.id = documentId) :
    SameContents documentId t t' ∧ ∃ d ∈ t'.documents, d.id = documentId := by
  induction hsteps with
  | refl => exact ⟨⟨rfl, rfl, rfl⟩, hthere⟩
  | tail hbefore hstep ih =>
    obtain ⟨hsame, hthere'⟩ := ih
    cases hstep with
    | completed w checked runId hinsert =>
      have hins := insert_eq_ok.mp hinsert
      have hnext := sameContents_insert checked hins hthere'
      refine ⟨⟨hnext.document.trans hsame.document, hnext.segments.trans hsame.segments,
        hnext.citations.trans hsame.citations⟩, ?_⟩
      obtain ⟨d, hd, hid⟩ := hthere'
      rw [hins.result]
      exact ⟨d, List.mem_append_left _ hd, hid⟩
    | anchored ids => exact ⟨⟨hsame.document, hsame.segments, hsame.citations⟩, hthere'⟩

/-- The document of a completion holds the rows of the completion. -/
theorem contents_of_insert (h : t.Referential) (hchecked : w.postInit = .ok ())
    (hins : Inserts ctype w runId t t') :
    t'.documents.find? (·.id = w.documentId) = some ⟨w.documentId, w.structuredContent⟩ ∧
      t'.segmentsOf w.documentId = w.segmentRows ∧ t'.citationsOf w.documentId = w.citations := by
  have hsegments : t'.segmentsOf w.documentId = w.segmentRows := by
    rw [ContentTables.segmentsOf, hins.result, List.filter_append]
    have hold : t.segments.filter (·.documentId = w.documentId) = [] := by
      refine List.filter_eq_nil_iff.mpr fun s hs ↦ ?_
      rw [decide_eq_true_eq]
      intro heq
      obtain ⟨d, hd, hid⟩ := h.segments s hs
      exact hins.fresh d hd (hid.trans heq)
    have hnew : w.segmentRows.filter (·.documentId = w.documentId) = w.segmentRows :=
      List.filter_eq_self.mpr fun s hs ↦ decide_eq_true (mem_segmentRows hs)
    rw [hold, hnew, List.nil_append]
  refine ⟨?_, hsegments, ?_⟩
  · rw [hins.result, List.find?_append]
    have hnone : t.documents.find? (·.id = w.documentId) = none :=
      List.find?_eq_none.mpr fun d hd ↦ by
        rw [decide_eq_true_eq]
        exact hins.fresh d hd
    rw [hnone, Option.none_or, List.find?_singleton]
    exact if_pos (decide_eq_true rfl)
  · rw [ContentTables.citationsOf, hsegments, hins.result, List.filter_append]
    have hold : t.citations.filter (fun c ↦ ∃ s ∈ w.segmentRows, s.id = c.segmentId) = [] := by
      refine List.filter_eq_nil_iff.mpr fun c hc ↦ ?_
      rw [decide_eq_true_eq]
      rintro ⟨s, hs, hid⟩
      obtain ⟨s', hs', hid'⟩ := h.citations c hc
      exact hins.segmentKeys.1 s' hs' s hs (Or.inl (hid'.trans hid.symm))
    have hnew : w.citations.filter (fun c ↦ ∃ s ∈ w.segmentRows, s.id = c.segmentId) =
        w.citations :=
      List.filter_eq_self.mpr fun c hc ↦ decide_eq_true (postInit_citations hchecked c hc)
    rw [hold, hnew, List.nil_append]

end Steps

/-! ## Reading -/

def GroundedSummarySupport.citedContent (s : GroundedSummarySupport) (citationId : UUID) : Fields :=
  obj [("source_anchor_id", .str (uuidText s.sourceAnchorId)), ("exact_quote", .str s.exactQuote),
    ("start", .int s.start), ("end", .int s.stop), ("citation_id", .str (uuidText citationId))]

/-- The content of an item whose supports have the citations that `cite` gives to their anchors. -/
def GroundedSummaryItem.citedContent (item : GroundedSummaryItem) (cite : UUID → UUID) : Fields :=
  item.contentWith (item.supports.map fun s ↦ .object (s.citedContent (cite s.sourceAnchorId)))

/-- The sections as a member reads them, from the item number `n` on. -/
def citedSections (cite : ℕ → UUID → UUID) : ℕ → List GroundedSummarySection → List Json
  | _, [] => []
  | n, part :: rest =>
    .object (part.contentWith ((part.items.zipIdx n).map fun p ↦
      .object (p.1.citedContent (cite p.2)))) :: citedSections cite (n + part.items.length) rest

section Walk

variable {forbidden : List String}

theorem walk_array {items : List Json} :
    walk forbidden (.array items) = none ↔ ∀ v ∈ items, walk forbidden v = none := by
  have hitems : walkItems forbidden items = none ↔ ∀ v ∈ items, walk forbidden v = none := by
    induction items with
    | nil => exact iff_of_true rfl (List.forall_mem_nil _)
    | cons v items ih => rw [walkItems, Option.or_eq_none_iff, ih, List.forall_mem_cons]
  rw [walk, hitems]

theorem walk_object {fields : Fields} :
    walk forbidden (.object fields) = none ↔
      (∀ name ∈ forbidden, ¬Has fields name) ∧ ∀ p ∈ fields, walk forbidden p.2 = none := by
  have hfields : walkFields forbidden fields = none ↔ ∀ p ∈ fields, walk forbidden p.2 = none := by
    induction fields with
    | nil => exact iff_of_true rfl (List.forall_mem_nil _)
    | cons p fields ih => rw [walkFields, Option.or_eq_none_iff, ih, List.forall_mem_cons]
  rw [walk, ← hfields]
  have hkeys : forbidden.filter (Has fields ·) = [] ↔ ∀ name ∈ forbidden, ¬Has fields name := by
    simp only [List.filter_eq_nil_iff, decide_eq_true_eq]
  by_cases hnone : forbidden.filter (Has fields ·) = []
  · rw [if_pos hnone]
    exact (and_iff_right (hkeys.mp hnone)).symm
  · rw [if_neg hnone]
    exact iff_of_false (Option.some_ne_none _) fun h ↦ hnone (hkeys.mpr h.1)

theorem walk_obj {fields : List (String × Json)} (names : List String)
    (hnames : fields.map Prod.fst = names) (hkeys : ∀ name ∈ forbidden, name ∉ names)
    (hvalues : ∀ p ∈ fields, walk forbidden p.2 = none) :
    walk forbidden (.object (obj fields)) = none := by
  subst hnames
  refine walk_object.mpr ⟨fun name hname ↦ has_obj.not.mpr (hkeys name hname), fun q hq ↦ ?_⟩
  obtain ⟨p, hp, rfl⟩ := List.mem_map.mp hq
  exact hvalues p hp

/-- The content of a summary has keys of its own only. -/
theorem walk_structuredContent (summary : GroundedSummary)
    (h : ∀ name ∈ forbidden, name ∉ ["sections", "heading", "items", "text", "source_anchor_ids",
      "supports", "source_anchor_id", "exact_quote", "start", "end"]) :
    walk forbidden (.object summary.structuredContent) = none := by
  have hsub : ∀ names : List String, (∀ name ∈ names, name ∈ ["sections", "heading", "items", "text",
      "source_anchor_ids", "supports", "source_anchor_id", "exact_quote", "start", "end"]) →
        ∀ name ∈ forbidden, name ∉ names :=
    fun names hnames name hname hmem ↦ h name hname (hnames name hmem)
  refine walk_obj ["sections"] rfl (hsub _ (by decide))
    (List.forall_mem_singleton.mpr (walk_array.mpr ?_))
  refine List.forall_mem_map.mpr fun part _ ↦
    walk_obj ["heading", "items"] rfl (hsub _ (by decide)) ?_
  refine List.forall_mem_cons.mpr ⟨by rw [walk], List.forall_mem_singleton.mpr (walk_array.mpr ?_)⟩
  refine List.forall_mem_map.mpr fun item _ ↦
    walk_obj ["text", "source_anchor_ids", "supports"] rfl (hsub _ (by decide)) ?_
  refine List.forall_mem_cons.mpr ⟨by rw [walk], List.forall_mem_cons.mpr ⟨walk_array.mpr ?_,
    List.forall_mem_singleton.mpr (walk_array.mpr ?_)⟩⟩
  · exact List.forall_mem_map.mpr fun id _ ↦ by rw [walk]
  · refine List.forall_mem_map.mpr fun s _ ↦ walk_obj
      ["source_anchor_id", "exact_quote", "start", "end"] rfl (hsub _ (by decide)) ?_
    simp only [List.forall_mem_cons, walk, true_and]
    exact List.forall_mem_nil _

theorem assertNoFixtureAliases_structuredContent (summary : GroundedSummary) :
    assertNoFixtureAliases summary.structuredContent = .ok () :=
  require_of (walk_structuredContent summary (by decide))

end Walk

section Read

variable {rows : List ((ℕ × Str) × Str)} {cite : ℕ → UUID → UUID}

theorem citationsBySupport_of_nodup (h : (rows.map Prod.fst).Nodup) :
    citationsBySupport rows = .ok rows := by
  have hrows : [] ++ rows = rows := List.nil_append rows
  rw [citationsBySupport, foldlM_insertUnique.mpr ⟨⟨List.forall_mem_nil _, ?_⟩, rfl⟩, hrows]
  exact List.pairwise_map.mp h

/-- The supports of the item `n` have their citations in the rows. -/
def HasCitations (rows : List ((ℕ × Str) × Str)) (cite : ℕ → UUID → UUID) (n : ℕ)
    (item : GroundedSummaryItem) : Prop :=
  ∀ s ∈ item.supports,
    ((n, uuidText s.sourceAnchorId), uuidText (cite n s.sourceAnchorId)) ∈ rows

theorem citeSupport_content (hnodup : (rows.map Prod.fst).Nodup) {n : ℕ}
    {s : GroundedSummarySupport}
    (h : ((n, uuidText s.sourceAnchorId), uuidText (cite n s.sourceAnchorId)) ∈ rows) :
    citeSupport rows n (.object s.content) =
      .ok (.object (s.citedContent (cite n s.sourceAnchorId))) := by
  have hfind : rows.find? (·.1 = (n, uuidText s.sourceAnchorId)) =
      some ((n, uuidText s.sourceAnchorId), uuidText (cite n s.sourceAnchorId)) := by
    have hsome : (rows.find? (·.1 = (n, uuidText s.sourceAnchorId))).isSome = true :=
      List.find?_isSome.mpr ⟨_, h, by simp⟩
    obtain ⟨row, hrow⟩ := Option.isSome_iff_exists.mp hsome
    rw [hrow, eq_of_key_eq hnodup (List.mem_of_find?_eq_some hrow) h
      (of_decide_eq_true (List.find?_some hrow :))]
  rw [citeSupport, contentObject, ok_bind, GroundedSummarySupport.content]
  simp only [get_obj_cons, if_true]
  rw [hfind]
  simp [setItem, obj, GroundedSummarySupport.citedContent]

theorem citeItem_content (hnodup : (rows.map Prod.fst).Nodup) {n : ℕ} {item : GroundedSummaryItem}
    (hsupports : item.supports ≠ []) (h : HasCitations rows cite n item) :
    citeItem rows (item.content, n) = .ok (.object (item.citedContent (cite n))) := by
  have hcited : (item.supports.map fun s ↦ Json.object s.content).mapM (citeSupport rows n) =
      .ok (item.supports.map fun s ↦ .object (s.citedContent (cite n s.sourceAnchorId))) := by
    rw [mapM_eq_ok, List.forall₂_map_left_iff, List.forall₂_map_right_iff, List.forall₂_same]
    exact fun s hs ↦ citeSupport_content hnodup (h s hs)
  obtain ⟨first, rest, hcons⟩ := List.exists_cons_of_ne_nil hsupports
  rw [citeItem, GroundedSummaryItem.content, GroundedSummaryItem.contentWith]
  simp only [get_obj_cons, String.reduceEq, if_false, if_true]
  have hlist : contentItems "summary item supports are invalid"
      (.array (item.supports.map fun s ↦ Json.object s.content)) =
        .ok (item.supports.map fun s ↦ Json.object s.content) := by
    rw [hcons]
    rfl
  rw [hlist, ok_bind, hcited, ok_bind]
  simp [setItem, obj, GroundedSummaryItem.citedContent, GroundedSummaryItem.contentWith]

theorem sectionItems_content {part : GroundedSummarySection} (h : part.items ≠ []) :
    sectionItems (.object part.content) = .ok (part.items.map (·.content)) := by
  obtain ⟨first, rest, hcons⟩ := List.exists_cons_of_ne_nil h
  have hlist : contentItems "summary section items are invalid"
      (.array (part.items.map fun item ↦ Json.object item.content)) =
        .ok (part.items.map fun item ↦ Json.object item.content) := by
    rw [hcons]
    rfl
  have hobjects : (part.items.map fun item ↦ Json.object item.content).mapM
      (contentObject "summary item is invalid") = .ok (part.items.map (·.content)) := by
    rw [mapM_eq_ok, List.forall₂_map_left_iff, List.forall₂_map_right_iff, List.forall₂_same]
    exact fun _ _ ↦ rfl
  have hkeys : ExactKeys ["heading", "items"] part.content := exactKeys_obj rfl
  rw [sectionItems, contentObject, ok_bind, require_of hkeys, ok_bind, GroundedSummarySection.content,
    GroundedSummarySection.contentWith]
  simp only [get_obj_cons, String.reduceEq, if_false, if_true]
  rw [hlist, ok_bind, hobjects]

/-- The reader's walk over the sections meets the items in the order of the writer's count. -/
theorem putBack_sections (sections : List GroundedSummarySection) (n : ℕ) :
    putBack (sections.map (·.content)) (sections.map fun part ↦ (part.items.map (·.content)).length)
      (((sections.flatMap (·.items)).zipIdx n).map fun p ↦
        Json.object (p.1.citedContent (cite p.2))) = citedSections cite n sections := by
  induction sections generalizing n with
  | nil => rfl
  | cons part rest ih =>
    rw [List.map_cons, List.map_cons, List.flatMap_cons, List.zipIdx_append, List.map_append, putBack,
      citedSections, List.length_map]
    have hlength : ((part.items.zipIdx n).map fun p ↦
        Json.object (p.1.citedContent (cite p.2))).length = part.items.length := by simp
    rw [← hlength, List.take_left, List.drop_left, hlength, ih]
    simp [setItem, obj, GroundedSummarySection.content, GroundedSummarySection.contentWith]

/-- **What a member reads of a summary** whose supports all have their citations in the tables. -/
theorem summaryContentWithCitationIds_eq {t : ContentTables} {documentId : UUID}
    {summary : GroundedSummary}
    (hisolated : assertSummaryContentIsIsolated summary.structuredContent = .ok ())
    (hdumpable : Dumpable (.object summary.structuredContent)) (hsections : summary.sections ≠ [])
    (hitems : ∀ part ∈ summary.sections, part.items ≠ [])
    (hsupports : ∀ item ∈ summary.items, item.supports ≠ [])
    (hnodup : ((sourceCitations t documentId).map Prod.fst).Nodup)
    (hcite : ∀ p ∈ summary.items.zipIdx, HasCitations (sourceCitations t documentId) cite p.2 p.1) :
    summaryContentWithCitationIds t documentId summary.structuredContent =
      .ok (obj [("sections", .array (citedSections cite 0 summary.sections))]) := by
  obtain ⟨first, rest, hcons⟩ := List.exists_cons_of_ne_nil hsections
  obtain ⟨ts, hts⟩ := hdumpable
  have hlist : contentItems "summary document sections are invalid"
      (.array (summary.sections.map fun part ↦ Json.object part.content)) =
        .ok (summary.sections.map fun part ↦ Json.object part.content) := by
    rw [hcons]
    rfl
  have hflat : (summary.sections.map fun part ↦ Json.object part.content).mapM sectionItems =
      .ok (summary.sections.map fun part ↦ part.items.map (·.content)) := by
    rw [mapM_eq_ok, List.forall₂_map_left_iff, List.forall₂_map_right_iff, List.forall₂_same]
    exact fun part hpart ↦ sectionItems_content (hitems part hpart)
  have hparts : (summary.sections.map fun part ↦ Json.object part.content).mapM
      (contentObject "summary section is invalid") = .ok (summary.sections.map (·.content)) := by
    rw [mapM_eq_ok, List.forall₂_map_left_iff, List.forall₂_map_right_iff, List.forall₂_same]
    exact fun _ _ ↦ rfl
  have hordinals : (summary.sections.map fun part ↦ part.items.map (·.content)).flatten.zipIdx =
      summary.items.zipIdx.map fun p ↦ (p.1.content, p.2) := by
    rw [← List.flatMap_def, ← List.map_flatMap, List.zipIdx_map]
    rfl
  have hcited : (summary.items.zipIdx.map fun p ↦ (p.1.content, p.2)).mapM
      (citeItem (sourceCitations t documentId)) =
        .ok (summary.items.zipIdx.map fun p ↦ Json.object (p.1.citedContent (cite p.2))) := by
    rw [mapM_eq_ok, List.forall₂_map_left_iff, List.forall₂_map_right_iff, List.forall₂_same]
    exact fun p hp ↦ citeItem_content hnodup (hsupports p.1 (List.fst_mem_of_mem_zipIdx hp)) (hcite p hp)
  have hput := @putBack_sections cite summary.sections 0
  rw [summaryContentWithCitationIds, hisolated, ok_bind, assertNoFixtureAliases_structuredContent,
    ok_bind, jsonObjectCopy, hts]
  dsimp only
  rw [ok_bind, GroundedSummary.structuredContent, get_obj_cons, if_pos rfl, hlist, ok_bind, hflat,
    ok_bind, citationsBySupport_of_nodup hnodup, ok_bind, hordinals, hcited, ok_bind, hparts, ok_bind,
    List.map_map]
  rw [show (List.length ∘ fun part : GroundedSummarySection ↦ part.items.map (·.content)) =
    fun part ↦ (part.items.map (·.content)).length from rfl, GroundedSummary.items, hput]
  simp [setItem, obj]

end Read

/-! ## Fidelity -/

section Rows

variable {t : ContentTables} {documentId : UUID}

theorem citationEntry_eq_some {segment : GeneratedSegment} {c : CitationWrite}
    {row : (ℕ × Str) × Str} :
    citationEntry segment c = some row ↔ c.segmentId = segment.id ∧ ∃ anchorId,
      c.target = .sourceAnchor anchorId ∧
        row = ((segment.ordinal, uuidText anchorId), uuidText c.id) := by
  rw [citationEntry]
  split
  · next anchorId htarget =>
    rw [htarget]
    split
    · next hid =>
      rw [Option.some.injEq]
      constructor
      · rintro rfl
        exact ⟨hid, anchorId, rfl, rfl⟩
      · rintro ⟨-, _, ⟨⟩, rfl⟩
        rfl
    · next hid => exact iff_of_false (Option.some_ne_none _).symm fun h ↦ hid h.1
  · next evidenceId htarget =>
    rw [htarget]
    refine iff_of_false (Option.some_ne_none _).symm ?_
    rintro ⟨-, _, h, -⟩
    cases h

theorem filterMap_citationEntry {segment : GeneratedSegment} (h : segment ∈ t.segmentsOf documentId) :
    t.citations.filterMap (citationEntry segment) =
      (t.citationsOf documentId).filterMap (citationEntry segment) := by
  rw [ContentTables.citationsOf, List.filterMap_filter]
  refine List.filterMap_congr fun c _ ↦ ?_
  by_cases hc : ∃ s ∈ t.segmentsOf documentId, s.id = c.segmentId
  · rw [if_pos (decide_eq_true hc)]
  · rw [if_neg (by simpa using hc)]
    refine Option.eq_none_iff_forall_ne_some.mpr fun row hrow ↦ hc ⟨segment, h, ?_⟩
    exact (citationEntry_eq_some.mp hrow).1.symm

/-- A summary's citations are told apart by the ordinals of their segments and by their anchors. -/
theorem sourceCitations_nodup (hordinals : ((t.segmentsOf documentId).map (·.ordinal)).Nodup)
    (hpairs : ((t.citationsOf documentId).map fun c ↦ (c.segmentId, c.target)).Nodup) :
    ((sourceCitations t documentId).map Prod.fst).Nodup := by
  have hrows : sourceCitations t documentId = (t.segmentsOf documentId).flatMap fun segment ↦
      (t.citationsOf documentId).filterMap (citationEntry segment) :=
    List.flatMap_congr fun segment hsegment ↦ filterMap_citationEntry hsegment
  rw [hrows, List.map_flatMap, List.nodup_flatMap]
  constructor
  · intro segment _
    refine List.pairwise_map.mpr (List.pairwise_filterMap.mpr ?_)
    refine (List.pairwise_map.mp hpairs).imp fun {c c'} hne row hrow row' hrow' hkey ↦ hne ?_
    obtain ⟨hid, anchorId, htarget, rfl⟩ := citationEntry_eq_some.mp hrow
    obtain ⟨hid', anchorId', htarget', rfl⟩ := citationEntry_eq_some.mp hrow'
    have hanchor : anchorId = anchorId' := uuidText_inj.mp (Prod.mk.inj hkey).2
    rw [hid, hid', htarget, htarget', hanchor]
  · refine (List.pairwise_map.mp hordinals).imp fun {a b} hne key ha hb ↦ hne ?_
    obtain ⟨row, hrow, hkey⟩ := List.mem_map.mp ha
    obtain ⟨row', hrow', hkey'⟩ := List.mem_map.mp hb
    obtain ⟨c, -, hc⟩ := List.mem_filterMap.mp hrow
    obtain ⟨c', -, hc'⟩ := List.mem_filterMap.mp hrow'
    obtain ⟨-, _, -, rfl⟩ := citationEntry_eq_some.mp hc
    obtain ⟨-, _, -, rfl⟩ := citationEntry_eq_some.mp hc'
    exact (Prod.mk.inj (hkey.trans hkey'.symm)).1

end Rows

/-- What `__post_init__` demands of the citations of a summary. -/
theorem postInit_summary {w : GenerationWrites} (h : w.postInit = .ok ()) (hkind : w.kind = .summary) :
    Dumpable (.object w.structuredContent) ∧
      (w.citations.map fun c ↦ (c.segmentId, c.target)).Nodup := by
  obtain ⟨text, htext, h⟩ := bind_eq_ok.mp h
  obtain ⟨-, h⟩ := require_bind_eq_ok.mp h
  obtain ⟨-, h⟩ := require_bind_eq_ok.mp h
  obtain ⟨-, h⟩ := require_bind_eq_ok.mp h
  obtain ⟨-, h⟩ := require_bind_eq_ok.mp h
  obtain ⟨-, h⟩ := require_bind_eq_ok.mp h
  obtain ⟨-, h⟩ := require_bind_eq_ok.mp h
  obtain ⟨-, h⟩ := require_bind_eq_ok.mp h
  rw [hkind] at h
  obtain ⟨-, h⟩ := require_bind_eq_ok.mp h
  obtain ⟨-, h⟩ := require_bind_eq_ok.mp h
  obtain ⟨-, h⟩ := require_bind_eq_ok.mp h
  obtain ⟨hpairs, -⟩ := require_bind_eq_ok.mp h
  refine ⟨dumps_isOk.mp ?_, hpairs⟩
  rw [canonicalJsonText] at htext
  split at htext
  · next text' hdumps => exact ⟨text', hdumps⟩
  · exact nomatch htext

/-! ## A stored summary -/

/-- The citation that was written for the segment of the item with a number and an anchor. -/
def citeOf (draws : SummaryDraws) (w : GenerationWrites) (n : ℕ) (anchorId : UUID) : UUID :=
  ((w.citations.find? fun c ↦
    c.segmentId = draws.segmentId n ∧ c.target = .sourceAnchor anchorId).map (·.id)).getD 0

section Written

variable {summary : GroundedSummary} {draws : SummaryDraws} {w : GenerationWrites}

theorem mem_segmentRows_of_zipIdx (hbuild : summaryCompletion draws summary = .ok w) :
    ∀ p ∈ summary.items.zipIdx, segmentRow draws p.2 p.1 ∈ w.segmentRows := by
  obtain ⟨-, -, -, -, hsegments, -⟩ := summaryCompletion_eq_ok hbuild
  intro p hp
  rw [hsegments, List.mapIdx_eq_zipIdx_map]
  exact List.mem_map_of_mem hp

theorem mem_citations (hbuild : summaryCompletion draws summary = .ok w) {c : CitationWrite} :
    c ∈ w.citations ↔ ∃ p ∈ summary.items.zipIdx, ∃ k s, p.1.supports[k]? = some s ∧
      c = ⟨draws.citationId p.2 k, draws.segmentId p.2, .sourceAnchor s.sourceAnchorId⟩ := by
  obtain ⟨-, -, -, -, -, hcitations, -⟩ := summaryCompletion_eq_ok hbuild
  have hitem : ∀ p : GroundedSummaryItem × ℕ, c ∈ itemCitations draws p.2 p.1 ↔
      ∃ k s, p.1.supports[k]? = some s ∧
        c = ⟨draws.citationId p.2 k, draws.segmentId p.2, .sourceAnchor s.sourceAnchorId⟩ := by
    intro p
    rw [itemCitations, List.mem_iff_getElem?]
    simp only [List.getElem?_mapIdx, Option.map_eq_some_iff, eq_comm (a := c)]
  rw [hcitations, List.mapIdx_eq_zipIdx_map, List.mem_flatten]
  constructor
  · rintro ⟨_, hmem, hc⟩
    obtain ⟨p, hp, rfl⟩ := List.mem_map.mp hmem
    exact ⟨p, hp, (hitem p).mp hc⟩
  · rintro ⟨p, hp, hc⟩
    exact ⟨_, List.mem_map_of_mem hp, (hitem p).mpr hc⟩

theorem exists_citation (hbuild : summaryCompletion draws summary = .ok w) :
    ∀ p ∈ summary.items.zipIdx, ∀ s ∈ p.1.supports, ∃ c ∈ w.citations,
      c.segmentId = draws.segmentId p.2 ∧ c.target = .sourceAnchor s.sourceAnchorId := by
  intro p hp s hs
  obtain ⟨k, hk⟩ := List.mem_iff_getElem?.mp hs
  exact ⟨_, (mem_citations hbuild).mpr ⟨p, hp, k, s, hk, rfl⟩, rfl, rfl⟩

/-- A completion has one citation of a segment and a target. -/
theorem citation_unique (hbuild : summaryCompletion draws summary = .ok w) :
    ∀ c ∈ w.citations, ∀ c' ∈ w.citations, c'.segmentId = c.segmentId → c'.target = c.target →
      c' = c := by
  obtain ⟨hchecked, hkind, -⟩ := summaryCompletion_eq_ok hbuild
  intro c hc c' hc' hsegmentId htarget
  exact eq_of_key_eq (postInit_summary hchecked hkind).2 hc' hc (Prod.ext hsegmentId htarget)

theorem citeOf_eq (hbuild : summaryCompletion draws summary = .ok w) {n : ℕ} {anchorId : UUID}
    {c : CitationWrite} (hc : c ∈ w.citations) (hsegmentId : c.segmentId = draws.segmentId n)
    (htarget : c.target = .sourceAnchor anchorId) : citeOf draws w n anchorId = c.id := by
  obtain ⟨c', hc'⟩ : ∃ c', w.citations.find? (fun c ↦
      c.segmentId = draws.segmentId n ∧ c.target = .sourceAnchor anchorId) = some c' :=
    Option.isSome_iff_exists.mp
      (List.find?_isSome.mpr ⟨c, hc, decide_eq_true ⟨hsegmentId, htarget⟩⟩)
  obtain ⟨hsegmentId', htarget'⟩ := of_decide_eq_true (List.find?_some hc' :)
  have hsame : c' = c := citation_unique hbuild c hc c' (List.mem_of_find?_eq_some hc')
    (hsegmentId'.trans hsegmentId.symm) (htarget'.trans htarget.symm)
  rw [citeOf, hc', hsame]
  rfl

end Written

/-- A summary that was committed, and any number of transactions since. -/
structure HeldSummary (draws : SummaryDraws) (summary : GroundedSummary) (w : GenerationWrites)
    (t : ContentTables) : Prop where
  build : summaryCompletion draws summary = .ok w
  document : t.documents.find? (·.id = w.documentId) = some ⟨w.documentId, summary.structuredContent⟩
  segments : t.segmentsOf w.documentId = w.segmentRows
  citations : t.citationsOf w.documentId = w.citations

section Stored

variable {ctype : Ctype} {summary : GroundedSummary} {draws : SummaryDraws} {w : GenerationWrites}
  {t t₁ t₂ : ContentTables} {runId : UUID}

theorem heldSummary_of_insert (hbuild : summaryCompletion draws summary = .ok w)
    (hreach : ContentSteps ctype emptyContents t) (hcommit : w.insert ctype runId t = .ok t₁)
    (hlater : ContentSteps ctype t₁ t₂) : HeldSummary draws summary w t₂ := by
  obtain ⟨hchecked, -, -, hcontent, -⟩ := summaryCompletion_eq_ok hbuild
  obtain ⟨hrow, hsegments, hcitations⟩ := contents_of_insert
    (ContentTables.referential_empty.steps hreach) hchecked (insert_eq_ok.mp hcommit)
  obtain ⟨hsame, -⟩ := sameContents_steps hlater ⟨_, List.mem_of_find?_eq_some hrow, rfl⟩
  rw [hcontent] at hrow
  exact ⟨hbuild, hsame.document.trans hrow, hsame.segments.trans hsegments,
    hsame.citations.trans hcitations⟩

/-- **A member reads the stored summary**, with the citations that were written for its supports. -/
theorem HeldSummary.read (h : HeldSummary draws summary w t)
    {anchors : List RuntimeSourceAnchor} (hsound : SoundSummary anchors summary) {db : Database}
    {sessionId actorId : UUID} {document : MemberGenerationDocument}
    (hdocument : memberDocument db sessionId actorId .summary = .ok document)
    (hid : document.documentId = w.documentId) :
    getSummaryForMember db t sessionId actorId =
      .ok (obj [("snapshot_id", .str (uuidText document.snapshotId)),
        ("sections", .array (citedSections (citeOf draws w) 0 summary.sections))]) := by
  obtain ⟨hchecked, hkind, -, hcontent, hsegments, -⟩ := summaryCompletion_eq_ok h.build
  obtain ⟨hdumpable, hpairs⟩ := postInit_summary hchecked hkind
  rw [hcontent] at hdumpable
  have hsupported : ∀ item ∈ summary.items, item.supports ≠ [] := by
    intro item hitem
    obtain ⟨part, hpart, hmem⟩ := List.mem_flatMap.mp hitem
    exact ((hsound.sections part hpart).items item hmem).supported
  -- the ordinals of the segments number the items
  have hordinals : ((t.segmentsOf w.documentId).map (·.ordinal)).Nodup := by
    rw [h.segments, hsegments, List.mapIdx_eq_zipIdx_map, List.map_map,
      show (GeneratedSegment.ordinal ∘ fun p : GroundedSummaryItem × ℕ ↦
        segmentRow draws p.2 p.1) = Prod.snd from rfl, List.zipIdx_map_snd, ← List.range_eq_range']
    exact List.nodup_range
  have hread := @summaryContentWithCitationIds_eq (citeOf draws w) t w.documentId summary
    (by rw [assertSummaryContentIsIsolated, walk_structuredContent summary (by decide)])
    hdumpable hsound.nonempty (fun part hpart ↦ (hsound.sections part hpart).nonempty) hsupported
    (sourceCitations_nodup hordinals (h.citations ▸ hpairs)) fun p hp s hs ↦ ?_
  · obtain ⟨ts, hts⟩ := hdumpable
    rw [getSummaryForMember, hdocument, ok_bind, hid, h.document]
    dsimp only
    rw [jsonObjectCopy, hts, ok_bind, hread, ok_bind]
    simp [dict, setItem, obj]
  · obtain ⟨c, hc, hsegmentId, htarget⟩ := exists_citation h.build p hp s hs
    have hsegment : segmentRow draws p.2 p.1 ∈ t.segmentsOf w.documentId :=
      h.segments ▸ mem_segmentRows_of_zipIdx h.build p hp
    refine List.mem_flatMap.mpr ⟨segmentRow draws p.2 p.1, hsegment,
      List.mem_filterMap.mpr ⟨c, (List.mem_filter.mp (h.citations ▸ hc)).1,
        citationEntry_eq_some.mpr ⟨hsegmentId, s.sourceAnchorId, htarget, ?_⟩⟩⟩
    rw [citeOf_eq h.build hc hsegmentId htarget]
    rfl

end Stored

/-- The citation row of an item's segment and an anchor. -/
structure CitesItem (t : ContentTables) (documentId : UUID) (n : ℕ) (item : GroundedSummaryItem)
    (anchorId : UUID) (c : CitationWrite) : Prop where
  mem : c ∈ t.citations
  target : c.target = .sourceAnchor anchorId
  segment : ∃ segment ∈ t.segments, segment.id = c.segmentId ∧ segment.documentId = documentId ∧
    segment.ordinal = n ∧ segment.text = item.text
  unique : ∀ c' ∈ t.citations, c'.segmentId = c.segmentId → c'.target = c.target → c' = c

/-- **Citation fidelity.** A member who may read the document of a committed summary gets it, however
many transactions follow the commit: every support comes with the one citation that was written for the
segment of its item and for its anchor, and every citation of the document is that of a support. -/
theorem summary_citations_faithful {word : CodePoint → Bool} {anchors : List RuntimeSourceAnchor}
    {summary : GroundedSummary} (hgrounded : Grounded word anchors summary) {draws : SummaryDraws}
    {w : GenerationWrites} (hbuild : summaryCompletion draws summary = .ok w) {ctype : Ctype}
    {t t₁ t₂ : ContentTables} (hreach : ContentSteps ctype emptyContents t) {runId : UUID}
    (hcommit : w.insert ctype runId t = .ok t₁) (hlater : ContentSteps ctype t₁ t₂) {db : Database}
    {sessionId actorId : UUID} {document : MemberGenerationDocument}
    (hdocument : memberDocument db sessionId actorId .summary = .ok document)
    (hid : document.documentId = w.documentId) :
    ∃ cite : ℕ → UUID → UUID,
      getSummaryForMember db t₂ sessionId actorId =
        .ok (obj [("snapshot_id", .str (uuidText document.snapshotId)),
          ("sections", .array (citedSections cite 0 summary.sections))]) ∧
      (∀ p ∈ summary.items.zipIdx, ∀ s ∈ p.1.supports,
        ∃ c ∈ w.citations, c.id = cite p.2 s.sourceAnchorId ∧
          CitesItem t₂ w.documentId p.2 p.1 s.sourceAnchorId c) ∧
      ∀ c ∈ w.citations, ∃ p ∈ summary.items.zipIdx, ∃ s ∈ p.1.supports,
        c.id = cite p.2 s.sourceAnchorId := by
  have hstored := heldSummary_of_insert hbuild hreach hcommit hlater
  refine ⟨citeOf draws w, hstored.read hgrounded.sound hdocument hid, fun p hp s hs ↦ ?_,
    fun c hc ↦ ?_⟩
  · obtain ⟨c, hc, hsegmentId, htarget⟩ := exists_citation hbuild p hp s hs
    have hsegment : segmentRow draws p.2 p.1 ∈ t₂.segmentsOf w.documentId :=
      hstored.segments ▸ mem_segmentRows_of_zipIdx hbuild p hp
    obtain ⟨hmem, hdocumentId⟩ := List.mem_filter.mp hsegment
    refine ⟨c, hc, (citeOf_eq hbuild hc hsegmentId htarget).symm,
      (List.mem_filter.mp (hstored.citations ▸ hc)).1, htarget,
      ⟨_, hmem, hsegmentId.symm, of_decide_eq_true hdocumentId, rfl, rfl⟩, ?_⟩
    intro c' hc' hsegmentId' htarget'
    refine citation_unique hbuild c hc c' ?_ hsegmentId' htarget'
    rw [← hstored.citations]
    exact List.mem_filter.mpr ⟨hc', decide_eq_true
      ⟨_, hsegment, (hsegmentId'.trans hsegmentId).symm⟩⟩
  · obtain ⟨p, hp, k, s, hk, rfl⟩ := (mem_citations hbuild).mp hc
    exact ⟨p, hp, s, List.mem_of_getElem? hk, (citeOf_eq hbuild hc rfl rfl).symm⟩

/-! ### A summary of one item -/

/-- An anchor of seven words. -/
def deliveryAnchor : RuntimeSourceAnchor :=
  ⟨1, 2, lit "We deliver the first part on Monday.", lit "factual_claim", lit "paragraph", none,
    by decide, factualClaim_not_blank, paragraph_not_blank, unit_none⟩

theorem deliveryText_not_blank : ¬Blank (lit "Delivery on Monday") := by decide

theorem dates_not_blank : ¬Blank (lit "Dates") := by decide

theorem firstAnchor_ne_nil : ([1] : List UUID) ≠ [] := List.cons_ne_nil _ _

def deliveryCandidate : SummaryCandidate :=
  ⟨[⟨lit "Dates", [⟨lit "Delivery on Monday", [1], [⟨1, lit "on Monday", by decide⟩],
    deliveryText_not_blank, firstAnchor_ne_nil, by decide⟩], dates_not_blank, List.cons_ne_nil _ _⟩],
    List.cons_ne_nil _ _⟩

def deliverySummary : GroundedSummary :=
  ⟨[⟨lit "Dates", [⟨lit "Delivery on Monday", [1], [⟨1, lit "on Monday", 26, 35⟩]⟩]⟩]⟩

def deliveryDraws : SummaryDraws := ⟨61, fun n ↦ ⟨100 + n⟩, fun n k ↦ ⟨200 + 10 * n + k⟩⟩

/-- The summary of the snapshot in a session whose research is still running. -/
theorem summary_citations_faithful_of_delivery :
    ∃ w t, summaryCompletion deliveryDraws deliverySummary = .ok w ∧
      w.insert Ctype.c 5 { emptyContents with sourceAnchors := [1] } = .ok t ∧
      ∃ cite : ℕ → UUID → UUID,
        getSummaryForMember (systemMachine.exec (emptySystem 0) (researchPutBack.take 5)).db t 3 1 =
          .ok (obj [("snapshot_id", .str (uuidText 100)),
            ("sections", .array (citedSections cite 0 deliverySummary.sections))]) := by
  have hruns : (summaryCompletion deliveryDraws deliverySummary >>= fun w ↦
      w.insert Ctype.c 5 { emptyContents with sourceAnchors := [1] }).toBool = true := by
    decide +kernel
  have hground : groundLiveSummary asciiWord deliveryCandidate [deliveryAnchor] =
      .ok deliverySummary := by
    decide +kernel
  obtain ⟨document, hdocument, hid, hsnapshot⟩ : ∃ document,
      memberDocument (systemMachine.exec (emptySystem 0) (researchPutBack.take 5)).db 3 1 .summary =
        .ok document ∧ document.documentId = 61 ∧ document.snapshotId = 100 :=
    ⟨⟨3, 100, 61, .summary, "{}"⟩, by decide +kernel, rfl, rfl⟩
  cases hrun : summaryCompletion deliveryDraws deliverySummary >>= fun w ↦
      w.insert Ctype.c 5 { emptyContents with sourceAnchors := [1] } with
  | error e =>
    rw [hrun] at hruns
    exact nomatch hruns
  | ok t =>
    obtain ⟨w, hbuild, hcommit⟩ := bind_eq_ok.mp hrun
    obtain ⟨-, -, hdocumentId, -⟩ := summaryCompletion_eq_ok hbuild
    obtain ⟨cite, hread, -⟩ := summary_citations_faithful
      (.live [deliveryAnchor] (fun _ h ↦ h) deliveryCandidate hground) hbuild
      (.single (.anchored [1])) hcommit .refl hdocument (hid.trans hdocumentId.symm)
    rw [hsnapshot] at hread
    exact ⟨w, t, hbuild, hcommit, cite, hread⟩

end MeetingRag
