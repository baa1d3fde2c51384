import MeetingRag.Generation.Citations
import MeetingRag.Generation.Merging
import MeetingRag.Library.Wire

/-!
# Reading a stored summary

A summary is bounded when it is read, by the model of the response: fifty sections, a heading of 240
characters, fifty supports of an item. Grounding and merging bound none of these; the merge stops at a
hundred items. The model also strips its texts, and a quote that begins or ends with white space then no
longer is what its anchor has at its place.
-/

open Outcome Py Json Lists Wire

namespace MeetingRag

/-! ## The model of the response -/

structure SummarySupportModel where
  citationId : UUID
  sourceAnchorId : UUID
  exactQuote : Str
  start : ℕ
  stop : ℕ
deriving DecidableEq, Repr

structure SummaryItemModel where
  text : Str
  sourceAnchorIds : List UUID
  supports : List SummarySupportModel
deriving DecidableEq, Repr

structure SummarySectionModel where
  heading : Str
  items : List SummaryItemModel
deriving DecidableEq, Repr

structure SummaryResult where
  snapshotId : UUID
  sections : List SummarySectionModel
deriving DecidableEq, Repr

def SummarySupportModel.modelValidate (v : Json) : Except ValidationError SummarySupportModel := do
  let support ← readRecord ["source_anchor_id", "exact_quote", "start", "end", "citation_id"] v
  let citationId ← readUuid (get support "citation_id")
  let sourceAnchorId ← readUuid (get support "source_anchor_id")
  let exactQuote ← readText 1 20000 (get support "exact_quote")
  let start ← readNatural 0 (get support "start")
  let stop ← readNatural 1 (get support "end")
  require (start < stop) .invalid
  .ok ⟨citationId, sourceAnchorId, exactQuote, start, stop⟩

def SummaryItemModel.modelValidate (v : Json) : Except ValidationError SummaryItemModel := do
  let item ← readRecord ["text", "source_anchor_ids", "supports"] v
  let itemText ← readText 1 10000 (get item "text")
  let sourceAnchorIds ← readList 1 50 readUuid (get item "source_anchor_ids")
  let supports ← readList 1 50 SummarySupportModel.modelValidate (get item "supports")
  require sourceAnchorIds.Nodup .invalid
  require (∀ id, id ∈ sourceAnchorIds ++ supports.map (·.sourceAnchorId) →
    id ∈ sourceAnchorIds ∧ id ∈ supports.map (·.sourceAnchorId)) .invalid
  .ok ⟨itemText, sourceAnchorIds, supports⟩

def SummarySectionModel.modelValidate (v : Json) : Except ValidationError SummarySectionModel := do
  let part ← readRecord ["heading", "items"] v
  let heading ← readText 1 240 (get part "heading")
  let partItems ← readList 1 100 SummaryItemModel.modelValidate (get part "items")
  .ok ⟨heading, partItems⟩

def SummaryResult.modelValidate (v : Json) : Except ValidationError SummaryResult := do
  let result ← readRecord ["snapshot_id", "sections"] v
  let snapshotId ← readUuid (get result "snapshot_id")
  let sections ← readList 1 50 SummarySectionModel.modelValidate (get result "sections")
  .ok ⟨snapshotId, sections⟩

/-- Every support of a response quotes its anchor at its place. -/
def SummaryResult.Exact (anchors : List RuntimeSourceAnchor) (result : SummaryResult) : Prop :=
  ∀ part ∈ result.sections, ∀ item ∈ part.items, ∀ s ∈ item.supports, ∀ anchor ∈ anchors,
    anchor.id = s.sourceAnchorId → slice s.start s.stop anchor.exactQuote = s.exactQuote

/-! ## What fits the model -/

/-- The bounds of the model on an item, and quotes that stripping leaves alone. -/
structure FittingItem (item : GroundedSummaryItem) : Prop where
  text : (trim item.text).length ≤ 10000
  ids : item.sourceAnchorIds.length ≤ 50
  supports : item.supports.length ≤ 50
  quotes : ∀ s ∈ item.supports, s.exactQuote.length ≤ 20000 ∧ trim s.exactQuote = s.exactQuote

/-- The items that survive the merge fit the model, under at most fifty headings. -/
structure FittingSummaries (summaries : List GroundedSummary) : Prop where
  sections : (survivingHeadings summaries).length ≤ 50
  heading : ∀ entry ∈ survivors summaries, (trim entry.1).length ≤ 240
  items : ∀ entry ∈ survivors summaries, FittingItem entry.2

/-! ## Reading back -/

section Views

variable {cite : ℕ → UUID → UUID} {anchors : List RuntimeSourceAnchor}

def GroundedSummarySupport.view (s : GroundedSummarySupport) (citationId : UUID) : SummarySupportModel :=
  ⟨citationId, s.sourceAnchorId, trim s.exactQuote, s.start, s.stop⟩

def GroundedSummaryItem.view (item : GroundedSummaryItem) (cite : UUID → UUID) : SummaryItemModel :=
  ⟨trim item.text, item.sourceAnchorIds, item.supports.map fun s ↦ s.view (cite s.sourceAnchorId)⟩

/-- The sections of the response, from the item number `n` on. -/
def sectionViews (cite : ℕ → UUID → UUID) : ℕ → List GroundedSummarySection → List SummarySectionModel
  | _, [] => []
  | n, part :: rest =>
    ⟨trim part.heading, (part.items.zipIdx n).map fun p ↦ p.1.view (cite p.2)⟩ ::
      sectionViews cite (n + part.items.length) rest

theorem readUuid_text {id u : UUID} : readUuid (.str (uuidText id)) = .ok u ↔ id = u := by
  rw [uuidText, readUuid_str, Except.ok.injEq]

theorem support_modelValidate {s : GroundedSummarySupport} (hs : SoundSupport anchors s)
    {citationId : UUID} {v : SummarySupportModel} :
    SummarySupportModel.modelValidate (.object (s.citedContent citationId)) = .ok v ↔
      (trim s.exactQuote).length ≤ 20000 ∧ s.view citationId = v := by
  have hquote : 1 ≤ (trim s.exactQuote).length :=
    List.length_pos_of_ne_nil (trim_ne_nil hs.nonblank)
  have hlength : (trim s.exactQuote).length ≤ s.exactQuote.length := length_trim_le _
  have hspan : s.start < s.stop := by
    rw [hs.stop]
    omega
  have hkeys : ExactKeys ["source_anchor_id", "exact_quote", "start", "end", "citation_id"]
      (s.citedContent citationId) := exactKeys_obj rfl
  rw [SummarySupportModel.modelValidate, readRecord_of hkeys, ok_bind,
    GroundedSummarySupport.citedContent]
  simp only [get_obj_cons, String.reduceEq, if_false, if_true, bind_eq_ok, readUuid_text, readText_eq_ok,
    readNatural_ofNat, require_eq_ok, Except.ok.injEq]
  constructor
  · rintro ⟨_, rfl, _, rfl, _, ⟨⟨-, hmost⟩, rfl⟩, _, ⟨-, rfl⟩, _, ⟨-, rfl⟩, _, -, rfl⟩
    exact ⟨hmost, rfl⟩
  · rintro ⟨hmost, rfl⟩
    exact ⟨_, rfl, _, rfl, _, ⟨⟨hquote, hmost⟩, rfl⟩, _, ⟨Nat.zero_le _, rfl⟩, _,
      ⟨by omega, rfl⟩, ⟨⟩, hspan, rfl⟩

/-- The bounds of the model on an item. -/
structure BoundedItem (item : GroundedSummaryItem) : Prop where
  text : (trim item.text).length ≤ 10000
  ids : item.sourceAnchorIds.length ≤ 50
  supports : item.supports.length ≤ 50
  quotes : ∀ s ∈ item.supports, (trim s.exactQuote).length ≤ 20000

theorem item_modelValidate {item : GroundedSummaryItem} (hitem : SoundItem anchors item)
    {cite : UUID → UUID} {v : SummaryItemModel} :
    SummaryItemModel.modelValidate (.object (item.citedContent cite)) = .ok v ↔
      BoundedItem item ∧ item.view cite = v := by
  have htext : 1 ≤ (trim item.text).length := List.length_pos_of_ne_nil (trim_ne_nil hitem.named)
  have hsupports : 1 ≤ item.supports.length := List.length_pos_of_ne_nil hitem.supported
  have hids : 1 ≤ item.sourceAnchorIds.length := by
    obtain ⟨s, hs⟩ := List.exists_mem_of_ne_nil _ hitem.supported
    exact List.length_pos_of_mem ((hitem.agree s.sourceAnchorId).mpr (List.mem_map_of_mem hs))
  have hreadIds : ∀ ids, (item.sourceAnchorIds.map fun id ↦ Json.str (uuidText id)).mapM readUuid =
      .ok ids ↔ item.sourceAnchorIds = ids := by
    intro ids
    have hread : ∀ id ∈ item.sourceAnchorIds, ∀ u,
        readUuid (.str (uuidText id)) = .ok u ↔ True ∧ id = u :=
      fun _ _ _ ↦ readUuid_text.trans (true_and _ ▸ Iff.rfl)
    rw [mapM_map_eq_ok hread, List.map_id']
    exact and_iff_right fun _ _ ↦ trivial
  have hreadSupports : ∀ supports, (item.supports.map fun s ↦
      Json.object (s.citedContent (cite s.sourceAnchorId))).mapM SummarySupportModel.modelValidate =
        .ok supports ↔ (∀ s ∈ item.supports, (trim s.exactQuote).length ≤ 20000) ∧
          item.supports.map (fun s ↦ s.view (cite s.sourceAnchorId)) = supports :=
    fun supports ↦ mapM_map_eq_ok fun s hs _ ↦ support_modelValidate (hitem.supports s hs)
  have hkeys : ExactKeys ["text", "source_anchor_ids", "supports"] (item.citedContent cite) :=
    exactKeys_obj rfl
  have hviews : (item.supports.map fun s ↦ s.view (cite s.sourceAnchorId)).map (·.sourceAnchorId) =
      supportIds item.supports := by
    rw [List.map_map]
    rfl
  rw [SummaryItemModel.modelValidate, readRecord_of hkeys, ok_bind,
    GroundedSummaryItem.citedContent, GroundedSummaryItem.contentWith]
  simp only [get_obj_cons, String.reduceEq, if_false, if_true, bind_eq_ok, readText_eq_ok,
    readList_eq_ok, List.length_map, hreadIds, hreadSupports, require_eq_ok, Except.ok.injEq]
  constructor
  · rintro ⟨_, ⟨⟨-, hmost⟩, rfl⟩, _, ⟨⟨-, hidsMost⟩, rfl⟩, _, ⟨⟨-, hsupportsMost⟩, hquotes, rfl⟩, _,
      -, _, -, rfl⟩
    exact ⟨⟨hmost, hidsMost, hsupportsMost, hquotes⟩, rfl⟩
  · rintro ⟨⟨hmost, hidsMost, hsupportsMost, hquotes⟩, rfl⟩
    refine ⟨_, ⟨⟨htext, hmost⟩, rfl⟩, _, ⟨⟨hids, hidsMost⟩, rfl⟩, _,
      ⟨⟨hsupports, hsupportsMost⟩, hquotes, rfl⟩, ⟨⟩, hitem.ids, ⟨⟩, fun id hid ↦ ?_, rfl⟩
    rw [hviews] at hid ⊢
    rcases List.mem_append.mp hid with h | h
    · exact ⟨h, (hitem.agree id).mp h⟩
    · exact ⟨(hitem.agree id).mpr h, h⟩

/-- The bounds of the model on a section. -/
structure BoundedSection (part : GroundedSummarySection) : Prop where
  heading : (trim part.heading).length ≤ 240
  count : part.items.length ≤ 100
  items : ∀ item ∈ part.items, BoundedItem item

theorem section_modelValidate {part : GroundedSummarySection} (hpart : SoundSection anchors part)
    {n : ℕ} {v : SummarySectionModel} :
    SummarySectionModel.modelValidate (.object (part.contentWith ((part.items.zipIdx n).map fun p ↦
      .object (p.1.citedContent (cite p.2))))) = .ok v ↔
      BoundedSection part ∧
        (⟨trim part.heading, (part.items.zipIdx n).map fun p ↦ p.1.view (cite p.2)⟩ :
          SummarySectionModel) = v := by
  have hheading : 1 ≤ (trim part.heading).length :=
    List.length_pos_of_ne_nil (trim_ne_nil hpart.headed)
  have hcount : 1 ≤ part.items.length := List.length_pos_of_ne_nil hpart.nonempty
  have hread : ∀ p ∈ part.items.zipIdx n, ∀ v : SummaryItemModel,
      SummaryItemModel.modelValidate (.object (p.1.citedContent (cite p.2))) = .ok v ↔
        BoundedItem p.1 ∧ p.1.view (cite p.2) = v :=
    fun p hp _ ↦ item_modelValidate (hpart.items p.1 (List.fst_mem_of_mem_zipIdx hp))
  have hitems : (∀ p ∈ part.items.zipIdx n, BoundedItem p.1) ↔
      ∀ item ∈ part.items, BoundedItem item := by
    constructor
    · intro h item hitem
      rw [← List.zipIdx_map_fst n part.items] at hitem
      obtain ⟨p, hp, rfl⟩ := List.mem_map.mp hitem
      exact h p hp
    · exact fun h p hp ↦ h p.1 (List.fst_mem_of_mem_zipIdx hp)
  have hkeys : ∀ values, ExactKeys ["heading", "items"] (part.contentWith values) :=
    fun _ ↦ exactKeys_obj rfl
  rw [SummarySectionModel.modelValidate, readRecord_of (hkeys _), ok_bind,
    GroundedSummarySection.contentWith]
  simp only [get_obj_cons, String.reduceEq, if_false, if_true, bind_eq_ok, readText_eq_ok,
    readList_eq_ok, List.length_map, List.length_zipIdx, mapM_map_eq_ok hread, hitems,
    Except.ok.injEq]
  constructor
  · rintro ⟨_, ⟨⟨-, hmost⟩, rfl⟩, _, ⟨⟨-, hcountMost⟩, hbounded, rfl⟩, rfl⟩
    exact ⟨⟨hmost, hcountMost, hbounded⟩, rfl⟩
  · rintro ⟨⟨hmost, hcountMost, hbounded⟩, rfl⟩
    exact ⟨_, ⟨⟨hheading, hmost⟩, rfl⟩, _, ⟨⟨hcount, hcountMost⟩, hbounded, rfl⟩, rfl⟩

theorem sections_modelValidate {sections : List GroundedSummarySection}
    (hsections : ∀ part ∈ sections, SoundSection anchors part) (n : ℕ)
    {views : List SummarySectionModel} :
    (citedSections cite n sections).mapM SummarySectionModel.modelValidate = .ok views ↔
      (∀ part ∈ sections, BoundedSection part) ∧ sectionViews cite n sections = views := by
  induction sections generalizing n views with
  | nil =>
    rw [citedSections, List.mapM_nil, pure_eq_ok]
    exact (and_iff_right (List.forall_mem_nil _)).symm
  | cons part rest ih =>
    obtain ⟨hpart, hrest⟩ := List.forall_mem_cons.mp hsections
    rw [citedSections, List.mapM_cons, bind_eq_ok, List.forall_mem_cons, sectionViews]
    constructor
    · rintro ⟨v, hv, h⟩
      obtain ⟨views', hviews', heq⟩ := bind_eq_ok.mp h
      obtain ⟨hbounded, rfl⟩ := (section_modelValidate hpart).mp hv
      obtain ⟨hall, rfl⟩ := (ih hrest _).mp hviews'
      exact ⟨⟨hbounded, hall⟩, pure_eq_ok.mp heq⟩
    · rintro ⟨⟨hbounded, hall⟩, rfl⟩
      exact ⟨_, (section_modelValidate hpart).mpr ⟨hbounded, rfl⟩,
        bind_eq_ok.mpr ⟨_, (ih hrest _).mpr ⟨hall, rfl⟩, rfl⟩⟩

theorem length_citedSections (cite : ℕ → UUID → UUID) (n : ℕ)
    (sections : List GroundedSummarySection) :
    (citedSections cite n sections).length = sections.length := by
  induction sections generalizing n with
  | nil => rfl
  | cons part rest ih => rw [citedSections, List.length_cons, ih, List.length_cons]

/-- **The model reads a summary** exactly when its sections are bounded. -/
theorem result_modelValidate {summary : GroundedSummary} (hsummary : SoundSummary anchors summary)
    {snapshotId : UUID} {v : SummaryResult} :
    SummaryResult.modelValidate (.object (obj [("snapshot_id", .str (uuidText snapshotId)),
      ("sections", .array (citedSections cite 0 summary.sections))])) = .ok v ↔
      (summary.sections.length ≤ 50 ∧ ∀ part ∈ summary.sections, BoundedSection part) ∧
        (⟨snapshotId, sectionViews cite 0 summary.sections⟩ : SummaryResult) = v := by
  have hcount : 1 ≤ summary.sections.length := List.length_pos_of_ne_nil hsummary.nonempty
  have hkeys : ExactKeys ["snapshot_id", "sections"] (obj [("snapshot_id",
      .str (uuidText snapshotId)), ("sections", .array (citedSections cite 0 summary.sections))]) :=
    exactKeys_obj rfl
  rw [SummaryResult.modelValidate, readRecord_of hkeys, ok_bind]
  simp only [get_obj_cons, String.reduceEq, if_false, if_true, bind_eq_ok, readUuid_text,
    readList_eq_ok, length_citedSections, sections_modelValidate hsummary.sections, Except.ok.injEq]
  constructor
  · rintro ⟨_, rfl, _, ⟨⟨-, hmost⟩, hbounded, rfl⟩, rfl⟩
    exact ⟨⟨hmost, hbounded⟩, rfl⟩
  · rintro ⟨⟨hmost, hbounded⟩, rfl⟩
    exact ⟨_, rfl, _, ⟨⟨hcount, hmost⟩, hbounded, rfl⟩, rfl⟩

/-- A support that is read is exact when stripping leaves its quote alone. -/
theorem exact_view (hanchors : (anchors.map (·.id)).Nodup) {s : GroundedSummarySupport}
    (hs : SoundSupport anchors s) {citationId : UUID} :
    (∀ anchor ∈ anchors, anchor.id = (s.view citationId).sourceAnchorId →
      slice (s.view citationId).start (s.view citationId).stop anchor.exactQuote =
        (s.view citationId).exactQuote) ↔ trim s.exactQuote = s.exactQuote := by
  obtain ⟨anchor, hanchor, hid, hquoted⟩ := hs.quoted
  constructor
  · intro h
    exact (h anchor hanchor hid).symm.trans hquoted
  · intro htrim anchor' hanchor' hid'
    have hsame : anchor' = anchor :=
      List.inj_on_of_nodup_map hanchors hanchor' hanchor (hid'.trans hid.symm)
    rw [hsame]
    exact hquoted.trans htrim.symm

/-- The sections that are read are exact when stripping leaves their quotes alone. -/
theorem exact_sectionViews (hanchors : (anchors.map (·.id)).Nodup)
    {sections : List GroundedSummarySection}
    (hsections : ∀ part ∈ sections, SoundSection anchors part) (snapshotId : UUID) (n : ℕ) :
    SummaryResult.Exact anchors ⟨snapshotId, sectionViews cite n sections⟩ ↔
      ∀ part ∈ sections, ∀ item ∈ part.items, ∀ s ∈ item.supports,
        trim s.exactQuote = s.exactQuote := by
  rw [SummaryResult.Exact]
  induction sections generalizing n with
  | nil => exact iff_of_true (List.forall_mem_nil _) (List.forall_mem_nil _)
  | cons part rest ih =>
    obtain ⟨hpart, hrest⟩ := List.forall_mem_cons.mp hsections
    rw [sectionViews, List.forall_mem_cons, List.forall_mem_cons, ih hrest]
    refine and_congr_left fun _ ↦ ?_
    rw [List.forall_mem_map]
    constructor
    · intro h item hitem s hs
      rw [← List.zipIdx_map_fst n part.items] at hitem
      obtain ⟨p, hp, rfl⟩ := List.mem_map.mp hitem
      exact (exact_view hanchors ((hpart.items p.1 (List.fst_mem_of_mem_zipIdx hp)).supports s hs)).mp
        (h p hp _ (List.mem_map_of_mem hs))
    · intro h p hp
      have hitem := List.fst_mem_of_mem_zipIdx hp
      refine List.forall_mem_map.mpr fun s hs ↦ ?_
      exact (exact_view hanchors ((hpart.items p.1 hitem).supports s hs)).mpr (h p.1 hitem s hs)

/-- What fits the model is bounded in every section and has quotes that stripping leaves alone. -/
theorem fittingSummaries_iff {summaries : List GroundedSummary} {summary : GroundedSummary}
    (h : synthesizeDocumentSummaries summaries = .ok summary)
    (hsummary : SoundSummary anchors summary) :
    FittingSummaries summaries ↔
      (summary.sections.length ≤ 50 ∧ ∀ part ∈ summary.sections, BoundedSection part) ∧
        ∀ part ∈ summary.sections, ∀ item ∈ part.items, ∀ s ∈ item.supports,
          trim s.exactQuote = s.exactQuote := by
  have hentries : ∀ part ∈ summary.sections, ∀ item ∈ part.items,
      (part.heading, item) ∈ survivors summaries :=
    fun part hpart item hitem ↦ (mem_survivors h).mpr ⟨part, hpart, rfl, hitem⟩
  rw [length_sections h]
  constructor
  · intro hfit
    refine ⟨⟨hfit.sections, fun part hpart ↦ ⟨?_, length_items_le h part hpart, fun item hitem ↦ ?_⟩⟩,
      fun part hpart item hitem s hs ↦ ((hfit.items _ (hentries part hpart item hitem)).quotes s hs).2⟩
    · obtain ⟨item, hitem⟩ := List.exists_mem_of_ne_nil _ (hsummary.sections part hpart).nonempty
      exact hfit.heading _ (hentries part hpart item hitem)
    · have hitemFits := hfit.items _ (hentries part hpart item hitem)
      refine ⟨hitemFits.text, hitemFits.ids, hitemFits.supports, fun s hs ↦ ?_⟩
      rw [(hitemFits.quotes s hs).2]
      exact (hitemFits.quotes s hs).1
  · rintro ⟨⟨hcount, hbounded⟩, hquotes⟩
    refine ⟨hcount, fun ⟨heading, item⟩ hentry ↦ ?_, fun ⟨heading, item⟩ hentry ↦ ?_⟩
    · obtain ⟨part, hpart, rfl, -⟩ := (mem_survivors h).mp hentry
      exact (hbounded part hpart).heading
    · obtain ⟨part, hpart, -, hitem⟩ := (mem_survivors h).mp hentry
      have hitemBounded := (hbounded part hpart).items item hitem
      refine ⟨hitemBounded.text, hitemBounded.ids, hitemBounded.supports, fun s hs ↦ ?_⟩
      have htrim := hquotes part hpart item hitem s hs
      exact ⟨htrim ▸ hitemBounded.quotes s hs, htrim⟩

end Views

/-! ## Stored summaries -/

/-- The member reads the summary: the response is valid and its supports are exact. -/
def ReadsExactly (anchors : List RuntimeSourceAnchor) (db : Database) (t : ContentTables)
    (sessionId actorId : UUID) : Prop :=
  ∃ document view, getSummaryForMember db t sessionId actorId = .ok document ∧
    SummaryResult.modelValidate (.object document) = .ok view ∧ view.Exact anchors

section Stored

variable {anchors : List RuntimeSourceAnchor} {summaries : List GroundedSummary}
  {summary : GroundedSummary} {draws : SummaryDraws} {w : GenerationWrites} {t : ContentTables}
  {db : Database} {sessionId actorId : UUID} {document : MemberGenerationDocument}

theorem HeldSummary.readsExactly_iff (h : HeldSummary draws summary w t)
    (hsummary : SoundSummary anchors summary) (hanchors : (anchors.map (·.id)).Nodup)
    (hmerge : synthesizeDocumentSummaries summaries = .ok summary)
    (hdocument : memberDocument db sessionId actorId .summary = .ok document)
    (hid : document.documentId = w.documentId) :
    ReadsExactly anchors db t sessionId actorId ↔ FittingSummaries summaries := by
  have hread := h.read hsummary hdocument hid
  rw [fittingSummaries_iff hmerge hsummary]
  constructor
  · rintro ⟨content, view, hcontent, hview, hexact⟩
    cases hread.symm.trans hcontent
    obtain ⟨hbounded, rfl⟩ := (result_modelValidate hsummary).mp hview
    exact ⟨hbounded, (exact_sectionViews hanchors hsummary.sections _ _).mp hexact⟩
  · rintro ⟨hbounded, hquotes⟩
    exact ⟨_, _, hread, (result_modelValidate hsummary).mpr ⟨hbounded, rfl⟩,
      (exact_sectionViews hanchors hsummary.sections _ _).mpr hquotes⟩

end Stored

/-- **A stored summary is readable and exact** when, of the items that survive the merge of its document
summaries, all fit the model of the response. -/
theorem stored_summary_readable {word : CodePoint → Bool} {anchors : List RuntimeSourceAnchor}
    (hanchors : (anchors.map (·.id)).Nodup) {documents : List GroundedSummary}
    (hgrounded : ∀ document ∈ documents, Grounded word anchors document) {summary : GroundedSummary}
    (hmerge : synthesizeDocumentSummaries documents = .ok summary) {draws : SummaryDraws}
    {w : GenerationWrites} (hbuild : summaryCompletion draws summary = .ok w) {ctype : Ctype}
    {t t₁ t₂ : ContentTables} (hreach : ContentSteps ctype emptyContents t) {runId : UUID}
    (hcommit : w.insert ctype runId t = .ok t₁) (hlater : ContentSteps ctype t₁ t₂) {db : Database}
    {sessionId actorId : UUID} {document : MemberGenerationDocument}
    (hdocument : memberDocument db sessionId actorId .summary = .ok document)
    (hid : document.documentId = w.documentId) :
    ReadsExactly anchors db t₂ sessionId actorId ↔ FittingSummaries documents :=
  (heldSummary_of_insert hbuild hreach hcommit hlater).readsExactly_iff
    (Grounded.merged documents hgrounded hmerge).sound hanchors hmerge hdocument hid

/-! ### Two summaries of one item -/

section Delivery

/-- The summary of the delivery with another quote. -/
def quotingCandidate (quote : Str) (h : ¬Blank quote) : SummaryCandidate :=
  ⟨[⟨lit "Dates", [⟨lit "Delivery on Monday", [1], [⟨1, quote, h⟩], deliveryText_not_blank,
    firstAnchor_ne_nil, List.cons_ne_nil _ _⟩],
    dates_not_blank, List.cons_ne_nil _ _⟩], List.cons_ne_nil _ _⟩

/-- The summary that quotes the anchor of the delivery from the given place on. -/
def quotingSummary (quote : Str) (start : ℕ) : GroundedSummary :=
  ⟨[⟨lit "Dates", [⟨lit "Delivery on Monday", [1], [⟨1, quote, start, start + quote.length⟩]⟩]⟩]⟩

theorem delivery_document : ∃ document,
    memberDocument (systemMachine.exec (emptySystem 0) (researchPutBack.take 5)).db 3 1 .summary =
      .ok document ∧ document.documentId = 61 :=
  ⟨⟨3, 100, 61, .summary, "{}"⟩, by decide +kernel, rfl⟩

theorem exists_delivery (summary : GroundedSummary)
    (h : (summaryCompletion deliveryDraws summary >>= fun w ↦
      w.insert Ctype.c 5 { emptyContents with sourceAnchors := [1] }).toBool = true) :
    ∃ w t, summaryCompletion deliveryDraws summary = .ok w ∧
      w.insert Ctype.c 5 { emptyContents with sourceAnchors := [1] } = .ok t := by
  cases hrun : summaryCompletion deliveryDraws summary >>= fun w ↦
      w.insert Ctype.c 5 { emptyContents with sourceAnchors := [1] } with
  | error e =>
    rw [hrun] at h
    exact nomatch h
  | ok t =>
    obtain ⟨w, hbuild, hcommit⟩ := bind_eq_ok.mp hrun
    exact ⟨w, t, hbuild, hcommit⟩

end Delivery

/-- A quote that ends where its anchor does fits the model. -/
theorem stored_summary_readable_of_delivery :
    ∃ w t, summaryCompletion deliveryDraws (quotingSummary (lit "on Monday.") 26) = .ok w ∧
      w.insert Ctype.c 5 { emptyContents with sourceAnchors := [1] } = .ok t ∧
      ReadsExactly [deliveryAnchor]
        (systemMachine.exec (emptySystem 0) (researchPutBack.take 5)).db t 3 1 := by
  have hground : groundLiveSummary asciiWord (quotingCandidate (lit "on Monday.") (by decide))
      [deliveryAnchor] = .ok (quotingSummary (lit "on Monday.") 26) := by
    decide +kernel
  have hmerge : synthesizeDocumentSummaries [quotingSummary (lit "on Monday.") 26] =
      .ok (quotingSummary (lit "on Monday.") 26) := by
    decide +kernel
  have hsurvivors : survivors [quotingSummary (lit "on Monday.") 26] =
      [(lit "Dates", ⟨lit "Delivery on Monday", [1], [⟨1, lit "on Monday.", 26, 36⟩]⟩)] := by
    decide +kernel
  obtain ⟨w, t, hbuild, hcommit⟩ :=
    exists_delivery (quotingSummary (lit "on Monday.") 26) (by decide +kernel)
  obtain ⟨document, hdocument, hid⟩ := delivery_document
  obtain ⟨-, -, hdocumentId, -⟩ := summaryCompletion_eq_ok hbuild
  have hanchors : ([deliveryAnchor].map (·.id)).Nodup := List.nodup_singleton _
  refine ⟨w, t, hbuild, hcommit, (stored_summary_readable hanchors
    (List.forall_mem_singleton.mpr (.live [deliveryAnchor] (fun _ h ↦ h) _ hground)) hmerge hbuild
    (.single (.anchored [1])) hcommit .refl hdocument (hid.trans hdocumentId.symm)).mpr ⟨?_, ?_, ?_⟩⟩
  · rw [survivingHeadings, hsurvivors]
    decide
  · rw [hsurvivors]
    exact List.forall_mem_singleton.mpr (by decide)
  · rw [hsurvivors]
    exact List.forall_mem_singleton.mpr
      ⟨by decide, by decide, by decide, List.forall_mem_singleton.mpr (by decide)⟩

/-- A quote that begins with a space is committed, and read back without the space. -/
theorem spaced_quote_not_exact :
    ∃ w t, groundLiveSummary asciiWord (quotingCandidate (lit " on Monday") (by decide))
        [deliveryAnchor] = .ok (quotingSummary (lit " on Monday") 25) ∧
      synthesizeDocumentSummaries [quotingSummary (lit " on Monday") 25] =
        .ok (quotingSummary (lit " on Monday") 25) ∧
      summaryCompletion deliveryDraws (quotingSummary (lit " on Monday") 25) = .ok w ∧
      w.insert Ctype.c 5 { emptyContents with sourceAnchors := [1] } = .ok t ∧
      ¬ReadsExactly [deliveryAnchor]
        (systemMachine.exec (emptySystem 0) (researchPutBack.take 5)).db t 3 1 := by
  have hground : groundLiveSummary asciiWord (quotingCandidate (lit " on Monday") (by decide))
      [deliveryAnchor] = .ok (quotingSummary (lit " on Monday") 25) := by
    decide +kernel
  have hmerge : synthesizeDocumentSummaries [quotingSummary (lit " on Monday") 25] =
      .ok (quotingSummary (lit " on Monday") 25) := by
    decide +kernel
  have hsurvivors : survivors [quotingSummary (lit " on Monday") 25] =
      [(lit "Dates", ⟨lit "Delivery on Monday", [1], [⟨1, lit " on Monday", 25, 35⟩]⟩)] := by
    decide +kernel
  obtain ⟨w, t, hbuild, hcommit⟩ :=
    exists_delivery (quotingSummary (lit " on Monday") 25) (by decide +kernel)
  obtain ⟨document, hdocument, hid⟩ := delivery_document
  obtain ⟨-, -, hdocumentId, -⟩ := summaryCompletion_eq_ok hbuild
  have hsound : SoundSummary [deliveryAnchor] (quotingSummary (lit " on Monday") 25) :=
    groundLiveSummary_sound hground
  refine ⟨w, t, hground, hmerge, hbuild, hcommit, fun hreads ↦ ?_⟩
  have hfit := ((heldSummary_of_insert hbuild (.single (.anchored [1])) hcommit .refl).readsExactly_iff
    hsound (List.nodup_singleton _) hmerge hdocument (hid.trans hdocumentId.symm)).mp hreads
  have hitem := hfit.items
  rw [hsurvivors] at hitem
  have hquote := (((List.forall_mem_singleton.mp hitem).quotes) _ (List.mem_singleton_self _)).2
  exact absurd hquote (by decide)

end MeetingRag
