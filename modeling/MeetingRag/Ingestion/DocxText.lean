import MeetingRag.Ingestion.Canonical
import MeetingRag.Ingestion.Docx

/-!
# The text of a DOCX document

Which text elements of the body go into a block, and into which. The text of a block is that of its
*sources*, the text elements of the paragraph in their order. The walk goes down to fixed levels, so what
is in a content control, in a table within a cell or in any other wrapper around paragraphs is in no
paragraph that is walked over; and `extract` gives no warnings at all.

The text of the body is complete exactly when every text element is below a paragraph of the body or of a
cell (`OnWalk`).
-/

open Outcome Py Py.Json Py.XmlElement

namespace MeetingRag

namespace Docx

variable {U : Nfc} {k : Url.Casing} {source : Source}

/-! ## Paragraphs by position -/

/-- The paragraphs of the table that is child `i` of the body, by position. -/
def cellPlaces (i : ℕ) (tbl : XmlElement) : List (List ℕ × XmlElement) :=
  (tbl.numbered (wordTag "tr")).flatMap fun row ↦
    (row.1.numbered (wordTag "tc")).flatMap fun cell ↦
      (cell.1.numbered (wordTag "p")).map fun p ↦ ([i, row.2, cell.2, p.2], p.1)

/-- The paragraphs that a child of the body gives. -/
def childPlaces (child : XmlElement × ℕ) : List (List ℕ × XmlElement) :=
  if child.1.tag = wordTag "p" then [([child.2], child.1)]
  else if child.1.tag = wordTag "tbl" then cellPlaces child.2 child.1
  else []

theorem map_cellParagraphs (table i : ℕ) (tbl : XmlElement) :
    (cellParagraphs table i tbl).map (fun p ↦ (p.1, p.2.2)) = cellPlaces i tbl := by
  have hmap {α β : Type} (l : List α) (f : α → β) : l.zipIdx.map (fun a ↦ f a.1) = l.map f := by
    conv_rhs => rw [← List.zipIdx_map_fst 0 l, List.map_map]
    rfl
  simp only [cellParagraphs, cellPlaces, List.map_flatMap, List.map_map]
  refine Eq.trans ?_ (Lists.flatMap_zipIdx_fst (tbl.numbered (wordTag "tr")) 0 _)
  refine List.flatMap_congr fun row _ ↦ ?_
  refine Eq.trans ?_ (Lists.flatMap_zipIdx_fst (row.1.1.numbered (wordTag "tc")) 0 _)
  refine List.flatMap_congr fun cell _ ↦ ?_
  exact hmap _ fun p : XmlElement × ℕ ↦ ([i, row.1.2, cell.1.2, p.2], p.1)

theorem map_place_visitsFrom (n t : ℕ) (children : List (XmlElement × ℕ)) :
    (visitsFrom n t children).map (fun v ↦ (v.position, v.element)) = children.flatMap childPlaces := by
  induction children generalizing n t with
  | nil => rfl
  | cons child rest ih =>
    rw [visitsFrom, List.flatMap_cons, childPlaces]
    split
    · rw [List.map_cons, ih]
      rfl
    split
    · have hcells := map_cellParagraphs t child.2 child.1
      rw [← List.zipIdx_map_fst n (cellParagraphs t child.2 child.1), List.map_map] at hcells
      rw [List.map_append, ih, List.map_map, ← hcells]
      rfl
    · exact ih n t

theorem map_place_visits (body : XmlElement) :
    (visits body).map (fun v ↦ (v.position, v.element)) = body.children.zipIdx.flatMap childPlaces :=
  map_place_visitsFrom 0 0 _

/-! ## Sources -/

/-- The text elements of a paragraph, with their positions below the body. -/
def sources (visit : Visit) : List (List ℕ × XmlElement) :=
  located (wordTag "t") visit.position visit.element

/-- The sources of the blocks that are not properties. -/
def blockSources (U : Nfc) (body : XmlElement) : List (List (List ℕ × XmlElement)) :=
  (emitted U body).map sources

/-- The text elements below the body. -/
def bodyTexts (body : XmlElement) : List (List ℕ × XmlElement) := located (wordTag "t") [] body

theorem paragraphText_eq (visit : Visit) :
    paragraphText U visit.element = U.normalizeText ((sources visit).flatMap fun t ↦ t.2.ownText) := by
  rw [paragraphText, ← map_snd_located visit.element visit.position, List.flatMap_map]
  rfl

/-- **The walk goes in document order.** -/
theorem sources_visits_sublist (body : XmlElement) :
    ((visits body).flatMap sources).Sublist (bodyTexts body) := by
  have hplaces : (visits body).flatMap sources = (body.children.zipIdx.flatMap childPlaces).flatMap
      fun p ↦ located (wordTag "t") p.1 p.2 := by
    rw [← map_place_visits, List.flatMap_map]
    rfl
  have hchild : ∀ child : XmlElement × ℕ, ((childPlaces child).flatMap fun p ↦
      located (wordTag "t") p.1 p.2).Sublist (located (wordTag "t") ([] ++ [child.2]) child.1) := by
    intro child
    rw [childPlaces]
    split
    · rw [List.flatMap_singleton]
      exact List.Sublist.refl _
    split
    · rw [cellPlaces, List.flatMap_assoc]
      refine flatMap_numbered_sublist child.1 fun row _ ↦ ?_
      rw [List.flatMap_assoc]
      refine flatMap_numbered_sublist row.1 fun cell _ ↦ ?_
      rw [List.flatMap_map]
      exact flatMap_numbered_sublist cell.1 fun p _ ↦ List.Sublist.refl _
    · exact List.nil_sublist _
  rw [hplaces, List.flatMap_assoc]
  have hbody : (locatedIn (wordTag "t") [] 0 body.children).Sublist (bodyTexts body) := by
    obtain ⟨tag, attributes, text, children⟩ := body
    exact List.sublist_append_right _ _
  rw [locatedIn_eq] at hbody
  exact (List.Sublist.flatMap_right _ fun child _ ↦ hchild child).trans hbody

/-- The blocks follow the order of the document. -/
theorem flatten_blockSources_sublist (body : XmlElement) :
    (blockSources U body).flatten.Sublist (bodyTexts body) := by
  rw [blockSources, ← List.flatMap_def]
  exact (List.Sublist.flatMap List.filter_sublist _).trans (sources_visits_sublist body)

/-! ## What is walked over -/

/-- The tags on the way to a text element go through a paragraph of the body or of a cell. -/
def OnWalk (tags : List String) : Prop :=
  [wordTag "p"] <+: tags ∨ [wordTag "tbl", wordTag "tr", wordTag "tc", wordTag "p"] <+: tags

instance : DecidablePred OnWalk := fun tags ↦ inferInstanceAs (Decidable
  ([wordTag "p"] <+: tags ∨ [wordTag "tbl", wordTag "tr", wordTag "tc", wordTag "p"] <+: tags))

/-- The paragraphs of the walk, by position. -/
theorem mem_places_iff {body : XmlElement} {place : List ℕ × XmlElement} :
    place ∈ body.children.zipIdx.flatMap childPlaces ↔
      (∃ i, (place.2, i) ∈ body.numbered (wordTag "p") ∧ place.1 = [i]) ∨
      ∃ tbl i row j cell l n, (tbl, i) ∈ body.numbered (wordTag "tbl") ∧
        (row, j) ∈ tbl.numbered (wordTag "tr") ∧ (cell, l) ∈ row.numbered (wordTag "tc") ∧
          (place.2, n) ∈ cell.numbered (wordTag "p") ∧ place.1 = [i, j, l, n] := by
  have htags : wordTag "tbl" ≠ wordTag "p" := by decide
  constructor
  · intro h
    obtain ⟨⟨child, i⟩, hchild, hplace⟩ := List.mem_flatMap.mp h
    have hget := List.mem_zipIdx_iff_getElem?.mp hchild
    rw [childPlaces] at hplace
    split at hplace
    · rename_i htag
      rw [List.mem_singleton.mp hplace]
      exact .inl ⟨i, mem_numbered.mpr ⟨hget, htag⟩, rfl⟩
    split at hplace
    · rename_i htag
      obtain ⟨⟨row, j⟩, hrow, hplace⟩ := List.mem_flatMap.mp hplace
      obtain ⟨⟨cell, l⟩, hcell, hplace⟩ := List.mem_flatMap.mp hplace
      obtain ⟨⟨p, n⟩, hp, rfl⟩ := List.mem_map.mp hplace
      exact .inr ⟨child, i, row, j, cell, l, n, mem_numbered.mpr ⟨hget, htag⟩, hrow, hcell, hp, rfl⟩
    · exact absurd hplace List.not_mem_nil
  · obtain ⟨position, element⟩ := place
    rintro (⟨i, hp, rfl⟩ | ⟨tbl, i, row, j, cell, l, n, htbl, hrow, hcell, hp, rfl⟩)
    · obtain ⟨hget, htag⟩ := mem_numbered.mp hp
      refine List.mem_flatMap.mpr ⟨(element, i), List.mem_zipIdx_iff_getElem?.mpr hget, ?_⟩
      rw [childPlaces, if_pos htag]
      exact List.mem_singleton_self _
    · obtain ⟨hget, htag⟩ := mem_numbered.mp htbl
      refine List.mem_flatMap.mpr ⟨(tbl, i), List.mem_zipIdx_iff_getElem?.mpr hget, ?_⟩
      rw [childPlaces, if_neg (htag ▸ htags), if_pos htag]
      exact List.mem_flatMap.mpr ⟨_, hrow, List.mem_flatMap.mpr ⟨_, hcell,
        List.mem_map.mpr ⟨_, hp, rfl⟩⟩⟩

/-- A text element is a source of a paragraph of the walk exactly when the walk goes through its tags. -/
theorem exists_visit_iff {body : XmlElement} {t : List ℕ × XmlElement} (ht : t ∈ bodyTexts body) :
    (∃ visit ∈ visits body, t ∈ sources visit) ↔ OnWalk (body.tagPath t.1) := by
  have hplaces : (∃ visit ∈ visits body, t ∈ sources visit) ↔
      ∃ place ∈ body.children.zipIdx.flatMap childPlaces, t ∈ located (wordTag "t") place.1 place.2 := by
    rw [← map_place_visits]
    simp only [List.mem_map, exists_exists_and_eq_and, sources]
  rw [hplaces]
  constructor
  · rintro ⟨place, hplace, hmem⟩
    obtain ⟨rest, hrest⟩ := prefix_of_mem_located place.2 t hmem
    rw [← hrest]
    rcases mem_places_iff.mp hplace with ⟨i, hp, hposition⟩ |
      ⟨tbl, i, row, j, cell, l, n, htbl, hrow, hcell, hp, hposition⟩
    · rw [hposition]
      exact .inl (cons_prefix_tagPath.mpr ⟨_, _, _, hp, rfl, List.nil_prefix⟩)
    · rw [hposition]
      exact .inr (cons_prefix_tagPath.mpr ⟨_, _, _, htbl, rfl, cons_prefix_tagPath.mpr
        ⟨_, _, _, hrow, rfl, cons_prefix_tagPath.mpr ⟨_, _, _, hcell, rfl, cons_prefix_tagPath.mpr
          ⟨_, _, _, hp, rfl, List.nil_prefix⟩⟩⟩⟩)
  · -- The element is followed down the tags, one child at a time.
    have hdown {e child : XmlElement} {tag : String} {i : ℕ} {position : List ℕ}
        (hchild : (child, i) ∈ e.numbered tag) (hmem : t ∈ located (wordTag "t") position e)
        (hbelow : position ++ [i] <+: t.1) : t ∈ located (wordTag "t") (position ++ [i]) child :=
      mem_located_child (mem_numbered.mp hchild).1 hmem hbelow
    rintro (h | h)
    · obtain ⟨p, i, rest, hp, hposition, -⟩ := cons_prefix_tagPath.mp h
      refine ⟨([i], p), mem_places_iff.mpr (.inl ⟨i, hp, rfl⟩), hdown hp ht ?_⟩
      exact ⟨rest, hposition.symm⟩
    · obtain ⟨tbl, i, rest, htbl, hposition, h⟩ := cons_prefix_tagPath.mp h
      obtain ⟨row, j, rest₁, hrow, rfl, h₁⟩ := cons_prefix_tagPath.mp h
      obtain ⟨cell, l, rest₂, hcell, rfl, h₂⟩ := cons_prefix_tagPath.mp h₁
      obtain ⟨p, n, rest₃, hp, rfl, -⟩ := cons_prefix_tagPath.mp h₂
      have hi := hdown htbl ht ⟨_, hposition.symm⟩
      have hj := hdown hrow hi ⟨_, hposition.symm⟩
      have hl := hdown hcell hj ⟨_, hposition.symm⟩
      have hn := hdown hp hl ⟨_, hposition.symm⟩
      exact ⟨([i, j, l, n], p), mem_places_iff.mpr
        (.inr ⟨tbl, i, row, j, cell, l, n, htbl, hrow, hcell, hp, rfl⟩), hn⟩

/-! ## What is in a block -/

theorem normalizeText_eq_nil {s : Str} : U.normalizeText s = [] ↔ s = [] := by
  rw [Nfc.normalizeText, U.nfc_eq_nil, toLf, List.map_eq_nil_iff]
  constructor
  · intro h
    induction s using joinCrLf.induct with
    | case1 => rfl
    | case2 c => exact absurd h (List.cons_ne_nil _ _)
    | case3 c d rest hpair ih =>
      rw [joinCrLf, if_pos hpair] at h
      exact absurd h (List.cons_ne_nil _ _)
    | case4 c d rest hpair ih =>
      rw [joinCrLf, if_neg hpair] at h
      exact absurd h (List.cons_ne_nil _ _)
  · rintro rfl
    rfl

/-- A paragraph of the walk that holds text gives a block. -/
theorem mem_emitted {body : XmlElement} {visit : Visit} {t : List ℕ × XmlElement}
    (hvisit : visit ∈ visits body) (ht : t ∈ sources visit) (hne : t.2.ownText ≠ []) :
    visit ∈ emitted U body := by
  refine List.mem_filter.mpr ⟨hvisit, decide_eq_true fun hempty ↦ hne ?_⟩
  rw [paragraphText_eq, normalizeText_eq_nil, List.flatMap_eq_nil_iff] at hempty
  exact hempty t ht

/-- The number of blocks that a text element is in. -/
def blocksOf (U : Nfc) (body : XmlElement) (t : List ℕ × XmlElement) : ℕ :=
  (blockSources U body).countP fun s ↦ decide (t.1 ∈ s.map Prod.fst)

theorem countP_of_nodup_flatten {α : Type*} [BEq α] [LawfulBEq α] {a : α} {ls : List (List α)}
    (h : ls.flatten.Nodup) (ha : a ∈ ls.flatten) : ls.countP (fun l ↦ decide (a ∈ l)) = 1 := by
  induction ls with
  | nil => exact absurd ha List.not_mem_nil
  | cons l ls ih =>
    rw [List.flatten_cons] at h ha
    obtain ⟨-, hrest, hdisjoint⟩ := List.nodup_append.mp h
    by_cases hl : a ∈ l
    · have hnone : ls.countP (fun l ↦ decide (a ∈ l)) = 0 := by
        refine List.countP_eq_zero.mpr fun l' hl' hmem ↦ ?_
        exact hdisjoint a hl a (List.mem_flatten.mpr ⟨l', hl', of_decide_eq_true hmem⟩) rfl
      rw [List.countP_cons, if_pos (decide_eq_true hl), hnone]
    · rw [List.countP_cons, if_neg (by simpa using hl)]
      exact ih hrest ((List.mem_append.mp ha).resolve_left hl)

/-- **A text element of the walk is in one block, and any other is in none.** -/
theorem blocksOf_eq {body : XmlElement} {t : List ℕ × XmlElement} (ht : t ∈ bodyTexts body)
    (hne : t.2.ownText ≠ []) :
    blocksOf U body t = if OnWalk (body.tagPath t.1) then 1 else 0 := by
  have hsublist := (flatten_blockSources_sublist (U := U) body).map Prod.fst
  have hnodup : ((blockSources U body).map (List.map Prod.fst)).flatten.Nodup := by
    rw [← List.map_flatten]
    exact (nodup_located body []).sublist hsublist
  have hcount : blocksOf U body t =
      ((blockSources U body).map (List.map Prod.fst)).countP fun l ↦ decide (t.1 ∈ l) := by
    rw [blocksOf, List.countP_map]
    rfl
  rw [hcount]
  split
  · rename_i hwalk
    obtain ⟨visit, hvisit, hmem⟩ := (exists_visit_iff ht).mpr hwalk
    refine countP_of_nodup_flatten hnodup (List.mem_flatten.mpr ⟨(sources visit).map Prod.fst, ?_,
      List.mem_map_of_mem hmem⟩)
    exact List.mem_map_of_mem (List.mem_map_of_mem (mem_emitted hvisit hmem hne))
  · rename_i hwalk
    refine List.countP_eq_zero.mpr fun l hl hmem ↦ hwalk ?_
    obtain ⟨_, hs, rfl⟩ := List.mem_map.mp hl
    obtain ⟨visit, hvisit, rfl⟩ := List.mem_map.mp hs
    obtain ⟨t', ht', hsame⟩ := List.mem_map.mp (of_decide_eq_true hmem)
    have hvisits := (List.mem_filter.mp hvisit).1
    -- A position stands for one element of the body.
    have hbody : t' ∈ bodyTexts body :=
      (sources_visits_sublist body).subset (List.mem_flatMap.mpr ⟨visit, hvisits, ht'⟩)
    have heq : t' = t := List.inj_on_of_nodup_map (nodup_located body []) hbody ht hsame
    exact (exists_visit_iff ht).mp ⟨visit, hvisits, heq ▸ ht'⟩

/-! ## The result -/

theorem blockType_ne (visit : Visit) : blockType k visit ≠ "docx_metadata" := by
  rw [blockType]
  split
  · decide
  split
  · decide
  split <;> decide

/-- The blocks that are not properties are the paragraphs with text. -/
theorem filter_blocks (core : Option XmlElement) (body : XmlElement) :
    ((blocks U k source core body).filter (·.blockType ≠ "docx_metadata")).map (·.text) =
      (blockSources U body).map fun s ↦ U.normalizeText (s.flatMap fun t ↦ t.2.ownText) := by
  have hdrafts : ((blocks U k source core body).filter (·.blockType ≠ "docx_metadata")).map (·.text) =
      ((drafts U k source core body).filter (·.blockType ≠ "docx_metadata")).map (·.text) := by
    conv_rhs => rw [← List.zipIdx_map_fst 0 (drafts U k source core body)]
    rw [blocks, List.filter_map, List.filter_map, List.map_map, List.map_map]
    rfl
  have hproperties : ((coreProperties U core).zipIdx.map (metadataDraft U source)).filter
      (·.blockType ≠ "docx_metadata") = [] := by
    refine List.filter_eq_nil_iff.mpr fun draft hdraft ↦ ?_
    obtain ⟨property, -, rfl⟩ := List.mem_map.mp hdraft
    simp [metadataDraft]
  have hparagraphs : ((emitted U body).map (paragraphDraft U k source)).filter
      (·.blockType ≠ "docx_metadata") = (emitted U body).map (paragraphDraft U k source) := by
    refine List.filter_eq_self.mpr fun draft hdraft ↦ ?_
    obtain ⟨visit, -, rfl⟩ := List.mem_map.mp hdraft
    exact decide_eq_true (blockType_ne visit)
  rw [hdrafts, drafts, List.filter_append, hproperties, hparagraphs, List.nil_append, List.map_map,
    blockSources, List.map_map]
  exact List.map_congr_left fun visit _ ↦ paragraphText_eq visit

theorem eq_resultOf {core : Option XmlElement} {root body : XmlElement} {result : ExtractionResult}
    (hroot : root.find (wordTag "body") = some body) (h : extract U k source core root = .ok result) :
    result = resultOf U k source core body := by
  rw [extract, hroot] at h
  dsimp only at h
  split at h
  · cases h
  split at h
  · cases h
  · rename_i validated hvalidate
    simp only [ExtractionResult.validate, bind_eq_ok, Except.ok.injEq] at hvalidate
    obtain ⟨-, -, -, -, -, -, -, -, -, -, -, -, hvalidate⟩ := hvalidate
    exact (Except.ok.inj h).symm.trans hvalidate.symm

/-- A text element is in exactly one block, or in none and announced. -/
def Kept (U : Nfc) (body : XmlElement) (result : ExtractionResult) (t : List ℕ × XmlElement) : Prop :=
  blocksOf U body t = 1 ∨ blocksOf U body t = 0 ∧ "PARTIAL_EXTRACTION" ∈ result.warnings

/-! ## Documents with a result -/

/-- The numbers of an anchor. -/
def DocxParagraphAnchor.numbers (a : DocxParagraphAnchor) : List ℕ :=
  a.paragraph :: a.path.elim [] fun p ↦ [p.table, p.row, p.cell, p.cellParagraph]

/-- An object under plain names. -/
theorem ready_obj {fields : List (String × Json)} (names : List String)
    (hnames : fields.map Prod.fst = names) (hkeys : names.Nodup ∧ ∀ name ∈ names, Printable (lit name))
    (h : ∀ f ∈ fields, Ready U f.2) : Ready U (.object (obj fields)) := by
  subst hnames
  exact .obj hkeys.1 (fun f hf ↦ hkeys.2 f.1 (List.mem_map_of_mem hf)) (fun _ hnodup hplain ↦ ⟨hnodup, hplain⟩) h

/-- The dict of an anchor can be written, when its numbers can. -/
theorem ready_toDict {a : DocxParagraphAnchor} (hsource : IsSha256 a.sourceSha256)
    (hprofile : IsSha256 a.extractionProfileHash) (hfingerprint : IsSha256 a.textFingerprint)
    (hnumbers : ∀ n ∈ a.numbers, (decimalDigits n).length ≤ 4300) : Ready U a.toDict := by
  have hstr {s : Str} (h : IsSha256 s) : Ready U (.str s) :=
    .leaf trivial (readyLeaf_of_printable (printable_of_isSha256 h))
  have hint {n : ℕ} (h : (decimalDigits n).length ≤ 4300) : Ready U (.int n) := .leaf trivial h
  have hlocator : Ready U (.object a.locator) := by
    obtain ⟨sha, profile, paragraph, path, fingerprint⟩ := a
    cases path with
    | none =>
      refine ready_obj ["paragraph"] rfl (by decide) ?_
      simp only [List.forall_mem_cons]
      exact ⟨hint (hnumbers _ List.mem_cons_self), nofun⟩
    | some p =>
      obtain ⟨hparagraph, htable, hrow, hcell, hlast, -⟩ : _ ∧ _ ∧ _ ∧ _ ∧ _ ∧ _ := by
        simpa only [DocxParagraphAnchor.numbers, Option.elim_some, List.forall_mem_cons] using hnumbers
      refine ready_obj ["paragraph", "table"] rfl (by decide) ?_
      simp only [List.forall_mem_cons]
      refine ⟨hint hparagraph, ready_obj ["index", "row", "cell", "paragraph"] rfl (by decide) ?_, nofun⟩
      simp only [List.forall_mem_cons]
      exact ⟨hint htable, hint hrow, hint hcell, hint hlast, nofun⟩
  refine ready_obj ["schema_version", "kind", "source_sha256", "extraction_profile_hash", "locator",
    "text_fingerprint"] rfl (by decide) ?_
  simp only [List.forall_mem_cons]
  exact ⟨hint (n := 1) (by decide), .leaf trivial (readyLeaf_of_printable (by decide)),
    hstr hsource, hstr hprofile, hlocator, hstr hfingerprint, nofun⟩

theorem ordinals_blocks (core : Option XmlElement) (body : XmlElement) :
    (blocks U k source core body).map (·.ordinal) =
      List.range (blocks U k source core body).length := by
  rw [blocks, List.map_map, List.length_map, List.length_zipIdx, List.range_eq_range']
  exact List.zipIdx_map_snd 0 _

/-- The anchor of a block is that of its text in the source. -/
theorem anchor_of_mem_blocks {core : Option XmlElement} {body : XmlElement} {block : ExtractedBlock}
    (h : block ∈ blocks U k source core body) : block.anchor.sourceSha256 = source.sha256 ∧
      block.anchor.extractionProfileHash = source.profileHash ∧
        block.anchor.textFingerprint = fingerprint U block.text := by
  obtain ⟨⟨draft, n⟩, hdraft, rfl⟩ := List.mem_map.mp h
  rcases List.mem_append.mp (List.fst_mem_of_mem_zipIdx hdraft) with hdraft | hdraft
  · obtain ⟨property, -, rfl⟩ := List.mem_map.mp hdraft
    exact ⟨rfl, rfl, fingerprint_normalizeText _⟩
  · obtain ⟨visit, -, rfl⟩ := List.mem_map.mp hdraft
    exact ⟨rfl, rfl, fingerprint_normalizeText _⟩

theorem exists_blockHash {core : Option XmlElement} {body : XmlElement} {block : ExtractedBlock}
    (h : block ∈ blocks U k source core body)
    (hnumbers : ∀ n ∈ block.anchor.numbers, (decimalDigits n).length ≤ 4300) :
    ∃ hash, blockHash U (resultOf U k source core body) block = .ok hash := by
  obtain ⟨hsource, hprofile, hfingerprint⟩ := anchor_of_mem_blocks h
  have hready : Ready U block.anchor.toDict := ready_toDict (hsource ▸ source.isSha256)
    (hprofile ▸ source.isProfile) (hfingerprint ▸ isSha256_sha256Hex _) hnumbers
  obtain ⟨hash, hhash⟩ := exists_canonicalSha256 Protocol.collision hready
  refine ⟨hash, ?_⟩
  rw [blockHash, check_bind_eq_ok, check_bind_eq_ok, check_bind_eq_ok]
  exact ⟨hsource, hprofile, hfingerprint, hhash⟩

/-- A document with one block has a result. -/
theorem extract_of_single {core : Option XmlElement} {root body : XmlElement} {block : ExtractedBlock}
    (hroot : root.find (wordTag "body") = some body) (hblocks : blocks U k source core body = [block])
    (hnumbers : ∀ n ∈ block.anchor.numbers, (decimalDigits n).length ≤ 4300) :
    extract U k source core root = .ok (resultOf U k source core body) := by
  obtain ⟨hash, hhash⟩ := exists_blockHash (hblocks ▸ List.mem_singleton_self block) hnumbers
  have hhashes : (resultOf U k source core body).blocks.mapM
      (blockHash U (resultOf U k source core body)) = .ok [hash] := by
    refine mapM_eq_ok.mpr ?_
    rw [resultOf, hblocks]
    exact .cons (hblocks ▸ hhash) .nil
  have hvalidate : ExtractionResult.validate U (resultOf U k source core body) =
      .ok (resultOf U k source core body) := by
    have hne : (resultOf U k source core body).blocks ≠ [] := by
      rw [resultOf, hblocks]
      exact List.cons_ne_nil _ _
    rw [ExtractionResult.validate, check_bind_eq_ok, check_bind_eq_ok, check_bind_eq_ok,
      check_bind_eq_ok, hhashes, ok_bind, check_bind_eq_ok]
    exact ⟨source.isSha256, source.isProfile, hne, ordinals_blocks core body,
      List.nodup_singleton hash, rfl⟩
  rw [resultOf] at hvalidate
  rw [extract, hroot]
  simp only [hvalidate]
  rw [if_neg (hblocks ▸ List.cons_ne_nil _ _)]
  rfl

/-- A document with the paragraph `x` and, in a content control, the paragraph `y`. -/
def controlledBody : XmlElement :=
  .mk (wordTag "body") [] none
    [.mk (wordTag "p") [] none [.mk (wordTag "t") [] (some (lit "x")) []],
      .mk (wordTag "sdt") [] none [.mk (wordTag "sdtContent") [] none
        [.mk (wordTag "p") [] none [.mk (wordTag "t") [] (some (lit "y")) []]]]]

/-- A source with the digest `aa…`. -/
def sampleSource : Source := ⟨List.replicate 64 97, List.replicate 64 97, by decide, by decide⟩

theorem extract_controlledBody : extract Nfc.ascii Url.Casing.onlyAscii sampleSource none
    (.mk (wordTag "document") [] none [controlledBody]) =
      .ok (resultOf Nfc.ascii Url.Casing.onlyAscii sampleSource none controlledBody) :=
  extract_of_single rfl rfl (by decide)

end Docx

open Docx in
/-- **The text of the body is kept exactly when all of it is on the walk.** The blocks that are not
properties hold the text of their sources, and the sources follow the order of the document. -/
theorem docx_text_kept_iff (U : Nfc) (k : Url.Casing) (source : Source) (core : Option XmlElement)
    {root body : XmlElement} {result : ExtractionResult} (hroot : root.find (wordTag "body") = some body)
    (h : extract U k source core root = .ok result) :
    ((result.blocks.filter (·.blockType ≠ "docx_metadata")).map (·.text) =
        (blockSources U body).map fun s ↦ U.normalizeText (s.flatMap fun t ↦ t.2.ownText)) ∧
      (blockSources U body).flatten.Sublist (bodyTexts body) ∧
      ((∀ t ∈ bodyTexts body, t.2.ownText ≠ [] → Kept U body result t) ↔
        ∀ t ∈ bodyTexts body, t.2.ownText ≠ [] → OnWalk (body.tagPath t.1)) := by
  obtain rfl := eq_resultOf hroot h
  refine ⟨filter_blocks core body, flatten_blockSources_sublist body, ?_⟩
  refine forall₂_congr fun t ht ↦ forall_congr' fun hne ↦ ?_
  have hwarnings : "PARTIAL_EXTRACTION" ∉ (resultOf U k source core body).warnings := List.not_mem_nil
  rw [Kept, blocksOf_eq ht hne]
  split
  · rename_i hwalk
    exact iff_of_true (.inl rfl) hwalk
  · rename_i hwalk
    exact iff_of_false (fun h ↦ h.elim (by decide) fun h ↦ hwarnings h.2) hwalk

open Docx in
theorem docx_text_kept_control :
    (∀ t ∈ bodyTexts controlledBody, t.2.ownText ≠ [] → Kept Nfc.ascii controlledBody
        (resultOf Nfc.ascii Url.Casing.onlyAscii sampleSource none controlledBody) t) ↔
      ∀ t ∈ bodyTexts controlledBody, t.2.ownText ≠ [] → OnWalk (controlledBody.tagPath t.1) :=
  (docx_text_kept_iff Nfc.ascii Url.Casing.onlyAscii sampleSource none rfl extract_controlledBody).2.2

open Docx in
/-- The text of the content control is in no block, and nothing says so. -/
theorem docx_control_lost :
    ¬∀ (root body : XmlElement) (result : ExtractionResult), root.find (wordTag "body") = some body →
      extract Nfc.ascii Url.Casing.onlyAscii sampleSource none root = .ok result →
        ∀ t ∈ bodyTexts body, t.2.ownText ≠ [] → Kept Nfc.ascii body result t := by
  intro h
  have hkept := h _ controlledBody _ rfl extract_controlledBody
    ([1, 0, 0, 0], .mk (wordTag "t") [] (some (lit "y")) []) (List.mem_of_getElem? (i := 1) rfl) (by decide)
  rcases hkept with hone | ⟨-, hwarning⟩
  · have hzero : blocksOf Nfc.ascii controlledBody
        ([1, 0, 0, 0], .mk (wordTag "t") [] (some (lit "y")) []) = 0 := by decide
    exact absurd (hzero.symm.trans hone) (by decide)
  · exact List.not_mem_nil hwarning

end MeetingRag
