import MeetingRag.Ingestion.Protocol
import MeetingRag.Ingestion.XmlParts
import MeetingRag.Library.Lists
import MeetingRag.Library.Url
import MeetingRag.Library.Xml

/-!
# The extractor of DOCX documents

`DocxExtractor` reads two parts of a package, which are parsed here. The properties of the core part
come first, a block for each that has a value. Then it walks over the body at fixed levels: the
paragraphs of the body, and the paragraphs of the cells of the rows of its tables. Every paragraph takes
a number, whether it has text or not, and the text of a paragraph is that of all text elements in it.

A parsed document holds no surrogates, so its texts can be encoded.
-/

open Outcome Py Py.Json

namespace MeetingRag

namespace Docx

/-! ## Names -/

/-- A tag of WordprocessingML. -/
def wordTag (name : String) : String :=
  "\x7bhttp://schemas.openxmlformats.org/wordprocessingml/2006/main\x7d" ++ name

def coreTag (name : String) : String :=
  "\x7bhttp://schemas.openxmlformats.org/package/2006/metadata/core-properties\x7d" ++ name

def dcTag (name : String) : String := "\x7bhttp://purl.org/dc/elements/1.1/\x7d" ++ name

def dctermsTag (name : String) : String := "\x7bhttp://purl.org/dc/terms/\x7d" ++ name

/-- The `fields` of `_core_properties`. -/
def coreFields : List (String × String) :=
  [("title", dcTag "title"), ("subject", dcTag "subject"), ("creator", dcTag "creator"),
    ("description", dcTag "description"), ("keywords", coreTag "keywords"),
    ("last_modified_by", coreTag "lastModifiedBy"), ("created", dctermsTag "created"),
    ("modified", dctermsTag "modified")]

/-! ## Blocks -/

/-- The path of a paragraph in a table: the table, the row, the cell and the paragraph of the cell. -/
structure TablePath where
  table : ℕ
  row : ℕ
  cell : ℕ
  cellParagraph : ℕ
deriving DecidableEq, Repr

/-- `DocxParagraphAnchor`. -/
structure DocxParagraphAnchor where
  sourceSha256 : Str
  extractionProfileHash : Str
  paragraph : ℕ
  path : Option TablePath
  textFingerprint : Str
deriving DecidableEq

/-- The locator of an anchor. -/
def DocxParagraphAnchor.locator (a : DocxParagraphAnchor) : Fields :=
  obj (("paragraph", .int a.paragraph) :: match a.path with
    | none => []
    | some p => [("table", .object (obj [("index", .int p.table), ("row", .int p.row),
        ("cell", .int p.cell), ("paragraph", .int p.cellParagraph)]))])

/-- `to_dict`. -/
def DocxParagraphAnchor.toDict (a : DocxParagraphAnchor) : Json :=
  .object (obj [("schema_version", .int 1), ("kind", .str (lit "docx_paragraph")),
    ("source_sha256", .str a.sourceSha256),
    ("extraction_profile_hash", .str a.extractionProfileHash), ("locator", .object a.locator),
    ("text_fingerprint", .str a.textFingerprint)])

/-- `ExtractedBlock`, whose confidence is 1. -/
structure ExtractedBlock where
  ordinal : ℕ
  text : Str
  blockType : String
  anchor : DocxParagraphAnchor
deriving DecidableEq

/-- `ExtractionResult`, with the codes of its warnings. -/
structure ExtractionResult where
  sourceSha256 : Str
  configProfileHash : Str
  blocks : List ExtractedBlock
  warnings : List String
deriving DecidableEq

/-- What the extractor raises: its own failures, and what the checks of a result raise. -/
inductive ExtractionError
  | failure (f : ExtractionFailure)
  | exc (e : Exc)
deriving DecidableEq

/-- The arguments of an extraction, which are SHA-256 digests. -/
structure Source where
  sha256 : Str
  profileHash : Str
  isSha256 : IsSha256 sha256
  isProfile : IsSha256 profileHash

section Extractor

variable (U : Nfc) (k : Url.Casing) (source : Source)

/-- `text_fingerprint`, of text that can be encoded. -/
def fingerprint (text : Str) : Str := sha256Hex (encodeUtf8 (U.normalizeText text))

/-- `DocxParagraphAnchor.from_text`. -/
def anchorOf (paragraph : ℕ) (path : Option TablePath) (text : Str) : DocxParagraphAnchor :=
  ⟨source.sha256, source.profileHash, paragraph, path, fingerprint U (U.normalizeText text)⟩

/-! ### Properties -/

/-- A property of the core part, cut to 512 characters. -/
def coreProperty (core : XmlElement) (field : String × String) : Option (String × Str) :=
  let value := (core.find field.2).elim [] fun node ↦ U.normalizeText node.ownText
  if value = [] then none else some (field.1, value.take 512)

/-- `_core_properties`, for a part that is missing or has been parsed. -/
def coreProperties (core : Option XmlElement) : List (String × Str) :=
  core.elim [] fun core ↦ coreFields.filterMap (coreProperty U core)

/-- The text of the block of a property. -/
def metadataText (property : String × Str) : Str :=
  U.normalizeText (lit property.1 ++ lit ": " ++ property.2)

/-- A block before its ordinal is known. -/
structure Draft where
  text : Str
  blockType : String
  anchor : DocxParagraphAnchor

/-- `_append_metadata`. -/
def metadataDraft (property : (String × Str) × ℕ) : Draft :=
  ⟨metadataText U property.1, "docx_metadata",
    anchorOf U source property.2 none (metadataText U property.1)⟩

/-! ### Paragraphs -/

/-- A paragraph of the walk: its position below the body, its number, its path and the element. -/
structure Visit where
  position : List ℕ
  paragraph : ℕ
  path : Option TablePath
  element : XmlElement

/-- The paragraphs of a table: of every cell of every row. -/
def cellParagraphs (table i : ℕ) (tbl : XmlElement) : List (List ℕ × TablePath × XmlElement) :=
  (tbl.numbered (wordTag "tr")).zipIdx.flatMap fun row ↦
    (row.1.1.numbered (wordTag "tc")).zipIdx.flatMap fun cell ↦
      (cell.1.1.numbered (wordTag "p")).zipIdx.map fun p ↦
        ([i, row.1.2, cell.1.2, p.1.2], ⟨table, row.2, cell.2, p.2⟩, p.1.1)

/-- The loop over the children of the body, with `paragraph_index` and `table_index`. -/
def visitsFrom (paragraphIndex tableIndex : ℕ) : List (XmlElement × ℕ) → List Visit
  | [] => []
  | (child, i) :: rest =>
    if child.tag = wordTag "p" then
      ⟨[i], paragraphIndex, none, child⟩ :: visitsFrom (paragraphIndex + 1) tableIndex rest
    else if child.tag = wordTag "tbl" then
      (((cellParagraphs tableIndex i child).zipIdx paragraphIndex).map fun p ↦
        ⟨p.1.1, p.2, some p.1.2.1, p.1.2.2⟩) ++
          visitsFrom (paragraphIndex + (cellParagraphs tableIndex i child).length) (tableIndex + 1) rest
    else visitsFrom paragraphIndex tableIndex rest

/-- The paragraphs that are walked over. -/
def visits (body : XmlElement) : List Visit := visitsFrom 0 0 body.children.zipIdx

/-- The text of a paragraph. -/
def paragraphText (paragraph : XmlElement) : Str :=
  U.normalizeText ((paragraph.iter (wordTag "t")).flatMap XmlElement.ownText)

/-- `paragraph.find("pPr/pStyle")`, and its name. -/
def styleName (paragraph : XmlElement) : Str :=
  let styles := (paragraph.findall (wordTag "pPr")).flatMap (XmlElement.findall (wordTag "pStyle"))
  (styles.head?.bind (XmlElement.get (wordTag "val"))).getD []

def blockType (visit : Visit) : String :=
  let style := k.lower (styleName visit.element)
  if lit "toc" <+: style then "toc_entry"
  else if lit "heading" <+: style then "heading"
  else if visit.path.isSome then "table_cell"
  else "docx_paragraph"

/-- A paragraph with text. -/
def HasText (visit : Visit) : Prop := paragraphText U visit.element ≠ []

instance : DecidablePred (HasText U) := fun visit ↦
  inferInstanceAs (Decidable (paragraphText U visit.element ≠ []))

/-- `_append`, for a paragraph with text. -/
def paragraphDraft (visit : Visit) : Draft :=
  ⟨paragraphText U visit.element, blockType k visit,
    anchorOf U source visit.paragraph visit.path (paragraphText U visit.element)⟩

/-! ### The result -/

/-- The paragraphs that give a block. -/
def emitted (body : XmlElement) : List Visit := (visits body).filter (HasText U)

/-- The blocks, before they are numbered. -/
def drafts (core : Option XmlElement) (body : XmlElement) : List Draft :=
  (coreProperties U core).zipIdx.map (metadataDraft U source) ++
    (emitted U body).map (paragraphDraft U k source)

/-- The blocks in their order. -/
def blocks (core : Option XmlElement) (body : XmlElement) : List ExtractedBlock :=
  (drafts U k source core body).zipIdx.map fun d ↦ ⟨d.2, d.1.text, d.1.blockType, d.1.anchor⟩

/-- The round of `ExtractionResult.__post_init__` for one block. -/
def blockHash (r : ExtractionResult) (block : ExtractedBlock) : Except Exc Str := do
  check (block.anchor.sourceSha256 = r.sourceSha256) "block anchor belongs to a different source"
  check (block.anchor.extractionProfileHash = r.configProfileHash)
    "block anchor belongs to a different extraction profile"
  check (block.anchor.textFingerprint = fingerprint U block.text)
    "block text does not match its anchor fingerprint"
  canonicalSha256 U Protocol.collision block.anchor.toDict

/-- `ExtractionResult.__post_init__`. The names of the parser and of the profile are constants that pass
their check. -/
def ExtractionResult.validate (r : ExtractionResult) : Except Exc ExtractionResult := do
  check (IsSha256 r.sourceSha256) "source_sha256 must be lowercase SHA-256 hex"
  check (IsSha256 r.configProfileHash) "config_profile_hash must be lowercase SHA-256 hex"
  check (r.blocks ≠ []) "successful extraction must contain at least one block"
  check (r.blocks.map (·.ordinal) = List.range r.blocks.length)
    "block ordinals must be contiguous from zero"
  let hashes ← r.blocks.mapM (blockHash U r)
  check hashes.Nodup "successful extraction contains duplicate anchors"
  .ok r

/-- `extract`, for parsed parts. -/
def extract (core : Option XmlElement) (root : XmlElement) : Except ExtractionError ExtractionResult :=
  match root.find (wordTag "body") with
  | none => .error (.failure ⟨"CORRUPT_DOCUMENT", "DOCX body is missing"⟩)
  | some body =>
    if blocks U k source core body = [] then
      .error (.failure ⟨"NO_EXTRACTABLE_TEXT", "DOCX contains no extractable text"⟩)
    else
      match ExtractionResult.validate U
          ⟨source.sha256, source.profileHash, blocks U k source core body, []⟩ with
      | .error e => .error (.exc e)
      | .ok result => .ok result

end Extractor

/-! ## Anchors -/

section Anchors

variable {U : Nfc} {k : Url.Casing} {source : Source}

theorem fingerprint_normalizeText (s : Str) : fingerprint U (U.normalizeText s) = fingerprint U s := by
  rw [fingerprint, fingerprint, U.normalizeText_normalizeText]

theorem map_paragraph_visitsFrom (n t : ℕ) (children : List (XmlElement × ℕ)) :
    (visitsFrom n t children).map (·.paragraph) =
      List.range' n (visitsFrom n t children).length := by
  induction children generalizing n t with
  | nil => rfl
  | cons child rest ih =>
    rw [visitsFrom]
    split
    · rw [List.map_cons, ih, List.length_cons, List.range'_succ]
    split
    · have hnumbers := List.zipIdx_map_snd n (cellParagraphs t child.2 child.1)
      rw [List.map_append, ih, List.length_append, List.length_map, List.length_zipIdx,
        ← List.range'_append_1, List.map_map, ← hnumbers]
      rfl
    · exact ih n t

/-- Every paragraph has its own number. -/
theorem nodup_paragraphs (body : XmlElement) : ((visits body).map (·.paragraph)).Nodup := by
  rw [visits, map_paragraph_visitsFrom]
  exact List.nodup_range'

theorem map_anchor_blocks (core : Option XmlElement) (body : XmlElement) :
    (blocks U k source core body).map (·.anchor) = (drafts U k source core body).map (·.anchor) := by
  rw [blocks, List.map_map]
  conv_rhs => rw [← List.zipIdx_map_fst 0 (drafts U k source core body), List.map_map]
  rfl

/-- A property and a paragraph outside the tables have one anchor. -/
def Collides (U : Nfc) (core : Option XmlElement) (body : XmlElement) : Prop :=
  ∃ property i, (coreProperties U core)[i]? = some property ∧
    ∃ visit ∈ visits body, HasText U visit ∧ visit.paragraph = i ∧ visit.path = none ∧
      fingerprint U (metadataText U property) = fingerprint U (paragraphText U visit.element)

theorem nodup_anchors_iff (core : Option XmlElement) (body : XmlElement) :
    ((blocks U k source core body).map (·.anchor)).Nodup ↔ ¬Collides U core body := by
  have hproperties : (((coreProperties U core).zipIdx.map (metadataDraft U source)).map
      (·.anchor)).Nodup := by
    refine List.Nodup.of_map (·.paragraph) ?_
    rw [List.map_map, List.map_map]
    exact (List.zipIdx_map_snd 0 (coreProperties U core)) ▸ List.nodup_range'
  have hparagraphs : (((emitted U body).map (paragraphDraft U k source)).map (·.anchor)).Nodup := by
    refine List.Nodup.of_map (·.paragraph) ?_
    rw [List.map_map, List.map_map]
    exact (nodup_paragraphs body).sublist (List.filter_sublist.map _)
  rw [map_anchor_blocks, drafts, List.map_append, List.nodup_append]
  constructor
  · rintro ⟨-, -, hdisjoint⟩ ⟨property, i, hproperty, visit, hvisit, htext, hi, hpath, hsame⟩
    have hmem : (property, i) ∈ (coreProperties U core).zipIdx :=
      List.mem_zipIdx_iff_getElem?.mpr hproperty
    have hemitted : visit ∈ emitted U body := List.mem_filter.mpr ⟨hvisit, decide_eq_true htext⟩
    refine hdisjoint _ (List.mem_map_of_mem (List.mem_map_of_mem hmem)) _
      (List.mem_map_of_mem (List.mem_map_of_mem hemitted)) ?_
    simp only [metadataDraft, paragraphDraft, anchorOf, fingerprint_normalizeText, hsame, hi, hpath]
  · intro hno
    refine ⟨hproperties, hparagraphs, fun a ha b hb heq ↦ hno ?_⟩
    obtain ⟨_, hdraft, rfl⟩ := List.mem_map.mp ha
    obtain ⟨⟨property, i⟩, hproperty, rfl⟩ := List.mem_map.mp hdraft
    obtain ⟨_, hdraft', rfl⟩ := List.mem_map.mp hb
    obtain ⟨visit, hvisit, rfl⟩ := List.mem_map.mp hdraft'
    obtain ⟨hmem, htext⟩ := List.mem_filter.mp hvisit
    simp only [metadataDraft, paragraphDraft, anchorOf, fingerprint_normalizeText, DocxParagraphAnchor.mk.injEq,
      true_and] at heq
    exact ⟨property, i, List.mem_zipIdx_iff_getElem?.mp hproperty, visit, hmem,
      of_decide_eq_true htext, heq.1.symm, heq.2.1.symm, heq.2.2⟩

/-- What the anchors are when the blocks go into a result. -/
def resultOf (U : Nfc) (k : Url.Casing) (source : Source) (core : Option XmlElement) (body : XmlElement) :
    ExtractionResult :=
  ⟨source.sha256, source.profileHash, blocks U k source core body, []⟩

/-- The hash of a block depends on its anchor alone. -/
theorem canonicalSha256_of_blockHash {r : ExtractionResult} {block : ExtractedBlock} {hash : Str}
    (h : blockHash U r block = .ok hash) :
    canonicalSha256 U Protocol.collision block.anchor.toDict = .ok hash := by
  rw [blockHash, check_bind_eq_ok, check_bind_eq_ok, check_bind_eq_ok] at h
  exact h.2.2.2

/-- Distinct hashes come from distinct anchors. -/
theorem nodup_anchors_of_hashes {r : ExtractionResult} {bs : List ExtractedBlock} {hashes : List Str}
    (h : bs.mapM (blockHash U r) = .ok hashes) (hnodup : hashes.Nodup) : (bs.map (·.anchor)).Nodup := by
  have hforall := mapM_eq_ok.mp h
  induction hforall with
  | nil => exact List.nodup_nil
  | @cons block hash bs hashes hhash hrest ih =>
    obtain ⟨hnew, hnodup⟩ := List.nodup_cons.mp hnodup
    refine List.nodup_cons.mpr ⟨fun hmem ↦ hnew ?_, ih (mapM_eq_ok.mpr hrest) hnodup⟩
    obtain ⟨block', hblock', (hsame : block'.anchor = block.anchor)⟩ := List.mem_map.mp hmem
    obtain ⟨hlen, hget⟩ := List.forall₂_iff_get.mp hrest
    obtain ⟨n, hn, rfl⟩ := List.getElem_of_mem hblock'
    have hn' : n < hashes.length := hlen ▸ hn
    have hhash' : blockHash U r bs[n] = .ok hashes[n] := hget n hn hn'
    have hcanonical := canonicalSha256_of_blockHash hhash
    rw [← hsame, canonicalSha256_of_blockHash hhash'] at hcanonical
    exact Except.ok.inj hcanonical ▸ List.getElem_mem _

/-- Equal hashes come from equal anchors, or from two anchors that SHA-256 does not tell apart. -/
theorem nodup_hashes_or {r : ExtractionResult} {bs : List ExtractedBlock} {hashes : List Str}
    (h : bs.mapM (blockHash U r) = .ok hashes) (hnodup : (bs.map (·.anchor)).Nodup) :
    hashes.Nodup ∨ ∃ a ∈ bs, ∃ b ∈ bs, a.anchor ≠ b.anchor ∧ blockHash U r a = blockHash U r b := by
  have hforall := mapM_eq_ok.mp h
  induction hforall with
  | nil => exact .inl List.nodup_nil
  | @cons block hash bs hashes hhash hrest ih =>
    obtain ⟨hnew, hnodup⟩ := List.nodup_cons.mp hnodup
    obtain hhashes | ⟨a, ha, b, hb, hne, hsame⟩ := ih (mapM_eq_ok.mpr hrest) hnodup
    · by_cases hmem : hash ∈ hashes
      · obtain ⟨n, hn, rfl⟩ := List.getElem_of_mem hmem
        obtain ⟨hlen, hget⟩ := List.forall₂_iff_get.mp hrest
        have hn' : n < bs.length := hlen ▸ hn
        have hbn : bs[n] ∈ bs := List.getElem_mem _
        refine .inr ⟨block, List.mem_cons_self, _, List.mem_cons_of_mem _ hbn, fun heq ↦ hnew ?_,
          hhash.trans (hget n hn' hn).symm⟩
        exact List.mem_map.mpr ⟨_, hbn, heq.symm⟩
      · exact .inl (List.nodup_cons.mpr ⟨hmem, hhashes⟩)
    · exact .inr ⟨a, List.mem_cons_of_mem _ ha, b, List.mem_cons_of_mem _ hb, hne, hsame⟩

end Anchors

end Docx

open Docx in
/-- **The anchors of a document are pairwise distinct exactly when no property collides with a paragraph
of its number.** A collision leaves no result to return. Without one, the check of the result can only
fail on two different anchors with one SHA-256 digest. -/
theorem docx_anchors_distinct_iff (U : Nfc) (k : Url.Casing) (source : Source)
    (core : Option XmlElement) (body : XmlElement) :
    (((blocks U k source core body).map (·.anchor)).Nodup ↔ ¬Collides U core body) ∧
      (Collides U core body → ∀ root, root.find (wordTag "body") = some body →
        ∀ result, extract U k source core root ≠ .ok result) ∧
      (¬Collides U core body → ∀ hashes,
        (blocks U k source core body).mapM (blockHash U (resultOf U k source core body)) = .ok hashes →
          hashes.Nodup ∨ ∃ a ∈ blocks U k source core body, ∃ b ∈ blocks U k source core body,
            a.anchor ≠ b.anchor ∧ blockHash U (resultOf U k source core body) a =
              blockHash U (resultOf U k source core body) b) := by
  refine ⟨nodup_anchors_iff core body, fun hcollides root hroot result h ↦ ?_,
    fun hno hashes hhashes ↦ nodup_hashes_or hhashes ((nodup_anchors_iff core body).mpr hno)⟩
  rw [extract, hroot] at h
  dsimp only at h
  split at h
  · cases h
  split at h
  · cases h
  · rename_i validated hvalidate
    simp only [ExtractionResult.validate, bind_eq_ok, check_eq_ok] at hvalidate
    obtain ⟨-, -, -, -, -, -, -, -, hashes, hhashes, -, hnodup, -⟩ := hvalidate
    exact (nodup_anchors_iff core body).mp (nodup_anchors_of_hashes hhashes hnodup) hcollides

open Docx in
/-- A document with the title `x` whose first paragraph says `title: x`. -/
theorem docx_anchors_collide :
    ¬((blocks Nfc.ascii Url.Casing.onlyAscii
      ⟨List.replicate 64 97, List.replicate 64 97, by decide, by decide⟩
      (some (.mk (coreTag "coreProperties") [] none [.mk (dcTag "title") [] (some (lit "x")) []]))
      (.mk (wordTag "body") [] none [.mk (wordTag "p") [] none [.mk (wordTag "r") [] none
        [.mk (wordTag "t") [] (some (lit "title: x")) []]]])).map (·.anchor)).Nodup := by
  rw [nodup_anchors_iff, not_not]
  exact ⟨("title", lit "x"), 0, by decide +kernel, ⟨[0], 0, none, .mk (wordTag "p") [] none
    [.mk (wordTag "r") [] none [.mk (wordTag "t") [] (some (lit "title: x")) []]]⟩,
    List.mem_of_getElem? (i := 0) rfl, by decide +kernel, rfl, rfl, by decide +kernel⟩

end MeetingRag
