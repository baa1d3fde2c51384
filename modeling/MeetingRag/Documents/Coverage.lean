import MeetingRag.Documents.Blocks
import MeetingRag.Library.Lists

/-!
# The source section is complete

The source section goes over the anchors of a document and packs them into chunks, one block a chunk. The
loop carries the chunk that is not flushed yet; the invariant is that the flushed chunks followed by the
pending one are the anchors gone over so far, and that every one of them fits.
-/

open Lists Text

namespace MeetingRag

/-- A chunk as a block takes it: some anchors, not more than ten, and within the bound on a paragraph
unless there is only one. -/
structure FittingChunk (chunk : List ComparisonAnchor) : Prop where
  nonempty : chunk ≠ []
  count : chunk.length ≤ maxCoverageAnchorsPerBlock
  length : 2 ≤ chunk.length → (join "\n\n" (chunk.map (·.text))).length ≤ maxMergedParagraphLength

/-- A way to cut the anchors of a document into chunks. -/
structure Chunking (anchors : List ComparisonAnchor) (chunks : List (List ComparisonAnchor)) : Prop where
  flatten : chunks.flatten = anchors
  fitting : ∀ chunk ∈ chunks, FittingChunk chunk

/-! ## Lengths -/

/-- Every text brings its separator, but for the last one. -/
theorem length_join (sep : String) {texts : List String} (h : texts ≠ []) :
    (join sep texts).length + sep.length = (texts.map fun text ↦ text.length + sep.length).sum := by
  induction texts with
  | nil => exact absurd rfl h
  | cons text texts ih =>
    by_cases hnil : texts = []
    · rw [hnil, join, String.intercalate_singleton, List.map_singleton, List.sum_singleton]
    · have htail := ih hnil
      rw [join] at htail ⊢
      rw [String.intercalate_cons_of_ne_nil hnil, String.length_append, String.length_append,
        List.map_cons, List.sum_cons, ← htail]
      omega

/-- `next_length` is the length of the text that the chunk would have. -/
theorem length_join_append (pending : List ComparisonAnchor) (anchor : ComparisonAnchor) :
    (join "\n\n" ((pending ++ [anchor]).map (·.text))).length = nextLength pending anchor := by
  have hsep : ("\n\n" : String).length = 2 := by decide
  have hne : (pending ++ [anchor]).map (·.text) ≠ [] := by simp
  have hlength := length_join "\n\n" hne
  have hsum : ∀ xs : List ComparisonAnchor, ((xs.map (·.text)).map fun text ↦ text.length + 2).sum =
      (xs.map (·.text.length)).sum + 2 * xs.length := by
    intro xs
    induction xs with
    | nil => rfl
    | cons a xs ih =>
      rw [List.map_cons, List.map_cons, List.sum_cons, ih, List.map_cons, List.sum_cons,
        List.length_cons]
      omega
  have htotal : ((pending ++ [anchor]).map (·.text.length)).sum =
      (pending.map (·.text.length)).sum + anchor.text.length := by
    rw [List.map_append, List.sum_append, List.map_singleton, List.sum_singleton]
  rw [hsep, hsum, htotal, List.length_append, List.length_singleton] at hlength
  rw [nextLength]
  omega

/-! ## The loop -/

section Loop

variable {documentIndex : ℕ} {document : SnapshotDocument} {c : CoverageChunks}
  {done : List ComparisonAnchor}

/-- What the loop has flushed, and what it holds, after some anchors. -/
structure Covered (documentIndex : ℕ) (document : SnapshotDocument) (c : CoverageChunks)
    (done : List ComparisonAnchor) (chunks : List (List ComparisonAnchor)) : Prop where
  blocks : c.blocks = chunks.zipIdx.map fun chunk ↦ chunkBlock documentIndex document chunk.2 chunk.1
  index : c.chunkIndex = chunks.length
  anchors : chunks.flatten ++ c.pending = done
  fitting : ∀ chunk ∈ chunks, FittingChunk chunk
  pending : c.pending ≠ [] → FittingChunk c.pending

theorem Covered.flushChunk {chunks : List (List ComparisonAnchor)}
    (h : Covered documentIndex document c done chunks) :
    ∃ chunks', Covered documentIndex document (flushChunk documentIndex document c) done chunks' ∧
      (MeetingRag.flushChunk documentIndex document c).pending = [] := by
  rw [MeetingRag.flushChunk]
  split
  · next hnil => exact ⟨chunks, h, hnil⟩
  · next hne =>
    refine ⟨chunks ++ [c.pending], ⟨?_, ?_, ?_, ?_, absurd rfl⟩, rfl⟩
    · rw [List.zipIdx_append, List.map_append, ← h.blocks, h.index, Nat.zero_add]
      rfl
    · rw [List.length_append, ← h.index]
      rfl
    · rw [List.flatten_append, List.flatten_singleton, List.append_nil]
      exact h.anchors
    · exact List.forall_mem_append.mpr ⟨h.fitting, List.forall_mem_singleton.mpr (h.pending hne)⟩

/-- An anchor joins the pending chunk where this stays within both bounds. -/
theorem Covered.append {chunks : List (List ComparisonAnchor)} {anchor : ComparisonAnchor}
    (h : Covered documentIndex document c done chunks)
    (hroom : c.pending = [] ∨ (c.pending.length < maxCoverageAnchorsPerBlock ∧
      nextLength c.pending anchor ≤ maxMergedParagraphLength)) :
    Covered documentIndex document { c with pending := c.pending ++ [anchor] } (done ++ [anchor])
      chunks := by
  refine ⟨h.blocks, h.index, ?_, h.fitting, fun hne ↦ ⟨hne, ?_, fun htwo ↦ ?_⟩⟩
  · rw [← h.anchors, List.append_assoc]
  · rw [List.length_append, List.length_singleton]
    rcases hroom with hnil | ⟨hcount, -⟩
    · rw [hnil]
      decide
    · exact hcount
  · rw [length_join_append]
    rcases hroom with hnil | ⟨-, hlength⟩
    · rw [hnil, List.nil_append, List.length_singleton] at htwo
      exact absurd htwo (by decide)
    · exact hlength

theorem Covered.coverAnchor {chunks : List (List ComparisonAnchor)}
    (h : Covered documentIndex document c done chunks) (anchor : ComparisonAnchor) :
    ∃ chunks', Covered documentIndex document (coverAnchor documentIndex document c anchor)
      (done ++ [anchor]) chunks' := by
  rw [MeetingRag.coverAnchor]
  split
  · obtain ⟨chunks', hflushed, hnil⟩ := h.flushChunk
    exact ⟨chunks', hflushed.append (.inl hnil)⟩
  · next hroom =>
    rw [not_or, not_le, not_lt] at hroom
    exact ⟨chunks, h.append (.inr hroom)⟩

theorem Covered.foldl {chunks : List (List ComparisonAnchor)}
    (h : Covered documentIndex document c done chunks) (anchors : List ComparisonAnchor) :
    ∃ chunks', Covered documentIndex document
      (anchors.foldl (MeetingRag.coverAnchor documentIndex document) c) (done ++ anchors) chunks' := by
  induction anchors generalizing c done chunks with
  | nil => exact ⟨chunks, by rw [List.append_nil]; exact h⟩
  | cons anchor anchors ih =>
    obtain ⟨chunks', hanchor⟩ := h.coverAnchor anchor
    rw [List.foldl_cons, List.append_cons]
    exact ih hanchor

end Loop

/-- **The blocks of a document** are those of a way to cut its anchors. -/
theorem exists_chunking (documentIndex : ℕ) (document : SnapshotDocument) :
    ∃ chunks, Chunking document.anchors chunks ∧ coverageOf documentIndex document =
      chunks.zipIdx.map fun chunk ↦ chunkBlock documentIndex document chunk.2 chunk.1 := by
  have hstart : Covered documentIndex document ⟨[], [], 0⟩ [] [] :=
    ⟨rfl, rfl, rfl, nofun, absurd rfl⟩
  obtain ⟨chunks, hloop⟩ := hstart.foldl document.anchors
  obtain ⟨chunks', hend, hnil⟩ := hloop.flushChunk
  have hflatten := hend.anchors
  rw [hnil, List.append_nil] at hflatten
  exact ⟨chunks', ⟨hflatten, hend.fitting⟩, hend.blocks⟩

/-! ## The ids -/

theorem chunkBlock_id_inj {i j m n : ℕ} {d d' : SnapshotDocument} {c c' : List ComparisonAnchor}
    (h : (chunkBlock i d m c).id = (chunkBlock j d' n c').id) : i = j ∧ m = n := by
  have hyphen : ∀ k, '-' ∉ (decimal k).toList := fun k hmem ↦
    absurd (isDigit_of_mem_decimal hmem) (by decide)
  have hlist : (decimal i).toList ++ '-' :: (decimal m).toList =
      (decimal j).toList ++ '-' :: (decimal n).toList := by
    have hchars := congrArg String.toList h
    simp only [chunkBlock, String.toList_append, List.append_assoc] at hchars
    exact List.append_cancel_left hchars
  obtain ⟨hi, -, hm⟩ := (List.append_cons_inj_of_notMem (hyphen i) (hyphen m)).mp hlist
  exact ⟨decimal_injective (String.toList_inj.mp hi), decimal_injective (String.toList_inj.mp hm)⟩

/-- The id of a block of a document is not that of the heading. -/
theorem chunkBlock_id_ne_heading (i m : ℕ) (d : SnapshotDocument) (c : List ComparisonAnchor) :
    (chunkBlock i d m c).id ≠ sourceCoverageHeading.id := by
  intro h
  have hlist : (decimal i).toList ++ '-' :: (decimal m).toList = "coverage-heading".toList := by
    have hchars := congrArg String.toList h
    simp only [chunkBlock, String.toList_append, List.append_assoc] at hchars
    exact @List.append_cancel_left _ "source-".toList _ _ hchars
  have hletter : 'c' ∈ (decimal i).toList ++ '-' :: (decimal m).toList := by
    rw [hlist]
    decide
  rcases List.mem_append.mp hletter with hmem | hmem
  · exact absurd (isDigit_of_mem_decimal hmem) (by decide)
  · rcases List.mem_cons.mp hmem with hhyphen | hmem
    · exact absurd hhyphen (by decide)
    · exact absurd (isDigit_of_mem_decimal hmem) (by decide)

theorem nodup_coverage_ids {documents : List SnapshotDocument} :
    ((buildSourceCoverageBlocks documents).map (·.id)).Nodup := by
  rw [buildSourceCoverageBlocks, List.map_cons, List.nodup_cons]
  constructor
  · intro hmem
    obtain ⟨block, hblock, hid⟩ := List.mem_map.mp hmem
    obtain ⟨d, -, hblock⟩ := List.mem_flatMap.mp hblock
    obtain ⟨chunks, -, hblocks⟩ := exists_chunking d.2 d.1
    rw [hblocks] at hblock
    obtain ⟨chunk, -, rfl⟩ := List.mem_map.mp hblock
    exact chunkBlock_id_ne_heading _ _ _ _ hid
  · have hblocks : ∀ d : SnapshotDocument × ℕ, ∃ ids : List ℕ, ids.Nodup ∧
        (coverageOf d.2 d.1).map (·.id) = ids.map fun n ↦ (chunkBlock d.2 d.1 n []).id := by
      intro d
      obtain ⟨chunks, -, hblocks⟩ := exists_chunking d.2 d.1
      refine ⟨List.range chunks.length, List.nodup_range, ?_⟩
      rw [hblocks, List.map_map, List.range_eq_range', ← List.zipIdx_map_snd 0 chunks, List.map_map]
      rfl
    rw [List.map_flatMap]
    refine pairwise_zipIdx (fun d ↦ ?_) fun d d' hne id hid id' hid' heq ↦ ?_
    · obtain ⟨ids, hnodup, hids⟩ := hblocks d
      rw [hids]
      exact hnodup.map fun m n h ↦ (chunkBlock_id_inj h).2
    · obtain ⟨ids, -, hids⟩ := hblocks d
      obtain ⟨ids', -, hids'⟩ := hblocks d'
      rw [hids] at hid
      rw [hids'] at hid'
      obtain ⟨m, -, rfl⟩ := List.mem_map.mp hid
      obtain ⟨n, -, hn⟩ := List.mem_map.mp hid'
      exact hne (chunkBlock_id_inj (heq.trans hn.symm)).1

/-! ## The section -/

/-- How a paragraph shows a chunk of a document: the texts word for word, and a tag with the ids. -/
structure ShowsChunk (source : SnapshotDocument × List ComparisonAnchor) (block : PersistedBlock) :
    Prop where
  type : block.type = "paragraph"
  text : block.text = join "\n\n" (source.2.map (·.text))
  tag : block.tag = some (coverageTitle source.1 ++ " · " ++
    join " " (source.2.map fun anchor ↦ "RAG:" ++ anchor.anchorId.str))
  length : 2 ≤ source.2.length → block.text.length ≤ maxMergedParagraphLength

/-- **The source section is complete.** Under its heading, the paragraphs show the chunks of a way to cut
the anchors of every document, in order; and no two blocks share an id. -/
theorem sourceCoverage_complete (documents : List SnapshotDocument) :
    ((buildSourceCoverageBlocks documents).map (·.id)).Nodup ∧
      ∃ (cut : SnapshotDocument × ℕ → List (List ComparisonAnchor)) (paragraphs : List PersistedBlock),
        buildSourceCoverageBlocks documents = sourceCoverageHeading :: paragraphs ∧
        (∀ d ∈ documents.zipIdx, Chunking d.1.anchors (cut d)) ∧
        (documents.zipIdx.flatMap fun d ↦ (cut d).flatten) = documents.flatMap (·.anchors) ∧
        List.Forall₂ ShowsChunk
          (documents.zipIdx.flatMap fun d ↦ (cut d).map fun chunk ↦ (d.1, chunk)) paragraphs := by
  choose cut hchunking hblocks using fun d : SnapshotDocument × ℕ ↦ exists_chunking d.2 d.1
  refine ⟨nodup_coverage_ids, cut, _, rfl, fun d _ ↦ hchunking d, ?_, ?_⟩
  · have hanchors : (fun d : SnapshotDocument × ℕ ↦ (cut d).flatten) = fun d ↦ d.1.anchors :=
      funext fun d ↦ (hchunking d).flatten
    calc documents.zipIdx.flatMap (fun d ↦ (cut d).flatten)
        = documents.zipIdx.flatMap (fun d ↦ d.1.anchors) := by rw [hanchors]
      _ = (documents.zipIdx.map Prod.fst).flatMap (·.anchors) :=
          (List.flatMap_map Prod.fst _ _).symm
      _ = documents.flatMap (·.anchors) := by rw [List.zipIdx_map_fst]
  · have hsame : List.Forall₂ (· = ·) documents.zipIdx documents.zipIdx := List.forall₂_refl _
    refine List.rel_flatMap hsame fun d d' heq ↦ ?_
    subst heq
    have hpaired : ((cut d).map fun chunk ↦ (d.1, chunk)) =
        (cut d).zipIdx.map fun chunk ↦ (d.1, chunk.1) := by
      nth_rewrite 1 [← List.zipIdx_map_fst 0 (cut d)]
      rw [List.map_map]
      rfl
    rw [hblocks, hpaired, List.forall₂_map_left_iff, List.forall₂_map_right_iff, List.forall₂_same]
    exact fun chunk hchunk ↦
      ⟨rfl, rfl, rfl, ((hchunking d).fitting chunk.1 (List.fst_mem_of_mem_zipIdx hchunk)).length⟩

end MeetingRag
