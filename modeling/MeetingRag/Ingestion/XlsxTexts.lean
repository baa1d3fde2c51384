import MeetingRag.Ingestion.DocxText
import MeetingRag.Ingestion.Xlsx

/-!
# Texts of an XLSX document

A parser yields no surrogates, and every text that the extractor takes from a tree is normalized, so a text
at its place can always be hashed: its fingerprint, its anchor and its block exist.

## Main results

* `clean_cellValue`, `clean_sheetParts`: the texts and the names are normalized and can be encoded.
* `Sound.cellBlock`, `Sound.exists_anchorHash`: a text at its place has a block, and its anchor a hash.
-/

open Outcome Py Py.Json

namespace MeetingRag

namespace Xlsx

/-! ## Clean text -/

/-- What is documented of NFC beyond `Nfc`: a part of normalized text is normalized, and surrogates do not
come from other text. -/
structure Standard (U : Nfc) : Prop where
  part : ∀ s t, t <:+: s → U.nfc s = s → U.nfc t = t
  scalar : ∀ s, Scalar s → Scalar (U.nfc s)

/-- Normalized text that can be encoded. -/
structure Clean (U : Nfc) (s : Str) : Prop where
  scalar : Scalar s
  normalized : U.normalizeText s = s

section Clean

variable {U : Nfc} {s t : Str}

theorem Clean.of_part (hU : Standard U) (h : Clean U s) (hts : t <:+: s) : Clean U t where
  scalar c hc := h.scalar c (hts.subset hc)
  normalized := by
    obtain ⟨hcr, hnfc⟩ := U.normalizeText_eq_self.mp h.normalized
    exact U.normalizeText_eq_self.mpr ⟨fun hmem ↦ hcr (hts.subset hmem), hU.part s t hts hnfc⟩

theorem strip_part (s : Str) : strip s <:+: s :=
  (List.rdropWhile_prefix _ _).isInfix.trans (List.dropWhile_suffix _).isInfix

theorem scalar_toLf (h : Scalar s) : Scalar (toLf s) := by
  have hjoined : Scalar (joinCrLf s) := by
    induction s using joinCrLf.induct with
    | case1 => exact h
    | case2 c => exact h
    | case3 c d rest hpair ih =>
      rw [joinCrLf, if_pos hpair]
      exact List.forall_mem_cons.mpr ⟨by decide, ih fun e he ↦
        h e (List.mem_cons_of_mem _ (List.mem_cons_of_mem _ he))⟩
    | case4 c d rest hpair ih =>
      rw [joinCrLf, if_neg hpair]
      exact List.forall_mem_cons.mpr ⟨h c List.mem_cons_self, ih fun e he ↦
        h e (List.mem_cons_of_mem _ he)⟩
  intro c hc
  obtain ⟨d, hd, rfl⟩ := List.mem_map.mp hc
  split
  · decide
  · exact hjoined d hd

theorem clean_normalizeText (hU : Standard U) (h : Scalar s) : Clean U (U.normalizeText s) where
  scalar := hU.scalar _ (scalar_toLf h)
  normalized := U.normalizeText_normalizeText s

theorem clean_strip (hU : Standard U) (h : Scalar s) : Clean U (strip (U.normalizeText s)) :=
  (clean_normalizeText hU h).of_part hU (strip_part _)

theorem clean_of_printable (h : Printable s) : Clean U s :=
  ⟨scalar_of_printable h, normalizeText_of_printable h⟩

end Clean

/-! ## Parsed trees -/

/-- A tree from a parser, which yields no surrogates. -/
inductive Parsed : XmlElement → Prop
  | mk {tag : String} {attributes : List (String × Str)} {text : Option Str}
      {children : List XmlElement} (attributes_scalar : ∀ a ∈ attributes, Scalar a.2)
      (text_scalar : Scalar (text.getD [])) (children_parsed : ∀ child ∈ children, Parsed child) :
      Parsed (.mk tag attributes text children)

section Parsed

variable {root e : XmlElement}

theorem Parsed.ownText (h : Parsed e) : Scalar e.ownText := by
  cases h with
  | mk _ htext _ => exact htext

theorem Parsed.child (h : Parsed root) (he : e ∈ root.children) : Parsed e := by
  cases h with
  | mk _ _ hchildren => exact hchildren e he

theorem Parsed.get (h : Parsed e) {name : String} {value : Str} (hvalue : e.get name = some value) :
    Scalar value := by
  cases h with
  | @mk tag attributes text children hattributes _ _ =>
    exact by
      obtain ⟨front, back, rfl, -⟩ := List.lookup_eq_some_iff.mp hvalue
      exact hattributes (name, value) (List.mem_append_right _ List.mem_cons_self)

mutual

theorem Parsed.descendants {namespaces : List String} {name : String} :
    ∀ {root : XmlElement}, Parsed root → ∀ e ∈ Xlsx.descendants namespaces name root, Parsed e
  | .mk tag attributes text children, h, e, he => by
    rw [Xlsx.descendants] at he
    rcases List.mem_append.mp he with he | he
    · split at he
      · exact List.mem_singleton.mp he ▸ h
      · exact absurd he List.not_mem_nil
    · exact Parsed.descendantsIn (fun child hchild ↦ h.child hchild) e he

theorem Parsed.descendantsIn {namespaces : List String} {name : String} :
    ∀ {children : List XmlElement}, (∀ child ∈ children, Parsed child) →
      ∀ e ∈ Xlsx.descendantsIn namespaces name children, Parsed e
  | [], _, e, he => absurd he List.not_mem_nil
  | child :: rest, h, e, he => by
    obtain ⟨hchild, hrest⟩ := List.forall_mem_cons.mp h
    rw [Xlsx.descendantsIn] at he
    rcases List.mem_append.mp he with he | he
    · exact Parsed.descendants hchild e he
    · exact Parsed.descendantsIn hrest e he

end

theorem Parsed.childOf (h : Parsed root) {namespaces : List String} {name : String}
    (he : Xlsx.childOf namespaces name root = some e) : Parsed e :=
  h.child (List.mem_of_find?_eq_some he)

theorem Parsed.childrenOf (h : Parsed root) {namespaces : List String} {name : String}
    (he : e ∈ Xlsx.childrenOf namespaces name root) : Parsed e :=
  h.child (List.mem_filter.mp he).1

end Parsed

/-! ## Texts of cells -/

section Texts

variable {U : Nfc} {D : Digits}

theorem clean_sharedStringText (hU : Standard U) {node : XmlElement} (h : Parsed node) :
    Clean U (sharedStringText U node) := by
  refine clean_normalizeText hU fun c hc ↦ ?_
  obtain ⟨e, he, hce⟩ := List.mem_flatMap.mp hc
  exact (h.descendants e he).ownText c hce

theorem clean_parseSharedStrings (hU : Standard U) {root : XmlElement} (h : Parsed root) :
    ∀ s ∈ parseSharedStrings U root, Clean U s := by
  intro s hs
  obtain ⟨node, hnode, rfl⟩ := List.mem_map.mp hs
  exact clean_sharedStringText hU (h.childrenOf hnode)

theorem clean_nil : Clean U [] := clean_of_printable fun _ hc ↦ absurd hc List.not_mem_nil

/-- The text of a cell is clean. -/
theorem clean_cellValue (hU : Standard U) {sharedStrings : List Str}
    (hshared : ∀ s ∈ sharedStrings, Clean U s) {cell : XmlElement} (h : Parsed cell) {t : Str}
    (ht : cellValue U D sharedStrings cell = .ok t) : Clean U t := by
  unfold cellValue at ht
  split at ht
  · split at ht
    · exact nomatch ht
    · split at ht
      · exact nomatch ht
      · split at ht
        · exact nomatch ht
        · next value hvalue =>
          cases ht
          exact (hshared value (List.mem_of_getElem? hvalue)).of_part hU (strip_part _)
  · split at ht
    · cases ht
      cases hinline : childOf xlsxNamespaces "is" cell with
      | none => exact clean_nil
      | some e => exact clean_sharedStringText hU (h.childOf hinline)
    · split at ht
      · next c rest hvalue =>
        cases ht
        obtain ⟨e, he, htext⟩ := Option.bind_eq_some_iff.mp hvalue
        refine clean_strip hU ?_
        have hown := (h.childOf he).ownText
        cases e with
        | mk tag attributes text children =>
          obtain rfl : text = some (c :: rest) := htext
          exact hown
      · cases ht
        cases hformula : childOf xlsxNamespaces "f" cell with
        | none => exact clean_nil
        | some e => exact clean_strip hU (h.childOf hformula).ownText

/-- The name of a sheet is clean, and short. -/
theorem clean_sheetParts (hU : Standard U) {workbook rels : XmlElement} (h : Parsed workbook)
    {sheets : List (Str × Str)} (hsheets : sheetParts U workbook rels = .ok sheets) :
    ∀ sheet ∈ sheets, Clean U sheet.1 ∧ sheet.1 ≠ [] ∧ sheet.1.length ≤ 128 := by
  simp only [sheetParts, bind_eq_ok] at hsheets
  obtain ⟨-, -, hsheets⟩ := hsheets
  split at hsheets
  · exact nomatch hsheets
  · next list hlist =>
    obtain ⟨result, hresult, -, -, hsame⟩ : ∃ result, _ ∧ ∃ _, _ ∧ _ := by
      simpa only [bind_eq_ok, Except.ok.injEq] using hsheets
    subst hsame
    intro sheet hsheet
    obtain ⟨node, hnode, hpart⟩ := exists_of_mem_mapM hresult hsheet
    have hparsed : Parsed node := (h.childOf hlist).childrenOf hnode
    unfold sheetPart at hpart
    dsimp only at hpart
    split at hpart
    · exact nomatch hpart
    · exact nomatch hpart
    · simp only [bind_eq_ok, require_eq_ok, exists_const, Except.ok.injEq] at hpart
      obtain ⟨hname, path, -, rfl⟩ := hpart
      have hscalar : Scalar ((node.get "name").getD []) := by
        cases hget : node.get "name" with
        | none => exact fun _ hc ↦ absurd hc List.not_mem_nil
        | some value => exact hparsed.get hget
      refine ⟨(clean_strip hU hscalar).of_part hU (List.take_prefix _ _).isInfix, ?_, ?_⟩
      · intro hnil
        exact hname ((List.take_eq_nil_iff.mp hnil).resolve_left (by decide))
      · exact List.length_take_le _ _

end Texts

/-! ## Placed texts -/

/-- The text of a cell, and where it is. -/
structure Placed where
  sheet : Str
  cell : Str
  row : ℕ
  column : ℕ
  text : Str
deriving DecidableEq

/-- The hash of the anchor of a text. -/
def anchorHash (U : Nfc) (source : Docx.Source) (p : Placed) : Except Exc Str := do
  let anchor ← anchorFromText U source p.sheet p.cell p.row p.column p.text
  canonicalSha256 U Protocol.collision anchor.toDict

/-- A text and a place as the extractor makes them. -/
structure Sound (U : Nfc) (p : Placed) : Prop where
  text : Clean U p.text
  text_ne_nil : p.text ≠ []
  sheet : Clean U p.sheet
  sheet_ne_nil : p.sheet ≠ []
  sheet_short : p.sheet.length ≤ 128
  reads : ∃ letters digits, Reads p.cell letters digits p.row p.column

section Placed

variable {U : Nfc} {source : Docx.Source} {p : Placed}

theorem Sound.printable_cell (h : Sound U p) : Printable p.cell := by
  obtain ⟨letters, digits, hreads⟩ := h.reads
  intro c hc
  rw [hreads.split] at hc
  rcases List.mem_append.mp hc with hc | hc
  · have := hreads.capital c hc
    exact ⟨by have := this.1; omega, by have := this.2; omega⟩
  · have := hreads.digit c hc
    exact ⟨by have := this.1; omega, by have := this.2; omega⟩

theorem Sound.numbers (h : Sound U p) :
    1 ≤ p.row ∧ p.row ≤ 1048576 ∧ 1 ≤ p.column ∧ p.column ≤ 16384 := by
  obtain ⟨letters, digits, hreads⟩ := h.reads
  refine ⟨hreads.row_pos, hreads.row_le, ?_, hreads.column_le⟩
  -- The last letter counts at least one.
  obtain ⟨front, last, rfl⟩ := (List.eq_nil_or_concat letters).resolve_left hreads.letters_ne_nil
  rw [hreads.column_eq, columnValue, List.concat_eq_append, List.map_append, List.map_singleton,
    Bijective.value_concat, letterValue]
  omega

theorem length_decimalDigits_le {n : ℕ} (h : n ≤ 1048576) : (decimalDigits n).length ≤ 4300 := by
  rw [decimalDigits]
  split
  · decide
  · rw [List.length_reverse]
    have hlength : (Nat.digits 10 n).length ≤ 7 :=
      (Nat.digits_length_le_iff (by decide) n).mpr (by omega)
    omega

/-- The anchor of a text at its place. -/
def anchorOf (source : Docx.Source) (p : Placed) : XlsxCellAnchor :=
  ⟨source.sha256, source.profileHash, p.sheet, p.cell, p.row, p.column, sha256Hex (encodeUtf8 p.text)⟩

theorem textFingerprint_of_clean {t : Str} (h : Clean U t) :
    textFingerprint U t = .ok (sha256Hex (encodeUtf8 t)) := by
  rw [textFingerprint, h.normalized, encode_of_scalar h.scalar, ok_bind]

/-- **A text at its place has an anchor.** -/
theorem Sound.anchorFromText (h : Sound U p) :
    Xlsx.anchorFromText U source p.sheet p.cell p.row p.column p.text = .ok (anchorOf source p) := by
  have hcell : p.cell ≠ [] ∧ p.cell.length ≤ 128 := by
    obtain ⟨letters, digits, hreads⟩ := h.reads
    refine ⟨?_, hreads.short.trans (by decide)⟩
    rw [hreads.split]
    exact List.append_ne_nil_of_left_ne_nil hreads.letters_ne_nil _
  obtain ⟨hrow, -, hcolumn, -⟩ := h.numbers
  simp only [Xlsx.anchorFromText, requireIdentifier, check_bind_eq_ok, h.text.normalized,
    textFingerprint_of_clean h.text, ok_bind]
  exact ⟨h.text_ne_nil, ⟨h.sheet_ne_nil, h.sheet_short, h.sheet.normalized⟩,
    ⟨hcell.1, hcell.2, normalizeText_of_printable h.printable_cell⟩, hrow, hcolumn, rfl⟩

theorem Sound.ready (source : Docx.Source) (h : Sound U p) : Ready U (anchorOf source p).toDict := by
  have hhex {s : Str} (h : IsSha256 s) : Ready U (.str s) :=
    .leaf trivial (readyLeaf_of_printable (printable_of_isSha256 h))
  have hclean {s : Str} (h : Clean U s) : Ready U (.str s) := by
    refine .leaf trivial ?_
    rw [ReadyLeaf, h.normalized]
    exact h.scalar
  have hint {n : ℕ} (h : n ≤ 1048576) : Ready U (.int n) := .leaf trivial (length_decimalDigits_le h)
  obtain ⟨-, hrow, -, hcolumn⟩ := h.numbers
  have hlocator : Ready U (.object (obj [("sheet", .str p.sheet), ("cell", .str p.cell),
      ("row", .int p.row), ("column", .int p.column)])) := by
    refine Docx.ready_obj ["sheet", "cell", "row", "column"] rfl (by decide +kernel) ?_
    simp only [List.forall_mem_cons]
    exact ⟨hclean h.sheet, hclean (clean_of_printable h.printable_cell), hint hrow,
      hint (hcolumn.trans (by decide)), List.forall_mem_nil _⟩
  refine Docx.ready_obj ["schema_version", "kind", "source_sha256", "extraction_profile_hash",
    "locator", "text_fingerprint"] rfl (by decide +kernel) ?_
  simp only [List.forall_mem_cons]
  exact ⟨hint (n := 1) (by decide), .leaf trivial (readyLeaf_of_printable (by decide +kernel)),
    hhex source.isSha256, hhex source.isProfile, hlocator, hhex (isSha256_sha256Hex _),
    List.forall_mem_nil _⟩

/-- **Its anchor has a hash.** -/
theorem Sound.exists_anchorHash (source : Docx.Source) (h : Sound U p) :
    ∃ hash, anchorHash U source p = .ok hash := by
  obtain ⟨hash, hhash⟩ := exists_canonicalSha256 Protocol.collision (h.ready source)
  exact ⟨hash, by rw [anchorHash, h.anchorFromText, ok_bind, hhash]⟩

/-- **Its block can be made.** -/
theorem Sound.cellBlock (h : Sound U p) (ordinal : ℕ) :
    Xlsx.cellBlock U source p.sheet p.cell p.row p.column p.text ordinal =
      .ok ⟨ordinal, p.text, anchorOf source p⟩ := by
  rw [Xlsx.cellBlock, h.anchorFromText, ok_bind, newBlock, check_bind_eq_ok]
  exact ⟨⟨h.text_ne_nil, h.text.normalized⟩, rfl⟩

end Placed

end Xlsx

end MeetingRag
