import MeetingRag.Library.Utf8
import MeetingRag.Sidecar.Adapter

/-!
# The sidecar and its adapter agree

Every envelope that the walk over a document can lead to is accepted, record by record. The places of
the records are distinct, so are their anchors, and so are the hashes of these unless SHA-256 collides
on them. Nothing on the way is a failure of the protocol.
-/

open Outcome Py Py.Json

namespace MeetingRag

namespace Sidecar

/-- The envelope of `DocumentExtractor.extract`. -/
def envelopeOf (expected : Expectation) (c : RecordCollector) : ExtractionEnvelope where
  sourceSha256 := expected.sourceSha256
  extractionProfileHash := expected.profileHash
  parserName := lit expected.mediaType.parser.1
  parserVersion := lit expected.mediaType.parser.2
  records := c.records
  warnings := c.warnings

def maxJsonBytes : ℕ := 1024 * 1024

/-- `ExtractionFailure.toJson`. -/
def failureText (failure : ExtractionFailure) : Str :=
  lit "\x7b\"error\":\x7b\"code\":" ++ quote (lit failure.code) ++ lit ",\"message\":" ++
    quote (lit failure.publicMessage) ++ lit ",\"retryable\":false\x7d,\"ok\":false\x7d"

/-- `emit`. -/
def emit (json : Str) : List UInt8 :=
  let bounded := if (encodeUtf8 json).length > maxJsonBytes then
      failureText ⟨"OUTPUT_LIMIT_EXCEEDED", "The sidecar JSON exceeds the approved output bound."⟩
    else json
  encodeUtf8 bounded ++ [10]

/-! ## The bytes -/

theorem encodeUtf8_append (s t : Str) : encodeUtf8 (s ++ t) = encodeUtf8 s ++ encodeUtf8 t :=
  List.flatMap_append

/-- The text is a pair of braces with something between them. -/
theorem exists_envelopeText (e : ExtractionEnvelope) :
    ∃ mid, encodeUtf8 (envelopeText e) = 123 :: mid ++ [125] := by
  have hfirst : lit "\x7b\"extraction_profile_hash\":" = [123] ++ lit "\"extraction_profile_hash\":" := by
    decide
  have hlast : lit "]\x7d" = lit "]" ++ [125] := by decide
  have hbytes : encodeUtf8 [123] = [123] ∧ encodeUtf8 [125] = [125] := by decide
  rw [envelopeText, hfirst, hlast]
  simp only [List.append_assoc, encodeUtf8_append, hbytes.1, hbytes.2]
  simp only [← List.append_assoc]
  exact ⟨_, congrArg (· ++ [125]) (by simp only [List.append_assoc]; rfl)⟩

theorem dropLineEnd_concat (bytes : List UInt8) (b : UInt8) (h : b ≠ 13) :
    dropLineEnd (bytes ++ [b] ++ [10]) = bytes ++ [b] := by
  have hcrlf : ¬[13, 10] <:+ bytes ++ [b] ++ [10] := by
    rintro ⟨front, hfront⟩
    have hsplit : front ++ [13] = bytes ++ [b] :=
      List.append_inj_left' (by rw [List.append_assoc]; exact hfront) rfl
    exact h (List.singleton_inj.mp (List.append_inj_right' hsplit rfl)).symm
  rw [dropLineEnd, if_neg hcrlf, if_pos (List.suffix_append _ _), List.length_append,
    List.length_singleton, Nat.add_sub_cancel]
  exact List.take_left' rfl

theorem stripBytes_braces (mid : List UInt8) : stripBytes (123 :: mid ++ [125]) = 123 :: mid ++ [125] := by
  have hfirst : ¬isByteSpace 123 = true := by decide
  have hlast : ¬isByteSpace 125 = true := by decide
  rw [stripBytes, List.cons_append, List.dropWhile_cons_of_neg hfirst, ← List.cons_append,
    List.rdropWhile_concat_neg _ _ _ hlast]

section Reading

variable {U : Nfc} {expected : Expectation} {sections : List (List BodyParagraph)}
  {c : RecordCollector} {limit : ℕ}

theorem scalar_of_isSha256 {s : Str} (h : IsSha256 s) : Scalar s :=
  scalar_of_lt fun d hd ↦ (printable_of_isSha256 h d hd).2

theorem sendable_envelopeOf (h : ∀ r ∈ c.records, SoundRecord U r) :
    (envelopeOf expected c).Sendable where
  places r hr := (h r hr).place
  texts r hr := (h r hr).scalar
  source := scalar_of_isSha256 expected.isSource
  profile := scalar_of_isSha256 expected.isProfile
  parser := ⟨scalar_lit _, scalar_lit _⟩

/-- **The adapter reads the fields that the sidecar wrote.** -/
theorem parseJsonObject_envelope {e : ExtractionEnvelope} (hlimit : 4 ≤ limit) (h : e.Sendable) :
    parseJsonObject limit (encodeUtf8 (envelopeText e) ++ [10]) = .ok (obj (envelopeFields e)) := by
  obtain ⟨mid, hmid⟩ := exists_envelopeText e
  have hline : dropLineEnd (encodeUtf8 (envelopeText e) ++ [10]) = encodeUtf8 (envelopeText e) := by
    rw [hmid]
    exact dropLineEnd_concat (123 :: mid) 125 (by decide)
  have hstrip : encodeUtf8 (envelopeText e) ≠ [] ∧
      encodeUtf8 (envelopeText e) = stripBytes (encodeUtf8 (envelopeText e)) := by
    rw [hmid, stripBytes_braces]
    exact ⟨List.cons_ne_nil _ _, rfl⟩
  have hloads : loadsUtf8 (strictHooks "duplicate JSON key" "non-finite JSON number") limit
      (encodeUtf8 (envelopeText e)) = .ok (.object (obj (envelopeFields e))) :=
    loadsUtf8_eq_ok.mpr ⟨_, decodeUtf8_encodeUtf8 (scalar_envelopeText h),
      loads_envelopeText (fun _ ↦ strictHooks_object) hlimit h⟩
  rw [parseJsonObject, hline, require_of hstrip, ok_bind, hloads]
  rfl

/-! ## The records -/

/-- The anchor of a record. -/
def anchorOf (expected : Expectation) (r : ExtractedRecord) : HwpParagraphAnchor where
  sourceSha256 := expected.sourceSha256
  extractionProfileHash := expected.profileHash
  parser := lit expected.mediaType.parser.1
  parserVersion := lit expected.mediaType.parser.2
  locator := r.locator
  textFingerprint := sha256Hex (encodeUtf8 r.text)

/-- The block of the record that was collected at some place of the list. -/
def blockOf (expected : Expectation) (r : ExtractedRecord × ℕ) : ExtractedBlock where
  ordinal := r.2
  text := r.1.text
  blockType := lit "hwp_" ++ lit r.1.kind.value
  anchor := anchorOf expected r.1

theorem textFingerprint_of_sound {r : ExtractedRecord} (h : SoundRecord U r) :
    textFingerprint U r.text = .ok (sha256Hex (encodeUtf8 r.text)) := by
  rw [textFingerprint, h.normalized, encode_of_scalar h.scalar, ok_bind]

/-- What is said of the names of the kinds. -/
theorem kind_texts (kind : RecordKind) :
    [RecordKind.paragraph, .tableCell, .footnote].find? (fun k ↦ lit k.value = lit kind.value) =
        some kind ∧
      lit "hwp_" ++ lit kind.value ≠ [] ∧ (lit "hwp_" ++ lit kind.value).length ≤ 64 := by
  cases kind <;> decide

theorem requireKind_value (kind : RecordKind) : requireKind (.str (lit kind.value)) = .ok kind := by
  rw [requireKind, (kind_texts kind).1]

theorem parseLocator_locatorFields (l : Locator) :
    parseLocator l.kind (.object (obj (locatorFields l))) = .ok l := by
  have hindex : ∀ n : ℕ, requireIndex (.int n) = .ok n := fun n ↦ by
    rw [requireIndex, if_pos (Int.natCast_nonneg n), Int.toNat_natCast]
  have hkeys : requireExactKeys ("paragraph" :: "section" :: pathNames l.kind)
      (obj (locatorFields l)) = .ok () := by
    refine require_of (exactKeys_obj ?_)
    obtain ⟨s, p, path⟩ := l
    cases path <;> rfl
  rw [parseLocator, requireMapping, ok_bind, hkeys, ok_bind]
  obtain ⟨s, p, path⟩ := l
  cases path with
  | body => simp [Locator.kind, locatorFields, pathFields, hindex]
  | table => simp [Locator.kind, locatorFields, pathFields, hindex]
  | footnote => simp [Locator.kind, locatorFields, pathFields, hindex]

theorem requireText_of_sound {r : ExtractedRecord} (h : SoundRecord U r) :
    requireText U defaultPolicy.maxBlockChars (.str r.text) = .ok r.text := by
  rw [requireText, require_of ⟨h.nonempty, h.bounded, h.normalized⟩, ok_bind]

theorem requireIdentifier_lit {label value : String} (hne : lit value ≠ [])
    (hbound : (lit value).length ≤ 128) (hprint : Printable (lit value)) :
    requireIdentifier U label (lit value) = .ok () :=
  check_eq_ok.mpr ⟨hne, hbound, U.normalizeText_ascii hprint⟩

/-- What is said of the pinned names. -/
theorem parser_texts (media : HwpMedia) : ∀ value ∈ [media.parser.1, media.parser.2, "nfc-lf-v1"],
    lit value ≠ [] ∧ (lit value).length ≤ 128 ∧ Printable (lit value) := by
  cases media <;> decide

theorem fromText_of_sound {r : ExtractedRecord} (h : SoundRecord U r) :
    HwpParagraphAnchor.fromText U expected.sourceSha256 expected.profileHash
      (lit expected.mediaType.parser.1) (lit expected.mediaType.parser.2) r.locator r.text =
        .ok (anchorOf expected r) := by
  obtain ⟨hname, hnameBound, hnamePrint⟩ := parser_texts expected.mediaType
    expected.mediaType.parser.1 List.mem_cons_self
  obtain ⟨hversion, hversionBound, hversionPrint⟩ := parser_texts expected.mediaType
    expected.mediaType.parser.2 (List.mem_cons_of_mem _ List.mem_cons_self)
  rw [HwpParagraphAnchor.fromText, h.normalized, check, require_of h.nonempty, ok_bind,
    textFingerprint_of_sound h, ok_bind, requireSha256, check, require_of expected.isSource, ok_bind,
    requireSha256, check, require_of expected.isProfile, ok_bind,
    requireIdentifier_lit hname hnameBound hnamePrint, ok_bind,
    requireIdentifier_lit hversion hversionBound hversionPrint, ok_bind, requireSha256, check,
    require_of (isSha256_sha256Hex _), ok_bind]
  rfl

/-- **One record is one block.** -/
theorem parseRecord_of_sound {r : ExtractedRecord} (h : SoundRecord U r)
    {blocks : List ExtractedBlock} {total : ℕ} (htotal : total + r.text.length ≤ maxTotalCodePoints) :
    parseRecord U defaultPolicy expected (blocks, total) (.object (obj (recordFields r))) =
      .ok (blocks ++ [blockOf expected (r, blocks.length)], total + r.text.length) := by
  have hkeys : requireExactKeys ["kind", "locator", "text", "text_fingerprint"]
      (obj (recordFields r)) = .ok () := require_of (exactKeys_obj rfl)
  have hkind : get (obj (recordFields r)) "kind" = .str (lit r.locator.kind.value) := by
    simp [recordFields, h.kind]
  have hlocator : get (obj (recordFields r)) "locator" = .object (obj (locatorFields r.locator)) := by
    simp [recordFields]
  have htext : get (obj (recordFields r)) "text" = .str r.text := by simp [recordFields]
  have hfingerprint : get (obj (recordFields r)) "text_fingerprint" =
      .str (sha256Hex (encodeUtf8 r.text)) := by simp [recordFields]
  have hblock : ExtractedBlock.make U blocks.length r.text (lit "hwp_" ++ lit r.locator.kind.value)
      (anchorOf expected r) = .ok (blockOf expected (r, blocks.length)) := by
    rw [ExtractedBlock.make, check, require_of ⟨h.nonempty, h.normalized⟩, ok_bind, check,
      require_of (kind_texts r.locator.kind).2, ok_bind, ← h.kind]
    rfl
  have hbound : total + r.text.length ≤ defaultPolicy.maxTotalChars := htotal
  rw [parseRecord, requireMapping, ok_bind, hkeys, ok_bind, hkind, requireKind_value, ok_bind, htext,
    requireText_of_sound h, ok_bind, require_of hbound, ok_bind, textFingerprint_of_sound h, raising,
    ok_bind, hfingerprint, require_of (eqStr_iff.mpr rfl), ok_bind, hlocator,
    parseLocator_locatorFields, ok_bind, fromText_of_sound h, raising, ok_bind,
    hblock, raising, ok_bind]

/-- **The records become the blocks**, counted from where the loop stands. -/
theorem foldlM_parseRecord {records : List ExtractedRecord}
    (h : ∀ r ∈ records, SoundRecord U r) {blocks : List ExtractedBlock} {total : ℕ}
    (htotal : total + (records.map (·.text.length)).sum ≤ maxTotalCodePoints) :
    (records.map fun r ↦ Json.object (obj (recordFields r))).foldlM
        (parseRecord U defaultPolicy expected) (blocks, total) =
      .ok (blocks ++ (records.zipIdx blocks.length).map (blockOf expected),
        total + (records.map (·.text.length)).sum) := by
  induction records generalizing blocks total with
  | nil => exact congrArg (fun bs ↦ Except.ok (bs, total)) (List.append_nil blocks).symm
  | cons r records ih =>
    obtain ⟨hr, hrecords⟩ := List.forall_mem_cons.mp h
    rw [List.map_cons, List.sum_cons, ← Nat.add_assoc] at htotal
    rw [List.map_cons, List.foldlM_cons,
      parseRecord_of_sound hr ((Nat.le_add_right _ _).trans htotal), ok_bind, ih hrecords htotal,
      List.zipIdx_cons, List.map_cons,
      List.length_append, List.length_singleton, List.map_cons, List.sum_cons, Nat.add_assoc,
      List.append_assoc]
    rfl

/-! ## The warnings -/

/-- The warning of a name that the sidecar sends along with records. -/
def warningOf (name : String) : ExtractionWarning where
  code := "PARTIAL_EXTRACTION"
  message :=
    if name = "UNSUPPORTED_ENDNOTE" then lit "HWP endnotes were not extracted by the pinned parser"
    else lit "unsupported nested HWP controls were skipped"

theorem make_warningOf (name : String) :
    ExtractionWarning.make U "PARTIAL_EXTRACTION" (warningOf name).message = .ok (warningOf name) := by
  have hmessage : (warningOf name).message ≠ [] ∧ (warningOf name).message.length ≤ 512 ∧
      Printable (warningOf name).message := by
    rw [warningOf]
    split
    · decide
    · decide
  obtain ⟨hne, hbound, hprint⟩ := hmessage
  have hline : (10 : CodePoint) ∉ (warningOf name).message :=
    fun hmem ↦ absurd (hprint 10 hmem).1 (by decide)
  rw [ExtractionWarning.make, U.normalizeText_ascii hprint, check,
    require_of ⟨hne, hbound, rfl, hline⟩, ok_bind]
  rfl

theorem parseWarning_name {name : String}
    (hname : name ∈ ["UNSUPPORTED_ENDNOTE", "NESTED_CONTROL_SKIPPED"])
    (blocks : List ExtractedBlock) (warnings : List ExtractionWarning) :
    parseWarning U blocks warnings (.str (lit name)) = .ok (warnings ++ [warningOf name]) := by
  have hmake := make_warningOf (U := U) name
  rw [parseWarning]
  rcases List.mem_cons.mp hname with rfl | hname
  · rw [if_neg (by decide), if_pos (by decide)]
    rw [warningOf, if_pos rfl] at hmake
    rw [hmake, raising, ok_bind, warningOf, if_pos rfl]
  · rw [List.mem_singleton.mp hname] at hmake ⊢
    rw [if_neg (by decide), if_neg (by decide), if_pos (by decide)]
    rw [warningOf, if_neg (by decide)] at hmake
    rw [hmake, raising, ok_bind, warningOf, if_neg (by decide)]

theorem foldlM_parseWarning {names : List String}
    (h : ∀ name ∈ names, name ∈ ["UNSUPPORTED_ENDNOTE", "NESTED_CONTROL_SKIPPED"])
    (blocks : List ExtractedBlock) (warnings : List ExtractionWarning) :
    (names.map fun w ↦ Json.str (lit w)).foldlM (parseWarning U blocks) warnings =
      .ok (warnings ++ names.map warningOf) := by
  induction names generalizing warnings with
  | nil => exact congrArg Except.ok (List.append_nil warnings).symm
  | cons name names ih =>
    obtain ⟨hname, hnames⟩ := List.forall_mem_cons.mp h
    rw [List.map_cons, List.foldlM_cons, parseWarning_name hname, ok_bind, ih hnames, List.map_cons,
      List.append_assoc]
    rfl

/-! ## The anchors -/

/-- A leaf that is its own canonical form. -/
def CanonicalLeaf (U : Nfc) (v : Json) : Prop := ReadyLeaf U v ∧ canonicalLeaf U v = v

theorem canonical_obj {fields : List (String × Json)} (hkeys : (fields.map Prod.fst).Nodup)
    (hprint : ∀ f ∈ fields, Printable (lit f.1))
    (h : ∀ f ∈ fields, Each (CanonicalLeaf U) PlainKeys f.2) :
    Each (CanonicalLeaf U) PlainKeys (.object (obj fields)) :=
  .obj hkeys hprint (fun _ hnodup hplain ↦ ⟨hnodup, hplain⟩) h

theorem canonical_str {s : Str} (h : Printable s) : Each (CanonicalLeaf U) PlainKeys (.str s) :=
  .leaf trivial ⟨readyLeaf_of_printable h, congrArg Json.str (normalizeText_of_printable h)⟩

theorem canonical_int {n : ℕ} (h : (decimalDigits n).length ≤ 4300) :
    Each (CanonicalLeaf U) PlainKeys (.int n) := .leaf trivial ⟨h, rfl⟩

theorem keys_tableDict (t b r k n : ℕ) : ((tableDict t b r k n).map Prod.fst).Nodup :=
  (by decide : (["index", "block", "row", "cell", "paragraph"] : List String).Nodup)

theorem keys_footnoteDict (f n : ℕ) : ((footnoteDict f n).map Prod.fst).Nodup :=
  (by decide : (["index", "paragraph"] : List String).Nodup)

theorem canonical_pathDict {path : LocatorPath}
    (h : ∀ i ∈ path.indexes, (decimalDigits i).length ≤ 4300) :
    ∀ f ∈ pathDict path, Printable (lit f.1) ∧ Each (CanonicalLeaf U) PlainKeys f.2 := by
  have hint : ∀ i ∈ path.indexes, Each (CanonicalLeaf U) PlainKeys (.int (i : ℕ)) :=
    fun i hi ↦ canonical_int (h i hi)
  cases path with
  | body => exact List.forall_mem_nil _
  | table t b r k n =>
    simp only [LocatorPath.indexes, List.forall_mem_cons] at hint
    obtain ⟨ht, hb, hr, hk, hn, -⟩ := hint
    rintro _ (_ | ⟨_, ⟨⟩⟩)
    refine ⟨(by decide : Printable (lit "table")), canonical_obj (keys_tableDict t b r k n) ?_ ?_⟩
    · simp only [tableDict, List.forall_mem_cons]
      exact ⟨by decide, by decide, by decide, by decide, by decide, List.forall_mem_nil _⟩
    · simp only [tableDict, List.forall_mem_cons]
      exact ⟨ht, hb, hr, hk, hn, List.forall_mem_nil _⟩
  | footnote f n =>
    simp only [LocatorPath.indexes, List.forall_mem_cons] at hint
    obtain ⟨hf, hn, -⟩ := hint
    rintro _ (_ | ⟨_, ⟨⟩⟩)
    refine ⟨(by decide : Printable (lit "footnote")), canonical_obj (keys_footnoteDict f n) ?_ ?_⟩
    · simp only [footnoteDict, List.forall_mem_cons]
      exact ⟨by decide, by decide, List.forall_mem_nil _⟩
    · simp only [footnoteDict, List.forall_mem_cons]
      exact ⟨hf, hn, List.forall_mem_nil _⟩

theorem keys_locatorDict (a : HwpParagraphAnchor) : (a.locatorDict.map Prod.fst).Nodup := by
  obtain ⟨source, profile, parser, version, ⟨s, p, path⟩, fingerprint⟩ := a
  cases path with
  | body =>
    exact (by decide : (["parser", "parser_version", "section", "paragraph"] : List String).Nodup)
  | table =>
    exact (by decide :
      (["parser", "parser_version", "section", "paragraph", "table"] : List String).Nodup)
  | footnote =>
    exact (by decide :
      (["parser", "parser_version", "section", "paragraph", "footnote"] : List String).Nodup)

theorem canonical_locatorDict {r : ExtractedRecord} (h : SoundRecord U r) :
    Each (CanonicalLeaf U) PlainKeys (.object (obj (anchorOf expected r).locatorDict)) := by
  have hdigits : ∀ i ∈ r.locator.indexes, (decimalDigits i).length ≤ 4300 :=
    fun i hi ↦ digits_of_constructible h.place hi
  have hparser := (parser_texts expected.mediaType _ List.mem_cons_self).2.2
  have hversion := (parser_texts expected.mediaType _
    (List.mem_cons_of_mem _ List.mem_cons_self)).2.2
  have hpath := canonical_pathDict (U := U) fun i hi ↦ hdigits i
    (List.mem_cons_of_mem _ (List.mem_cons_of_mem _ hi))
  refine canonical_obj (keys_locatorDict _) ?_ ?_
  · simp only [HwpParagraphAnchor.locatorDict, List.forall_mem_cons]
    exact ⟨by decide, by decide, by decide, by decide, fun f hf ↦ (hpath f hf).1⟩
  · simp only [HwpParagraphAnchor.locatorDict, List.forall_mem_cons]
    exact ⟨canonical_str hparser, canonical_str hversion,
      canonical_int (hdigits _ List.mem_cons_self),
      canonical_int (hdigits _ (List.mem_cons_of_mem _ List.mem_cons_self)),
      fun f hf ↦ (hpath f hf).2⟩

theorem keys_fields (a : HwpParagraphAnchor) : (a.fields.map Prod.fst).Nodup :=
  (by decide : (["schema_version", "kind", "source_sha256", "extraction_profile_hash", "locator",
    "text_fingerprint"] : List String).Nodup)

/-- **The dict of an anchor is canonical**, up to the order of its keys. -/
theorem canonical_toDict {r : ExtractedRecord} (h : SoundRecord U r) :
    Each (CanonicalLeaf U) PlainKeys (anchorOf expected r).toDict := by
  refine canonical_obj (keys_fields _) ?_ ?_
  · simp only [HwpParagraphAnchor.fields, List.forall_mem_cons]
    exact ⟨by decide, by decide, by decide, by decide, by decide, by decide, nofun⟩
  · simp only [HwpParagraphAnchor.fields, List.forall_mem_cons]
    exact ⟨canonical_int (n := 1) (by decide), canonical_str (by decide),
      canonical_str (printable_of_isSha256 expected.isSource),
      canonical_str (printable_of_isSha256 expected.isProfile), canonical_locatorDict h,
      canonical_str (printable_of_isSha256 (isSha256_sha256Hex _)), nofun⟩

theorem within_toDict (a : HwpParagraphAnchor) : Within 3 a.toDict := by
  have hpath : ∀ f ∈ pathDict a.locator.path, Within 1 f.2 := by
    obtain ⟨source, profile, parser, version, ⟨s, p, path⟩, fingerprint⟩ := a
    have hleaf : ∀ fields : List (String × Json), (∀ f ∈ fields, IsLeaf f.2) →
        Within 1 (.object (obj fields)) :=
      fun fields h ↦ .object (List.forall_mem_map.mpr fun f hf ↦ .leaf (h f hf))
    cases path with
    | body => exact List.forall_mem_nil _
    | table =>
      rintro _ (_ | ⟨_, ⟨⟩⟩)
      exact hleaf _ (by simp [tableDict, IsLeaf])
    | footnote =>
      rintro _ (_ | ⟨_, ⟨⟩⟩)
      exact hleaf _ (by simp [footnoteDict, IsLeaf])
  refine .object (List.forall_mem_map.mpr ?_)
  simp only [HwpParagraphAnchor.fields, List.forall_mem_cons]
  refine ⟨.leaf trivial, .leaf trivial, .leaf trivial, .leaf trivial,
    .object (List.forall_mem_map.mpr ?_), .leaf trivial, List.forall_mem_nil _⟩
  simp only [HwpParagraphAnchor.locatorDict, List.forall_mem_cons]
  exact ⟨.leaf trivial, .leaf trivial, .leaf trivial, .leaf trivial, hpath⟩

/-- `canonical_json` of the dict of an anchor. -/
def anchorText (U : Nfc) (a : HwpParagraphAnchor) : Str :=
  match canonicalJson U keyCollision a.toDict with
  | .ok text => text
  | .error _ => []

/-- **The text of an anchor is read back as its dict.** -/
theorem anchorText_spec {r : ExtractedRecord} (h : SoundRecord U r) :
    (anchorOf expected r).anchorHash U =
        .ok (sha256Hex (encodeUtf8 (anchorText U (anchorOf expected r)))) ∧
      loads (strictHooks "" "") 3 (anchorText U (anchorOf expected r)) =
        .ok (sortKeys (anchorOf expected r).toDict) := by
  have hready : Ready U (anchorOf expected r).toDict :=
    (canonical_toDict h).imp (fun _ hleaf ↦ hleaf.1) fun _ hkeys ↦ hkeys
  have hself : canonical U (anchorOf expected r).toDict = (anchorOf expected r).toDict :=
    mapLeaves_eq_self ((canonical_toDict h).imp (fun _ hleaf ↦ hleaf.2) fun _ hkeys ↦ hkeys)
  obtain ⟨text, htext, -, hscalar⟩ := exists_canonicalJson keyCollision hready
  have hanchorText : anchorText U (anchorOf expected r) = text := by rw [anchorText, htext]
  have hdepth : Within 3 (canonical U (anchorOf expected r).toDict) := by
    rw [hself]
    exact within_toDict _
  have hloads : loads (strictHooks "" "") 3 text =
      .ok (sortKeys (canonical U (anchorOf expected r).toDict)) :=
    loads_canonicalJson (fun _ ↦ strictHooks_object) hready hdepth htext
  rw [hanchorText, HwpParagraphAnchor.anchorHash, canonicalSha256, htext, ok_bind,
    encode_of_scalar hscalar, ok_bind]
  exact ⟨rfl, by rw [hloads, hself]⟩

theorem get_eq_of_sortKeys {fields fields' : List (String × Json)}
    (hkeys : (fields.map Prod.fst).Nodup) (hkeys' : (fields'.map Prod.fst).Nodup)
    (h : sortKeys (.object (obj fields)) = sortKeys (.object (obj fields'))) (name : String) :
    sortKeys (get (obj fields) name) = sortKeys (get (obj fields') name) := by
  rw [sortKeys_object, sortKeys_object] at h
  have hnodup : ((obj fields).map Prod.fst).Nodup := by
    rw [keys_obj]
    exact hkeys.map lit_injective
  have hnodup' : ((obj fields').map Prod.fst).Nodup := by
    rw [keys_obj]
    exact hkeys'.map lit_injective
  rw [← get_sorted hnodup, ← get_sorted hnodup', Json.object.inj h]

theorem get_locatorDict (a : HwpParagraphAnchor) :
    get (obj a.locatorDict) "section" = .int a.locator.sectionIndex ∧
      get (obj a.locatorDict) "paragraph" = .int a.locator.paragraph ∧
      get (obj a.locatorDict) "table" = get (obj (pathDict a.locator.path)) "table" ∧
      get (obj a.locatorDict) "footnote" = get (obj (pathDict a.locator.path)) "footnote" := by
  simp [HwpParagraphAnchor.locatorDict]

/-- The fields of a path tell it apart. -/
theorem path_of_sortKeys {path path' : LocatorPath}
    (htable : sortKeys (get (obj (pathDict path)) "table") =
      sortKeys (get (obj (pathDict path')) "table"))
    (hfootnote : sortKeys (get (obj (pathDict path)) "footnote") =
      sortKeys (get (obj (pathDict path')) "footnote")) : path = path' := by
  cases path with
  | body =>
    cases path' with
    | body => rfl
    | table => simp [pathDict, sortKeys] at htable
    | footnote => simp [pathDict, sortKeys] at hfootnote
  | table t b r k n =>
    cases path' with
    | table t' b' r' k' n' =>
      simp only [pathDict, get_obj_cons, if_true] at htable
      have hfield := get_eq_of_sortKeys (keys_tableDict t b r k n) (keys_tableDict t' b' r' k' n')
        htable
      have hindex := hfield "index"
      have hblock := hfield "block"
      have hrow := hfield "row"
      have hcell := hfield "cell"
      have hparagraph := hfield "paragraph"
      simp [tableDict, sortKeys] at hindex hblock hrow hcell hparagraph
      rw [hindex, hblock, hrow, hcell, hparagraph]
    | _ => simp [pathDict, sortKeys] at htable
  | footnote f n =>
    cases path' with
    | footnote f' n' =>
      simp only [pathDict, get_obj_cons, if_true] at hfootnote
      have hfield := get_eq_of_sortKeys (keys_footnoteDict f n) (keys_footnoteDict f' n') hfootnote
      have hindex := hfield "index"
      have hparagraph := hfield "paragraph"
      simp [footnoteDict, sortKeys] at hindex hparagraph
      rw [hindex, hparagraph]
    | _ => simp [pathDict, sortKeys] at hfootnote

/-- **Dicts of anchors tell their places apart.** -/
theorem locator_of_sortKeys {a b : HwpParagraphAnchor} (h : sortKeys a.toDict = sortKeys b.toDict) :
    a.locator = b.locator := by
  have hget : ∀ c : HwpParagraphAnchor, get (obj c.fields) "locator" = .object (obj c.locatorDict) :=
    fun c ↦ by simp [HwpParagraphAnchor.fields]
  have hlocator := get_eq_of_sortKeys (keys_fields a) (keys_fields b) h "locator"
  rw [hget, hget] at hlocator
  have hfield := get_eq_of_sortKeys (keys_locatorDict a) (keys_locatorDict b) hlocator
  obtain ⟨hsection, hparagraph, htable, hfootnote⟩ := get_locatorDict a
  obtain ⟨hsection', hparagraph', htable', hfootnote'⟩ := get_locatorDict b
  have hs := hfield "section"
  have hp := hfield "paragraph"
  have ht := hfield "table"
  have hf := hfield "footnote"
  rw [hsection, hsection'] at hs
  rw [hparagraph, hparagraph'] at hp
  rw [htable, htable'] at ht
  rw [hfootnote, hfootnote'] at hf
  have hsectionIndex : a.locator.sectionIndex = b.locator.sectionIndex := by
    simpa [sortKeys] using hs
  have hparagraphIndex : a.locator.paragraph = b.locator.paragraph := by
    simpa [sortKeys] using hp
  have hpath := path_of_sortKeys ht hf
  calc a.locator = ⟨a.locator.sectionIndex, a.locator.paragraph, a.locator.path⟩ := rfl
    _ = ⟨b.locator.sectionIndex, b.locator.paragraph, b.locator.path⟩ := by
      rw [hsectionIndex, hparagraphIndex, hpath]
    _ = b.locator := rfl

/-! ## The result -/

/-- SHA-256 does not collide on the anchors of a document. -/
def NoCollision (U : Nfc) (expected : Expectation) (c : RecordCollector) : Prop :=
  ∀ r ∈ c.records, ∀ r' ∈ c.records,
    sha256Hex (encodeUtf8 (anchorText U (anchorOf expected r))) =
        sha256Hex (encodeUtf8 (anchorText U (anchorOf expected r'))) →
      anchorText U (anchorOf expected r) = anchorText U (anchorOf expected r')

/-- The result that the records and the warnings of a collector stand for. -/
def resultOf (expected : Expectation) (c : RecordCollector) : ExtractionResult where
  sourceSha256 := expected.sourceSha256
  mediaType := expected.mediaType
  parserName := lit expected.mediaType.parser.1
  parserVersion := lit expected.mediaType.parser.2
  normalizationProfile := lit "nfc-lf-v1"
  configProfileHash := expected.profileHash
  blocks := c.records.zipIdx.map (blockOf expected)
  warnings := c.warnings.map warningOf

/-- The records in their blocks, in order. -/
theorem map_blocks {β : Type} (f : ExtractedBlock → β) (g : ExtractedRecord → β)
    (h : ∀ r n, f (blockOf expected (r, n)) = g r) :
    (resultOf expected c).blocks.map f = c.records.map g := by
  have hcomp : f ∘ blockOf expected = g ∘ Prod.fst := funext fun p ↦ h p.1 p.2
  rw [resultOf, List.map_map, hcomp, ← List.map_map, List.zipIdx_map_fst]

theorem ordinals_resultOf : (resultOf expected c).blocks.map (·.ordinal) =
    List.range (resultOf expected c).blocks.length := by
  have hordinal : (fun b : ExtractedBlock ↦ b.ordinal) ∘ blockOf expected = Prod.snd := rfl
  rw [resultOf, List.map_map, hordinal, List.length_map, List.length_zipIdx, List.zipIdx_map_snd,
    List.range_eq_range']

theorem blockHash_blockOf {r : ExtractedRecord} (h : SoundRecord U r) (n : ℕ) :
    (resultOf expected c).blockHash U (blockOf expected (r, n)) =
      .ok (sha256Hex (encodeUtf8 (anchorText U (anchorOf expected r)))) := by
  have hsource : (blockOf expected (r, n)).anchor.sourceSha256 =
      (resultOf expected c).sourceSha256 := rfl
  have hprofile : (blockOf expected (r, n)).anchor.extractionProfileHash =
      (resultOf expected c).configProfileHash := rfl
  have hfingerprint : textFingerprint U (blockOf expected (r, n)).text =
      .ok (blockOf expected (r, n)).anchor.textFingerprint := textFingerprint_of_sound h
  rw [ExtractionResult.blockHash, check, require_of hsource, ok_bind, check, require_of hprofile,
    ok_bind, hfingerprint, ok_bind, check, require_of rfl, ok_bind]
  exact (anchorText_spec h).1

/-- The hashes of the anchors of the records. -/
def anchorHashes (U : Nfc) (expected : Expectation) (c : RecordCollector) : List Str :=
  c.records.map fun r ↦ sha256Hex (encodeUtf8 (anchorText U (anchorOf expected r)))

/-- The last check of the result: the hashes are compared in place of the anchors. -/
def checkAnchors (U : Nfc) (expected : Expectation) (c : RecordCollector) :
    Except Exc ExtractionResult := do
  check (anchorHashes U expected c).Nodup "successful extraction contains duplicate anchors"
  .ok (resultOf expected c)

/-- Distinct places have distinct hashes. -/
theorem nodup_anchorHashes (h : ∀ r ∈ c.records, SoundRecord U r)
    (hplaces : (c.records.map (·.locator)).Nodup) (hsha : NoCollision U expected c) :
    (anchorHashes U expected c).Nodup := by
  refine List.Nodup.map_on (fun r hr r' hr' heq ↦ ?_) (List.Nodup.of_map _ hplaces)
  have htext := hsha r hr r' hr' heq
  obtain ⟨-, hread⟩ : (anchorOf expected r).anchorHash U = _ ∧ _ := anchorText_spec (h r hr)
  obtain ⟨-, hread'⟩ : (anchorOf expected r').anchorHash U = _ ∧ _ := anchorText_spec (h r' hr')
  rw [htext, hread'] at hread
  have hlocator : (anchorOf expected r').locator = (anchorOf expected r).locator :=
    locator_of_sortKeys (Except.ok.inj hread)
  exact List.inj_on_of_nodup_map hplaces hr hr' hlocator.symm

theorem validate_resultOf (h : ∀ r ∈ c.records, SoundRecord U r) (hne : c.records ≠ []) :
    ExtractionResult.validate U (resultOf expected c) = checkAnchors U expected c := by
  have hblocks : (resultOf expected c).blocks ≠ [] := by
    rw [resultOf, ne_eq, List.map_eq_nil_iff, List.zipIdx_eq_nil_iff]
    exact hne
  have hhashes : (resultOf expected c).blocks.mapM ((resultOf expected c).blockHash U) =
      .ok (anchorHashes U expected c) := by
    rw [mapM_eq_ok, resultOf, List.forall₂_map_left_iff]
    have hfst : c.records = c.records.zipIdx.map Prod.fst := (List.zipIdx_map_fst 0 _).symm
    rw [anchorHashes, hfst, List.map_map, List.forall₂_map_right_iff, ← hfst, List.forall₂_same]
    exact fun p hp ↦ blockHash_blockOf (h p.1 (List.fst_mem_of_mem_zipIdx hp)) p.2
  have hlabels : [("parser_name", (resultOf expected c).parserName),
      ("parser_version", (resultOf expected c).parserVersion),
      ("normalization_profile", (resultOf expected c).normalizationProfile)].forM (fun label ↦
        check (label.2 ≠ [] ∧ label.2.length ≤ 128 ∧ U.normalizeText label.2 = label.2)
          (label.1 ++ " must be normalized text up to 128 characters")) = .ok () := by
    have hlabel : ∀ value ∈ [expected.mediaType.parser.1, expected.mediaType.parser.2, "nfc-lf-v1"],
        lit value ≠ [] ∧ (lit value).length ≤ 128 ∧ U.normalizeText (lit value) = lit value :=
      fun value hvalue ↦ (parser_texts expected.mediaType value hvalue).imp_right
        (And.imp_right U.normalizeText_ascii)
    obtain ⟨hname, hversion, hnormalization, -⟩ := by
      simpa only [List.forall_mem_cons] using hlabel
    refine forM_eq_ok.mpr ?_
    simp only [List.forall_mem_cons]
    exact ⟨check_eq_ok.mpr hname, check_eq_ok.mpr hversion, check_eq_ok.mpr hnormalization, nofun⟩
  have hsource : IsSha256 (resultOf expected c).sourceSha256 := expected.isSource
  have hprofile : IsSha256 (resultOf expected c).configProfileHash := expected.isProfile
  rw [ExtractionResult.validate, check, require_of hsource, ok_bind, check, require_of hprofile,
    ok_bind, hlabels, ok_bind, check, require_of hblocks, ok_bind, check,
    require_of ordinals_resultOf, ok_bind, hhashes, ok_bind]
  rfl

/-- **The head of the payload is what is expected.** -/
theorem parseHead_envelope :
    parseHead expected (obj (envelopeFields (envelopeOf expected c))) = .ok () := by
  have hkeys : requireExactKeys ["extraction_profile_hash", "ok", "parser", "records",
      "schema_version", "source_sha256", "warnings"]
      (obj (envelopeFields (envelopeOf expected c))) = .ok () := require_of (exactKeys_obj rfl)
  have hparser : requireExactKeys ["name", "version"] (obj [("name",
      Json.str (lit expected.mediaType.parser.1)), ("version",
      .str (lit expected.mediaType.parser.2))]) = .ok () := require_of (exactKeys_obj rfl)
  rw [parseHead, hkeys, ok_bind]
  simp only [envelopeFields, envelopeOf, get_obj_cons, String.reduceEq, if_false, if_true]
  rw [require_of (eqStr_iff.mpr rfl), ok_bind, require_of (eqStr_iff.mpr rfl), ok_bind,
    require_of (eqStr_iff.mpr rfl), ok_bind, requireMapping, ok_bind, hparser, ok_bind]
  simp only [get_obj_cons, String.reduceEq, if_false, if_true]
  exact require_of ⟨eqStr_iff.mpr rfl, eqStr_iff.mpr rfl⟩

/-! ## The output as a whole -/

/-- The warnings of a document: at most two, and the last one where nothing was collected. -/
theorem foldlM_parseWarning_envelope {names : List String} {records : List ExtractedRecord}
    (h : ∀ name ∈ names, name ∈ ["UNSUPPORTED_ENDNOTE", "NESTED_CONTROL_SKIPPED"]) :
    (((if records = [] then names ++ ["NO_EXTRACTABLE_TEXT"] else names).map fun w ↦
        Json.str (lit w)).foldlM (parseWarning U (records.zipIdx.map (blockOf expected))) []) =
      .ok (names.map warningOf) := by
  split
  · next hnil =>
    rw [hnil, List.map_append, List.foldlM_append, foldlM_parseWarning h]
    rfl
  · exact foldlM_parseWarning h _ []

/-- What `collect` leaves: the records and the warnings of the walk, and one warning more where there are
no records. -/
theorem exists_of_collect (h : collect U sections = .ok c) : ∃ names : List String,
    Collected U (documentCalls sections) ⟨c.records, names, c.totalCodePoints⟩ ∧
      c.warnings = if c.records = [] then names ++ ["NO_EXTRACTABLE_TEXT"] else names := by
  obtain ⟨c₀, hwalk, hend⟩ := bind_eq_ok.mp h
  have hcollected := collected_foldlM (fun _ ↦ sound_documentCalls) hwalk
  have hname : isWarningName "NO_EXTRACTABLE_TEXT" = true := by decide
  have hnew : "NO_EXTRACTABLE_TEXT" ∉ c₀.warnings := fun hmem ↦
    absurd (hcollected.warnings _ hmem) (by decide)
  rw [← Except.ok.inj hend]
  by_cases hnil : c₀.records = []
  · refine ⟨c₀.warnings, ?_⟩
    rw [if_pos hnil, RecordCollector.warn, if_pos ⟨hname, hnew⟩, if_pos hnil]
    exact ⟨hcollected, rfl⟩
  · refine ⟨c₀.warnings, ?_⟩
    rw [if_neg hnil, if_neg hnil]
    exact ⟨hcollected, rfl⟩

theorem length_warnings {calls : List CollectorCall} {records : List ExtractedRecord}
    {names : List String} {total : ℕ} (h : Collected U calls ⟨records, names, total⟩) :
    (if records = [] then names ++ ["NO_EXTRACTABLE_TEXT"] else names).length ≤ 128 := by
  have hnames : names.length ≤ 2 := (h.distinct.subperm h.warnings).length_le
  split
  · rw [List.length_append, List.length_singleton]
    omega
  · omega

/-- **What the adapter makes of the envelope**: the last check alone can refuse it. -/
theorem parseSuccess_envelope (h : collect U sections = .ok c) :
    parseSuccess U defaultPolicy expected (obj (envelopeFields (envelopeOf expected c))) =
      if c.records = [] then
        .error (.extraction "NO_EXTRACTABLE_TEXT" "HWP document contains no extractable text")
      else raising (checkAnchors U expected c) := by
  obtain ⟨names, hcollected, hwarnings⟩ := exists_of_collect h
  have hrecords : requireArray defaultPolicy.maxBlocks
      (get (obj (envelopeFields (envelopeOf expected c))) "records") =
        .ok (c.records.map fun r ↦ .object (obj (recordFields r))) := by
    have hget : get (obj (envelopeFields (envelopeOf expected c))) "records" =
        .array (c.records.map fun r ↦ .object (obj (recordFields r))) := by
      simp [envelopeFields, envelopeOf]
    have hcount : (c.records.map fun r ↦ Json.object (obj (recordFields r))).length ≤
        defaultPolicy.maxBlocks := by
      rw [List.length_map]
      exact hcollected.count
    rw [hget, requireArray, require_of hcount, ok_bind]
  have hnames : requireArray 128 (get (obj (envelopeFields (envelopeOf expected c))) "warnings") =
      .ok ((if c.records = [] then names ++ ["NO_EXTRACTABLE_TEXT"] else names).map fun w ↦
        .str (lit w)) := by
    have hget : get (obj (envelopeFields (envelopeOf expected c))) "warnings" =
        .array (c.warnings.map fun w ↦ .str (lit w)) := by
      simp [envelopeFields, envelopeOf]
    have hcount : ((if c.records = [] then names ++ ["NO_EXTRACTABLE_TEXT"] else names).map fun w ↦
        Json.str (lit w)).length ≤ 128 := by
      rw [List.length_map]
      exact length_warnings hcollected
    rw [hget, hwarnings, requireArray, require_of hcount, ok_bind]
  have htotal : 0 + (c.records.map (·.text.length)).sum ≤ maxTotalCodePoints := by
    rw [Nat.zero_add, ← hcollected.total]
    exact hcollected.bounded
  rw [parseSuccess, parseHead_envelope, ok_bind, hrecords, ok_bind,
    foldlM_parseRecord hcollected.records htotal, ok_bind]
  simp only [List.nil_append, List.length_nil]
  rw [hnames, ok_bind, foldlM_parseWarning_envelope hcollected.warnings, ok_bind]
  split
  · next hnil =>
    rw [hnil]
    rfl
  · next hne =>
    have hblocks : c.records.zipIdx.map (blockOf expected) ≠ [] := by
      rw [ne_eq, List.map_eq_nil_iff, List.zipIdx_eq_nil_iff]
      exact hne
    rw [if_neg hne] at hwarnings
    rw [require_of hblocks, ok_bind, ← hwarnings]
    exact congrArg raising (validate_resultOf hcollected.records hne)

/-- **The bytes of a document that fits, as the adapter reads them.** -/
theorem readOutput_emit (hlimit : 4 ≤ limit) (h : collect U sections = .ok c)
    (hsize : (encodeUtf8 (envelopeText (envelopeOf expected c))).length ≤ maxJsonBytes) :
    readOutput U defaultPolicy expected limit (emit (envelopeText (envelopeOf expected c))) =
      if c.records = [] then
        .error (.extraction "NO_EXTRACTABLE_TEXT" "HWP document contains no extractable text")
      else raising (checkAnchors U expected c) := by
  obtain ⟨names, hcollected, -⟩ := exists_of_collect h
  have hemit : emit (envelopeText (envelopeOf expected c)) =
      encodeUtf8 (envelopeText (envelopeOf expected c)) ++ [10] := by
    rw [emit, if_neg (Nat.not_lt.mpr hsize)]
  have hok : get (obj (envelopeFields (envelopeOf expected c))) "ok" = .bool true := by
    simp [envelopeFields]
  have hsendable : (envelopeOf expected c).Sendable := sendable_envelopeOf hcollected.records
  rw [hemit, readOutput, parseJsonObject_envelope hlimit hsendable, ok_bind, hok]
  exact parseSuccess_envelope h

theorem raising_ne_extraction {α : Type} (x : Except Exc α) (code message : String) :
    raising x ≠ .error (.extraction code message) := by
  cases x with
  | ok => nofun
  | error => nofun

end Reading

/-- **The sidecar and the adapter agree.** For every document whose envelope fits, the adapter never
finds the protocol broken, and misses text exactly where nothing was collected; else the blocks are the
records in their order, counted from zero, at anchors that are distinct and are compared by their
SHA-256. -/
theorem sidecar_agrees {U : Nfc} {expected : Expectation} {content : DocumentContent}
    {c : RecordCollector} {limit : ℕ} (hlimit : 4 ≤ limit) (h : collect U content.body = .ok c)
    (hsize : (encodeUtf8 (envelopeText (envelopeOf expected c))).length ≤ maxJsonBytes) :
    let outcome := readOutput U defaultPolicy expected limit
      (emit (envelopeText (envelopeOf expected c)))
    outcome ≠ .error protocolFailure ∧
      (outcome = .error (.extraction "NO_EXTRACTABLE_TEXT"
        "HWP document contains no extractable text") ↔ c.records = []) ∧
      (c.records ≠ [] → NoCollision U expected c → ∃ result, outcome = .ok result ∧
        result.blocks.map (fun b ↦ (b.text, b.blockType, b.anchor.locator)) =
          c.records.map (fun r ↦ (r.text, lit "hwp_" ++ lit r.kind.value, r.locator)) ∧
        result.blocks.map (·.ordinal) = List.range result.blocks.length ∧
        (result.blocks.map (·.anchor)).Nodup) := by
  intro outcome
  have houtcome : outcome = _ := readOutput_emit hlimit h hsize
  obtain ⟨names, hcollected, -⟩ := exists_of_collect h
  have hsound : ∀ r ∈ c.records, SoundRecord U r := hcollected.records
  have hplaces := nodup_locators hcollected
  by_cases hnil : c.records = []
  · rw [houtcome, if_pos hnil]
    have hcode : "NO_EXTRACTABLE_TEXT" ≠ "INTERNAL_ERROR" := by decide
    exact ⟨fun heq ↦ hcode (AdapterError.extraction.inj (Except.error.inj heq)).1,
      iff_of_true rfl hnil, fun hne ↦ absurd hnil hne⟩
  rw [houtcome, if_neg hnil]
  refine ⟨raising_ne_extraction _ _ _, iff_of_false (raising_ne_extraction _ _ _) hnil,
    fun _ hsha ↦ ⟨resultOf expected c, ?_, map_blocks _ _ fun r n ↦ rfl, ordinals_resultOf, ?_⟩⟩
  · rw [checkAnchors, check, require_of (nodup_anchorHashes hsound hplaces hsha), ok_bind]
    rfl
  · refine List.Nodup.of_map (·.locator) ?_
    rw [List.map_map, map_blocks _ (·.locator) fun _ _ ↦ rfl]
    exact hplaces

/-! ### A document -/

def zeroExpectation : Expectation where
  sourceSha256 := List.replicate 64 48
  profileHash := List.replicate 64 48
  mediaType := .hwp
  isSource := by decide
  isProfile := by decide

/-- A paragraph that is blank itself, with a footnote and an endnote. -/
def oneFootnote : DocumentContent :=
  .hwp [[⟨some (lit " "), some [.footnote [⟨some (lit "A"), false⟩], .endnote]⟩]]

def oneRecord : RecordCollector where
  records := [⟨.footnote, lit "A", ⟨0, 0, .footnote 0 0⟩⟩]
  warnings := ["UNSUPPORTED_ENDNOTE"]
  totalCodePoints := 1

theorem sidecar_agrees_oneFootnote : ∃ result,
    readOutput .ascii defaultPolicy zeroExpectation 4
        (emit (envelopeText (envelopeOf zeroExpectation oneRecord))) = .ok result ∧
      result.blocks.map (fun b ↦ (b.text, b.blockType, b.anchor.locator)) =
        [(lit "A", lit "hwp_footnote", ⟨0, 0, .footnote 0 0⟩)] ∧
      result.blocks.map (·.ordinal) = [0] := by
  have hcollect : collect .ascii oneFootnote.body = .ok oneRecord := by decide
  have hsize : (encodeUtf8 (envelopeText (envelopeOf zeroExpectation oneRecord))).length ≤
      maxJsonBytes := by decide +kernel
  have hsha : NoCollision .ascii zeroExpectation oneRecord := fun r hr r' hr' _ ↦ by
    rw [List.mem_singleton.mp hr, List.mem_singleton.mp hr']
  obtain ⟨-, -, haccepted⟩ := sidecar_agrees (le_refl 4) hcollect hsize
  obtain ⟨result, hresult, hblocks, hordinals, -⟩ := haccepted (List.cons_ne_nil _ _) hsha
  have hlength : result.blocks.length = 1 := by
    rw [← List.length_map, hblocks]
    rfl
  refine ⟨result, hresult, hblocks.trans ?_, hordinals.trans ?_⟩
  · decide
  · rw [hlength]
    rfl

end Sidecar

end MeetingRag
