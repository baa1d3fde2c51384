import MeetingRag.Library.JsonRoundTrip
import MeetingRag.Sidecar.Collector

/-!
# The envelope of the HWP sidecar

The sidecar puts its JSON together by hand. What it writes is the text of one value, with the keys in
the order it writes them (`writes_envelope`), so `json.loads` reads that value back
(`loads_envelopeText`).
-/

open Outcome Py Py.Json

namespace MeetingRag

namespace Sidecar

/-! ## The writer -/

/-- `%04x`. -/
def hexUnit (n : ℕ) : Str := [n / 4096 % 16, n / 256 % 16, n / 16 % 16, n % 16].map hexChar

/-- The `switch` of `quote`. -/
def quoteChar (c : CodePoint) : Str :=
  if c = codePoint '"' then lit "\\\""
  else if c = codePoint '\\' then lit "\\\\"
  else if c = 8 then lit "\\b"
  else if c = 12 then lit "\\f"
  else if c = codePoint '\n' then lit "\\n"
  else if c = codePoint '\r' then lit "\\r"
  else if c = codePoint '\t' then lit "\\t"
  else if c.val < 0x20 then lit "\\u" ++ hexUnit c.val
  else [c]

def quote (value : Str) : Str := lit "\"" ++ value.flatMap quoteChar ++ lit "\""

/-- An `int` that is not negative. -/
def intText (n : ℕ) : Str := (decimalDigits n).map digitChar

/-- A loop that writes a comma before every entry but the first. -/
def commaSeparated : List Str → Str
  | [] => []
  | [s] => s
  | s :: t :: rest => s ++ lit "," ++ commaSeparated (t :: rest)

def pathText : LocatorPath → Str
  | .body => []
  | .table table tableBlock tableRow cell cellParagraph =>
    lit ",\"cell\":" ++ intText cell ++ lit ",\"cell_paragraph\":" ++ intText cellParagraph ++
      lit ",\"table\":" ++ intText table ++ lit ",\"table_block\":" ++ intText tableBlock ++
      lit ",\"table_row\":" ++ intText tableRow
  | .footnote footnote footnoteParagraph =>
    lit ",\"footnote\":" ++ intText footnote ++ lit ",\"footnote_paragraph\":" ++
      intText footnoteParagraph

/-- `appendRecord`. -/
def recordText (r : ExtractedRecord) : Str :=
  lit "\x7b\"kind\":" ++ quote (lit r.kind.value) ++ lit ",\"locator\":\x7b" ++
    lit "\"paragraph\":" ++ intText r.locator.paragraph ++ lit ",\"section\":" ++
    intText r.locator.sectionIndex ++ pathText r.locator.path ++
    lit "\x7d,\"text\":" ++ quote r.text ++ lit ",\"text_fingerprint\":" ++
    quote (sha256Hex (encodeUtf8 r.text)) ++ lit "\x7d"

structure ExtractionEnvelope where
  sourceSha256 : Str
  extractionProfileHash : Str
  parserName : Str
  parserVersion : Str
  records : List ExtractedRecord
  warnings : List String

/-- `JsonWriter.envelope`. -/
def envelopeText (e : ExtractionEnvelope) : Str :=
  lit "\x7b\"extraction_profile_hash\":" ++ quote e.extractionProfileHash ++
    lit ",\"ok\":true,\"parser\":\x7b\"name\":" ++ quote e.parserName ++ lit ",\"version\":" ++
    quote e.parserVersion ++ lit "\x7d,\"records\":[" ++ commaSeparated (e.records.map recordText) ++
    lit "],\"schema_version\":\"hwp-sidecar.v1\",\"source_sha256\":" ++ quote e.sourceSha256 ++
    lit ",\"warnings\":[" ++ commaSeparated (e.warnings.map fun w ↦ quote (lit w)) ++ lit "]\x7d"

/-! ## The value it writes -/

def pathFields : LocatorPath → List (String × Json)
  | .body => []
  | .table table tableBlock tableRow cell cellParagraph =>
    [("cell", .int cell), ("cell_paragraph", .int cellParagraph), ("table", .int table),
      ("table_block", .int tableBlock), ("table_row", .int tableRow)]
  | .footnote footnote footnoteParagraph =>
    [("footnote", .int footnote), ("footnote_paragraph", .int footnoteParagraph)]

def locatorFields (l : Locator) : List (String × Json) :=
  ("paragraph", .int l.paragraph) :: ("section", .int l.sectionIndex) :: pathFields l.path

def recordFields (r : ExtractedRecord) : List (String × Json) :=
  [("kind", .str (lit r.kind.value)), ("locator", .object (obj (locatorFields r.locator))),
    ("text", .str r.text), ("text_fingerprint", .str (sha256Hex (encodeUtf8 r.text)))]

def envelopeFields (e : ExtractionEnvelope) : List (String × Json) :=
  [("extraction_profile_hash", .str e.extractionProfileHash), ("ok", .bool true),
    ("parser", .object (obj [("name", .str e.parserName), ("version", .str e.parserVersion)])),
    ("records", .array (e.records.map fun r ↦ .object (obj (recordFields r)))),
    ("schema_version", .str (lit "hwp-sidecar.v1")), ("source_sha256", .str e.sourceSha256),
    ("warnings", .array (e.warnings.map fun w ↦ .str (lit w)))]

/-- The text is the one of the value, its keys in the order in which they stand. -/
def Writes (v : Json) (text : Str) : Prop := ∃ ts, tokens v = .ok ts ∧ ts.flatMap tokenText = text

theorem quoteChar_eq (c : CodePoint) : quoteChar c = escaped c := by
  have hspecial : ([34, 92, 8, 12, 10, 13, 9] : List CodePoint).map quoteChar =
      ([34, 92, 8, 12, 10, 13, 9] : List CodePoint).map escaped := by decide
  have hcontrol : ∀ n < 32, lit "\\u" ++ hexUnit n =
      [92, 117, 48, 48, hexChar (n / 16), hexChar (n % 16)] := by decide
  have hcodes : codePoint '"' = 34 ∧ codePoint '\\' = 92 ∧ codePoint '\n' = 10 ∧
      codePoint '\r' = 13 ∧ codePoint '\t' = 9 := by decide
  by_cases hc : c ∈ ([34, 92, 8, 12, 10, 13, 9] : List CodePoint)
  · exact List.map_inj_left.mp hspecial c hc
  simp only [List.mem_cons, List.not_mem_nil, or_false, not_or] at hc
  obtain ⟨h34, h92, h8, h12, h10, h13, h9⟩ := hc
  obtain ⟨p34, p92, p10, p13, p9⟩ := hcodes
  rw [quoteChar, escaped, p34, p92, p10, p13, p9, if_neg h34, if_neg h92, if_neg h8, if_neg h12,
    if_neg h10, if_neg h13, if_neg h9, if_neg (not_or.mpr ⟨h34, h92⟩), if_neg h10, if_neg h13,
    if_neg h9, if_neg h12, if_neg h8]
  by_cases hlow : c.val < 0x20
  · rw [if_pos hlow, if_pos hlow]
    exact hcontrol c.val hlow
  · rw [if_neg hlow, if_neg hlow]

/-- The marks of JSON as code points. -/
theorem lit_marks : lit "\"" = [34] ∧ lit "," = [44] ∧ lit ":" = [58] ∧ lit "[" = [91] ∧
    lit "]" = [93] ∧ lit "\x7b" = [123] ∧ lit "\x7d" = [125] := by decide

theorem quote_eq (s : Str) : quote s = tokenText (.string s) := by
  have hquote : quoteChar = escaped := funext quoteChar_eq
  rw [quote, hquote, lit_marks.1]
  rfl

theorem writes_str (s : Str) : Writes (.str s) (quote s) :=
  ⟨[.string s], rfl, by rw [quote_eq, List.flatMap_singleton]⟩

theorem writes_int {n : ℕ} (h : (decimalDigits n).length ≤ 4300) : Writes (.int n) (intText n) := by
  refine ⟨[.number ⟨false, decimalDigits n, [], none⟩], ?_, ?_⟩
  · rw [tokens, Int.natAbs_natCast, if_neg (Nat.not_lt.mpr h)]
    have hsign : decide ((n : ℤ) < 0) = false := decide_eq_false (Int.not_lt.mpr (Int.natCast_nonneg n))
    rw [hsign]
  · rw [List.flatMap_singleton, tokenText, numeralText, intText]
    simp [fractionText, exponentText]

theorem writes_items {items : List Json} {texts : List Str} (h : List.Forall₂ Writes items texts) :
    ∃ ts, itemTokens items = .ok ts ∧ ts.flatMap tokenText = commaSeparated texts := by
  induction h with
  | nil => exact ⟨[], rfl, rfl⟩
  | @cons v s items texts hv hitems ih =>
    obtain ⟨first, hfirst, htext⟩ := hv
    obtain ⟨rest, hrest, hrestText⟩ := ih
    cases hitems with
    | nil => exact ⟨first, hfirst, htext⟩
    | cons hw hitems =>
      refine ⟨first ++ .comma :: rest, ?_, ?_⟩
      · rw [itemTokens, hfirst, ok_bind, hrest, ok_bind]
      · rw [List.flatMap_append, List.flatMap_cons, htext, hrestText, commaSeparated,
          lit_marks.2.1, List.append_assoc]
        rfl

theorem writes_array {items : List Json} {texts : List Str} (h : List.Forall₂ Writes items texts) :
    Writes (.array items) (lit "[" ++ commaSeparated texts ++ lit "]") := by
  obtain ⟨ts, hts, htext⟩ := writes_items h
  obtain ⟨-, -, -, hopen, hclose, -⟩ := lit_marks
  refine ⟨.openBracket :: ts ++ [.closeBracket], ?_, ?_⟩
  · rw [tokens, hts, ok_bind]
  · rw [List.flatMap_append, List.flatMap_cons, htext, hopen, hclose]
    rfl

/-- A member of an object, as the writer puts it down. -/
def member (key : String) (text : Str) : Str := quote (lit key) ++ lit ":" ++ text

theorem writes_members {fields : List (String × Json)} {texts : List Str}
    (h : List.Forall₂ (fun f text ↦ ∃ s, Writes f.2 s ∧ text = member f.1 s) fields texts) :
    ∃ ts, fieldTokens (obj fields) = .ok ts ∧ ts.flatMap tokenText = commaSeparated texts := by
  obtain ⟨-, hcomma, hcolon, -⟩ := lit_marks
  have hmember : ∀ (key : String) (ts : List Token) (s : Str), ts.flatMap tokenText = s →
      (Token.string (lit key) :: .colon :: ts).flatMap tokenText = member key s := by
    intro key ts s hs
    rw [member, quote_eq, hcolon, List.flatMap_cons, List.flatMap_cons, hs, List.append_assoc]
    rfl
  induction h with
  | nil => exact ⟨[], rfl, rfl⟩
  | @cons f text fields texts hf hfields ih =>
    obtain ⟨s, ⟨first, hfirst, htext⟩, rfl⟩ := hf
    obtain ⟨rest, hrest, hrestText⟩ := ih
    cases hfields with
    | nil =>
      refine ⟨.string (lit f.1) :: .colon :: first, ?_, hmember f.1 first s htext⟩
      rw [obj, List.map_cons, List.map_nil, fieldTokens, hfirst, ok_bind]
    | @cons g text' fields texts hg hfields =>
      refine ⟨.string (lit f.1) :: .colon :: first ++ .comma :: rest, ?_, ?_⟩
      · rw [obj, List.map_cons, List.map_cons, fieldTokens, hfirst, ok_bind]
        rw [obj, List.map_cons] at hrest
        rw [hrest, ok_bind]
      · rw [List.flatMap_append, hmember f.1 first s htext, List.flatMap_cons, hrestText,
          commaSeparated, hcomma, List.append_assoc]
        rfl

theorem writes_object (fields : List (String × Json)) {texts : List Str}
    (h : List.Forall₂ (fun f text ↦ ∃ s, Writes f.2 s ∧ text = member f.1 s) fields texts) :
    Writes (.object (obj fields)) (lit "\x7b" ++ commaSeparated texts ++ lit "\x7d") := by
  obtain ⟨ts, hts, htext⟩ := writes_members h
  obtain ⟨-, -, -, -, -, hopen, hclose⟩ := lit_marks
  refine ⟨.openBrace :: ts ++ [.closeBrace], ?_, ?_⟩
  · rw [tokens, hts, ok_bind]
  · rw [List.flatMap_append, List.flatMap_cons, htext, hopen, hclose]
    rfl

/-- The indexes of a place can be written. -/
theorem digits_of_constructible {l : Locator} (h : l.Constructible) {i : ℕ} (hi : i ∈ l.indexes) :
    (decimalDigits i).length ≤ 4300 := by
  have hlt : i < 10 ^ 10 := (h i hi).trans (by norm_num)
  rw [decimalDigits]
  split
  · decide
  · rw [List.length_reverse]
    exact ((Nat.digits_length_le_iff (by norm_num) i).mpr hlt).trans (by norm_num)

theorem commaSeparated_cons (s : Str) (texts : List Str) :
    commaSeparated (s :: texts) = s ++ texts.flatMap (lit "," ++ ·) := by
  induction texts generalizing s with
  | nil => exact (List.append_nil s).symm
  | cons t texts ih => rw [commaSeparated, ih t, List.flatMap_cons, List.append_assoc,
      List.append_assoc]

/-- The members of a path, one after the other. -/
def pathMembers : LocatorPath → List Str
  | .body => []
  | .table table tableBlock tableRow cell cellParagraph =>
    [member "cell" (intText cell), member "cell_paragraph" (intText cellParagraph),
      member "table" (intText table), member "table_block" (intText tableBlock),
      member "table_row" (intText tableRow)]
  | .footnote footnote footnoteParagraph =>
    [member "footnote" (intText footnote), member "footnote_paragraph" (intText footnoteParagraph)]

/-- The pieces of text that open a member: the comma, the key and the colon. -/
theorem lit_pieces : ∀ p ∈ ([(",\"cell\":", "cell"), (",\"cell_paragraph\":", "cell_paragraph"),
      (",\"table\":", "table"), (",\"table_block\":", "table_block"), (",\"table_row\":", "table_row"),
      (",\"footnote\":", "footnote"), (",\"footnote_paragraph\":", "footnote_paragraph"),
      (",\"section\":", "section"), (",\"text_fingerprint\":", "text_fingerprint"),
      (",\"version\":", "version")] : List (String × String)),
    lit p.1 = lit "," ++ (quote (lit p.2) ++ lit ":") := by decide

theorem pathText_eq (path : LocatorPath) :
    pathText path = (pathMembers path).flatMap (lit "," ++ ·) := by
  cases path with
  | body => rfl
  | table table tableBlock tableRow cell cellParagraph =>
    have hcell := lit_pieces (",\"cell\":", "cell") (by simp)
    have hcellParagraph := lit_pieces (",\"cell_paragraph\":", "cell_paragraph") (by simp)
    have htable := lit_pieces (",\"table\":", "table") (by simp)
    have hblock := lit_pieces (",\"table_block\":", "table_block") (by simp)
    have hrow := lit_pieces (",\"table_row\":", "table_row") (by simp)
    simp only [pathText, pathMembers, member, hcell, hcellParagraph, htable, hblock, hrow,
      List.flatMap_cons, List.flatMap_nil, List.append_assoc, List.append_nil]
  | footnote footnote footnoteParagraph =>
    have hfootnote := lit_pieces (",\"footnote\":", "footnote") (by simp)
    have hparagraph := lit_pieces (",\"footnote_paragraph\":", "footnote_paragraph") (by simp)
    simp only [pathText, pathMembers, member, hfootnote, hparagraph, List.flatMap_cons,
      List.flatMap_nil, List.append_assoc, List.append_nil]

/-- The field is written as the member. -/
def WritesMember (f : String × Json) (text : Str) : Prop := ∃ s, Writes f.2 s ∧ text = member f.1 s

theorem writes_path {path : LocatorPath}
    (h : ∀ i ∈ path.indexes, (decimalDigits i).length ≤ 4300) :
    List.Forall₂ WritesMember (pathFields path) (pathMembers path) := by
  have hint : ∀ (key : String), ∀ i ∈ path.indexes,
      WritesMember (key, .int i) (member key (intText i)) :=
    fun key i hi ↦ ⟨intText i, writes_int (h i hi), rfl⟩
  cases path with
  | body => exact .nil
  | table table tableBlock tableRow cell cellParagraph =>
    exact .cons (hint _ cell (by simp [LocatorPath.indexes]))
      (.cons (hint _ cellParagraph (by simp [LocatorPath.indexes]))
      (.cons (hint _ table (by simp [LocatorPath.indexes]))
      (.cons (hint _ tableBlock (by simp [LocatorPath.indexes]))
      (.cons (hint _ tableRow (by simp [LocatorPath.indexes])) .nil))))
  | footnote footnote footnoteParagraph =>
    exact .cons (hint _ footnote (by simp [LocatorPath.indexes]))
      (.cons (hint _ footnoteParagraph (by simp [LocatorPath.indexes])) .nil)

/-- The pieces that stand at the two ends of an object or of a list. -/
theorem lit_ends : lit "\"paragraph\":" = quote (lit "paragraph") ++ lit ":" ∧
    lit "\x7b\"kind\":" = lit "\x7b" ++ (quote (lit "kind") ++ lit ":") ∧
    lit ",\"locator\":\x7b" = lit "," ++ (quote (lit "locator") ++ (lit ":" ++ lit "\x7b")) ∧
    lit "\x7d,\"text\":" = lit "\x7d" ++ (lit "," ++ (quote (lit "text") ++ lit ":")) ∧
    lit "\x7b\"extraction_profile_hash\":" =
      lit "\x7b" ++ (quote (lit "extraction_profile_hash") ++ lit ":") ∧
    lit ",\"ok\":true,\"parser\":\x7b\"name\":" = lit "," ++ (quote (lit "ok") ++ (lit ":" ++
      (lit "true" ++ (lit "," ++ (quote (lit "parser") ++ (lit ":" ++ (lit "\x7b" ++
        (quote (lit "name") ++ lit ":")))))))) ∧
    lit "\x7d,\"records\":[" =
      lit "\x7d" ++ (lit "," ++ (quote (lit "records") ++ (lit ":" ++ lit "["))) ∧
    lit "],\"schema_version\":\"hwp-sidecar.v1\",\"source_sha256\":" = lit "]" ++ (lit "," ++
      (quote (lit "schema_version") ++ (lit ":" ++ (quote (lit "hwp-sidecar.v1") ++ (lit "," ++
        (quote (lit "source_sha256") ++ lit ":")))))) ∧
    lit ",\"warnings\":[" = lit "," ++ (quote (lit "warnings") ++ (lit ":" ++ lit "[")) ∧
    lit "]\x7d" = lit "]" ++ lit "\x7d" := by decide

theorem writes_locator {l : Locator} (h : l.Constructible) :
    Writes (.object (obj (locatorFields l))) (lit "\x7b" ++ (lit "\"paragraph\":" ++
      intText l.paragraph ++ lit ",\"section\":" ++ intText l.sectionIndex ++ pathText l.path) ++
      lit "\x7d") := by
  have hdigits : ∀ i ∈ l.indexes, (decimalDigits i).length ≤ 4300 :=
    fun i hi ↦ digits_of_constructible h hi
  have hparagraph := lit_ends.1
  have hsection := lit_pieces (",\"section\":", "section") (by simp)
  have hobject := writes_object (locatorFields l)
    (.cons ⟨_, writes_int (hdigits l.paragraph (List.mem_cons_of_mem _ List.mem_cons_self)), rfl⟩
      (.cons ⟨_, writes_int (hdigits l.sectionIndex List.mem_cons_self), rfl⟩
        (writes_path fun i hi ↦ hdigits i (List.mem_cons_of_mem _ (List.mem_cons_of_mem _ hi)))))
  rw [commaSeparated_cons, List.flatMap_cons, ← pathText_eq] at hobject
  simpa only [member, hparagraph, hsection, List.append_assoc] using hobject

theorem writes_record {r : ExtractedRecord} (h : r.locator.Constructible) :
    Writes (.object (obj (recordFields r))) (recordText r) := by
  obtain ⟨-, hkind, hlocator, htext, -⟩ := lit_ends
  have hfingerprint := lit_pieces (",\"text_fingerprint\":", "text_fingerprint") (by simp)
  have hobject := writes_object (recordFields r)
    (.cons ⟨_, writes_str _, rfl⟩ (.cons ⟨_, writes_locator h, rfl⟩ (.cons ⟨_, writes_str _, rfl⟩
      (.cons ⟨_, writes_str _, rfl⟩ .nil))))
  simpa only [recordText, commaSeparated_cons, List.flatMap_cons, List.flatMap_nil, member, hkind,
    hlocator, htext, hfingerprint, List.append_assoc, List.append_nil] using hobject

theorem writes_true : Writes (.bool true) (lit "true") := ⟨[.true], rfl, rfl⟩

/-- **What the sidecar writes is the text of its value.** -/
theorem writes_envelope {e : ExtractionEnvelope}
    (h : ∀ r ∈ e.records, r.locator.Constructible) :
    Writes (.object (obj (envelopeFields e))) (envelopeText e) := by
  obtain ⟨-, -, -, -, hprofile, hparser, hrecords, hschema, hwarnings, hend⟩ := lit_ends
  have hversion := lit_pieces (",\"version\":", "version") (by simp)
  have hparserObject := writes_object
    [("name", .str e.parserName), ("version", .str e.parserVersion)]
    (.cons ⟨_, writes_str _, rfl⟩ (.cons ⟨_, writes_str _, rfl⟩ .nil))
  have hrecordArray : Writes (.array (e.records.map fun r ↦ .object (obj (recordFields r))))
      (lit "[" ++ commaSeparated (e.records.map recordText) ++ lit "]") := by
    refine writes_array ?_
    rw [List.forall₂_map_left_iff, List.forall₂_map_right_iff, List.forall₂_same]
    exact fun r hr ↦ writes_record (h r hr)
  have hwarningArray : Writes (.array (e.warnings.map fun w ↦ .str (lit w)))
      (lit "[" ++ commaSeparated (e.warnings.map fun w ↦ quote (lit w)) ++ lit "]") := by
    refine writes_array ?_
    rw [List.forall₂_map_left_iff, List.forall₂_map_right_iff, List.forall₂_same]
    exact fun w _ ↦ writes_str (lit w)
  have hobject := writes_object (envelopeFields e)
    (.cons ⟨_, writes_str _, rfl⟩ (.cons ⟨_, writes_true, rfl⟩ (.cons ⟨_, hparserObject, rfl⟩
      (.cons ⟨_, hrecordArray, rfl⟩ (.cons ⟨_, writes_str _, rfl⟩ (.cons ⟨_, writes_str _, rfl⟩
        (.cons ⟨_, hwarningArray, rfl⟩ .nil)))))))
  simpa only [envelopeText, commaSeparated_cons, List.flatMap_cons, List.flatMap_nil, member,
    hprofile, hparser, hversion, hrecords, hschema, hwarnings, hend, List.append_assoc,
    List.append_nil] using hobject

/-! ## Reading it -/

/-- A leaf that is written, and read as it was. -/
def Plain (v : Json) : Prop := Readable v ∧ Writable v

def DistinctKeys (ks : List Str) : Prop := ks.Nodup ∧ ∀ k ∈ ks, Scalar k

theorem each_obj {fields : List (String × Json)} (hkeys : (fields.map Prod.fst).Nodup)
    (h : ∀ f ∈ fields, Each Plain DistinctKeys f.2) :
    Each Plain DistinctKeys (.object (obj fields)) :=
  .obj hkeys (fun f _ ↦ scalar_lit f.1) (fun _ hnodup hscalar ↦ ⟨hnodup, hscalar⟩) h

theorem each_str {s : Str} (h : Scalar s) : Each Plain DistinctKeys (.str s) :=
  .leaf trivial ⟨nofun, h⟩

theorem each_int {n : ℕ} (h : (decimalDigits n).length ≤ 4300) :
    Each Plain DistinctKeys (.int n) := .leaf trivial ⟨nofun, h⟩

theorem scalar_sha256Hex (data : List UInt8) : Scalar (sha256Hex data) :=
  scalar_of_lt fun c hc ↦ (printable_of_isSha256 (isSha256_sha256Hex data) c hc).2

theorem each_locator {l : Locator} (h : l.Constructible) :
    Each Plain DistinctKeys (.object (obj (locatorFields l))) := by
  have hints : ∀ f ∈ locatorFields l, ∃ i ∈ l.indexes, f.2 = .int (i : ℕ) := by
    obtain ⟨s, p, path⟩ := l
    cases path <;>
      simp [locatorFields, pathFields, Locator.indexes, LocatorPath.indexes]
  refine each_obj ?_ fun f hf ↦ ?_
  · obtain ⟨s, p, path⟩ := l
    cases path with
    | body => exact (by decide : (["paragraph", "section"] : List String).Nodup)
    | table =>
      exact (by decide : (["paragraph", "section", "cell", "cell_paragraph", "table", "table_block",
        "table_row"] : List String).Nodup)
    | footnote =>
      exact (by decide :
        (["paragraph", "section", "footnote", "footnote_paragraph"] : List String).Nodup)
  · obtain ⟨i, hi, hn⟩ := hints f hf
    rw [hn]
    exact each_int (digits_of_constructible h hi)

theorem each_record {r : ExtractedRecord} (h : r.locator.Constructible) (htext : Scalar r.text) :
    Each Plain DistinctKeys (.object (obj (recordFields r))) := by
  refine each_obj (by decide : (["kind", "locator", "text", "text_fingerprint"] : List String).Nodup)
    fun f hf ↦ ?_
  simp only [recordFields, List.mem_cons, List.not_mem_nil, or_false] at hf
  rcases hf with rfl | rfl | rfl | rfl
  · exact each_str (scalar_lit _)
  · exact each_locator h
  · exact each_str htext
  · exact each_str (scalar_sha256Hex _)

/-- The texts of an envelope that are not its own. -/
structure ExtractionEnvelope.Sendable (e : ExtractionEnvelope) : Prop where
  places : ∀ r ∈ e.records, r.locator.Constructible
  texts : ∀ r ∈ e.records, Scalar r.text
  source : Scalar e.sourceSha256
  profile : Scalar e.extractionProfileHash
  parser : Scalar e.parserName ∧ Scalar e.parserVersion

theorem each_envelope {e : ExtractionEnvelope} (h : e.Sendable) :
    Each Plain DistinctKeys (.object (obj (envelopeFields e))) := by
  have hkeys : (["extraction_profile_hash", "ok", "parser", "records", "schema_version",
    "source_sha256", "warnings"] : List String).Nodup := by decide
  refine each_obj hkeys fun f hf ↦ ?_
  simp only [envelopeFields, List.mem_cons, List.not_mem_nil, or_false] at hf
  rcases hf with rfl | rfl | rfl | rfl | rfl | rfl | rfl
  · exact each_str h.profile
  · exact .leaf trivial ⟨nofun, trivial⟩
  · refine each_obj (by decide : (["name", "version"] : List String).Nodup) fun f hf ↦ ?_
    simp only [List.mem_cons, List.not_mem_nil, or_false] at hf
    rcases hf with rfl | rfl
    · exact each_str h.parser.1
    · exact each_str h.parser.2
  · exact each_array.mpr (List.forall_mem_map.mpr fun r hr ↦
      each_record (h.places r hr) (h.texts r hr))
  · exact each_str (scalar_lit _)
  · exact each_str h.source
  · exact each_array.mpr (List.forall_mem_map.mpr fun w _ ↦ each_str (scalar_lit w))

/-- The value nests four deep: the locator of a record in the list of records. -/
theorem within_envelope (e : ExtractionEnvelope) (n : ℕ) :
    Within (n + 4) (.object (obj (envelopeFields e))) := by
  have hleaf : ∀ m, ∀ fields : List (String × Json), (∀ f ∈ fields, IsLeaf f.2) →
      Within (m + 1) (.object (obj fields)) :=
    fun m fields h ↦ .object (List.forall_mem_map.mpr fun f hf ↦ .leaf (h f hf))
  have hlocator : ∀ l : Locator, Within (n + 1) (.object (obj (locatorFields l))) := by
    refine fun l ↦ hleaf n _ ?_
    obtain ⟨s, p, path⟩ := l
    cases path <;> simp [locatorFields, pathFields, IsLeaf]
  refine .object (List.forall_mem_map.mpr fun f hf ↦ ?_)
  simp only [envelopeFields, List.mem_cons, List.not_mem_nil, or_false] at hf
  rcases hf with rfl | rfl | rfl | rfl | rfl | rfl | rfl
  · exact .leaf trivial
  · exact .leaf trivial
  · exact hleaf (n + 2) _ (by simp [IsLeaf])
  · refine .array (List.forall_mem_map.mpr fun r _ ↦ .object (List.forall_mem_map.mpr fun g hg ↦ ?_))
    simp only [recordFields, List.mem_cons, List.not_mem_nil, or_false] at hg
    rcases hg with rfl | rfl | rfl | rfl
    · exact .leaf trivial
    · exact hlocator r.locator
    · exact .leaf trivial
    · exact .leaf trivial
  · exact .leaf trivial
  · exact .leaf trivial
  · exact .array (List.forall_mem_map.mpr fun w _ ↦ .leaf trivial)

/-- **`json.loads` reads what the sidecar writes.** -/
theorem loads_envelopeText {hooks : Hooks} {limit : ℕ} {e : ExtractionEnvelope}
    (hobject : ∀ fields : Fields, (fields.map Prod.fst).Nodup → hooks.object fields = .ok fields)
    (hlimit : 4 ≤ limit) (h : e.Sendable) :
    loads hooks limit (envelopeText e) = .ok (.object (obj (envelopeFields e))) := by
  obtain ⟨n, rfl⟩ := Nat.exists_eq_add_of_le' hlimit
  obtain ⟨ts, hts, htext⟩ := writes_envelope h.places
  have heach : Each Readable List.Nodup (.object (obj (envelopeFields e))) :=
    (each_envelope h).imp (fun _ hplain ↦ hplain.1) fun _ hkeys ↦ hkeys.1
  rw [← htext]
  exact loads_tokens hobject hts heach (within_envelope e n)

/-- The text has an encoding. -/
theorem scalar_envelopeText {e : ExtractionEnvelope} (h : e.Sendable) : Scalar (envelopeText e) := by
  obtain ⟨ts, hts, htext⟩ := writes_envelope h.places
  have heach : Each Writable (fun ks ↦ ∀ k ∈ ks, Scalar k) (.object (obj (envelopeFields e))) :=
    (each_envelope h).imp (fun _ hplain ↦ hplain.2) fun _ hkeys ↦ hkeys.2
  obtain ⟨us, hus, hscalar⟩ := exists_tokens heach
  rw [← htext, Except.ok.inj (hts.symm.trans hus)]
  exact hscalar

end Sidecar

end MeetingRag
