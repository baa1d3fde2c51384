import MeetingRag.Library.Charset
import MeetingRag.Library.Outcome

/-!
# XML parts of office documents

A part of a DOCX, XLSX or HWPX package goes to an XML parser only when it declares no document type and no
entity. The guards of DOCX and XLSX search the bytes for the two words, and that of HWPX the text it decodes
as UTF-8. The parser has its own way to find the encoding: a byte order mark, and then the declaration.

Two guards and a parser, then, that read the same bytes: the words they search for are the ones the parser
sees wherever the parser reads ASCII characters from single bytes. UTF-16 does not, and only the guard of
HWPX refuses it.
-/

open Outcome Py

namespace MeetingRag

/-- A code and a message. -/
structure ExtractionFailure where
  code : String
  message : String
deriving DecidableEq, Repr

/-! ## The words -/

/-- What a document type declaration and an entity declaration start with. -/
def declarationWords : List Str := [lit "<!DOCTYPE", lit "<!ENTITY"]

/-- The text holds one of the words. -/
def Declares (s : Str) : Prop := ∃ word ∈ declarationWords, word <:+: s

instance : DecidablePred Declares := fun s ↦
  inferInstanceAs (Decidable (∃ word ∈ declarationWords, word <:+: s))

theorem ascii_of_declarationWords : ∀ word ∈ declarationWords, ∀ c ∈ word, IsAscii c := by
  have hall : declarationWords.all (fun word ↦ word.all fun c ↦ c.val < 0x80) = true := by decide
  intro word hword c hc
  exact of_decide_eq_true (List.all_eq_true.mp (List.all_eq_true.mp hall word hword) c hc)

/-- A word as bytes. -/
def asciiBytes (word : Str) : List UInt8 := word.flatMap asciiByte

/-! ## The guards of DOCX and XLSX -/

def upperByte (b : UInt8) : UInt8 := if 97 ≤ b.toNat ∧ b.toNat ≤ 122 then b - 32 else b

/-- `data.upper()` for `bytes`, which changes the letters of ASCII and nothing else. -/
def upperBytes (data : List UInt8) : List UInt8 := data.map upperByte

/-- `b"<!DOCTYPE" in upper or b"<!ENTITY" in upper`. -/
def BytesDeclare (data : List UInt8) : Prop :=
  ∃ word ∈ declarationWords, asciiBytes word <:+: upperBytes data

instance : DecidablePred BytesDeclare := fun data ↦
  inferInstanceAs (Decidable (∃ word ∈ declarationWords, asciiBytes word <:+: upperBytes data))

/-- The guard of one kind of part, under the name that its messages give it. -/
def guardXml (part : String) (maxXmlBytes : ℕ) (xml : List UInt8) : Except ExtractionFailure Unit := do
  require (xml.length ≤ maxXmlBytes) ⟨"ZIP_EXPANSION_LIMIT", part ++ " exceeds configured limit"⟩
  require (¬BytesDeclare xml) ⟨"XML_DTD_FORBIDDEN", part ++ " contains a forbidden DTD or entity"⟩

/-- `DocxExtractor.extract` on `word/document.xml`, up to the parser. -/
def documentXml (maxXmlBytes : ℕ) (xml : Option (List UInt8)) : Except ExtractionFailure (List UInt8) :=
  match xml with
  | none => .error ⟨"CORRUPT_DOCUMENT", "DOCX document part is missing"⟩
  | some xml => do
    guardXml "DOCX XML" maxXmlBytes xml
    .ok xml

/-- `DocxExtractor._core_properties` on `docProps/core.xml`, up to the parser. An empty part, or none, is
not parsed. -/
def coreXml (maxXmlBytes : ℕ) (xml : List UInt8) : Except ExtractionFailure (Option (List UInt8)) :=
  if xml = [] then .ok none
  else do
    guardXml "DOCX metadata XML" maxXmlBytes xml
    .ok (some xml)

/-- An entry of a ZIP archive: the size it declares, and its bytes if they can be read. -/
structure ArchiveEntry where
  fileSize : ℕ
  content : Option (List UInt8)
deriving DecidableEq, Repr

/-- `_read_xml`, whose value `_parse_xml` hands to the parser. -/
def readXml (maxXmlBytes : ℕ) (entry : Option ArchiveEntry) : Except ExtractionFailure (List UInt8) :=
  match entry with
  | none => .error ⟨"CORRUPT_DOCUMENT", "required Office package part is missing"⟩
  | some info => do
    require (info.fileSize ≤ maxXmlBytes) ⟨"ZIP_EXPANSION_LIMIT", "Office XML exceeds configured limit"⟩
    match info.content with
    | none => .error ⟨"CORRUPT_DOCUMENT", "Office package part could not be read"⟩
    | some value => do
      guardXml "Office XML" maxXmlBytes value
      .ok value

/-! ## The guard of HWPX -/

/-- An entry of an HWPX package, with -1 for a size that the archive does not tell. -/
structure PackageEntry where
  name : Str
  isDirectory : Bool
  size : ℤ
  compressedSize : ℤ
  content : List UInt8
deriving DecidableEq, Repr

/-- `String.toUpperCase` and `toLowerCase` under `Locale.ROOT`, which treat upper case character by
character. -/
structure JavaCases where
  upperChar : CodePoint → Str
  lower : Str → Str
  upper_ascii : ∀ c, IsAscii c → upperChar c =
    [if 97 ≤ c.val ∧ c.val ≤ 122 then c - 32 else c]

def JavaCases.upper (cases : JavaCases) (s : Str) : Str := s.flatMap cases.upperChar

namespace HwpxPreflight

def mediaMarker : List UInt8 := asciiBytes (lit "application/hwp+zip")

def maxEntries : ℕ := 256

def maxEntryBytes : ℕ := 200 * 1024 * 1024

def maxXmlBytes : ℕ := 8 * 1024 * 1024

def maxTotalBytes : ℕ := 512 * 1024 * 1024

def maxCompressionRatio : ℕ := 100

/-- `String.length`, in UTF-16 units. -/
def utf16Length (s : Str) : ℕ := (s.map fun c ↦ if c.val < 0x10000 then 1 else 2).sum

def exceedsCompressionRatio (expandedBytes compressedBytes : ℤ) : Prop :=
  expandedBytes > 0 ∧ (compressedBytes = 0 ∨ expandedBytes > compressedBytes * maxCompressionRatio)

instance (expandedBytes compressedBytes : ℤ) :
    Decidable (exceedsCompressionRatio expandedBytes compressedBytes) := inferInstanceAs (Decidable
  (expandedBytes > 0 ∧ (compressedBytes = 0 ∨ expandedBytes > compressedBytes * maxCompressionRatio)))

def validatePath (name : Str) : Except ExtractionFailure Unit := do
  let rejected : ExtractionFailure :=
    ⟨"ARCHIVE_PATH_REJECTED", "The HWPX package contains an unsafe archive path."⟩
  require (¬(name = [] ∨ utf16Length name > 512 ∨ lit "/" <+: name ∨ lit "\\" <+: name ∨
    codePoint '\\' ∈ name ∨ 0 ∈ name ∨ codePoint ':' ∈ name)) rejected
  require (∀ component ∈ name.splitOn (codePoint '/'), ¬(component = lit "." ∨ component = lit ".."))
    rejected

def IsXml (cases : JavaCases) (name : Str) : Prop :=
  lit ".xml" <:+ cases.lower name ∨ lit ".hpf" <:+ cases.lower name

instance (cases : JavaCases) (name : Str) : Decidable (IsXml cases name) :=
  inferInstanceAs (Decidable (lit ".xml" <:+ cases.lower name ∨ lit ".hpf" <:+ cases.lower name))

/-- The text of an XML entry, which has to be UTF-8 and to declare nothing. -/
def scanXml (cases : JavaCases) (content : List UInt8) : Except ExtractionFailure Unit :=
  match decodeUtf8 content with
  | none =>
    .error ⟨"XML_ENCODING_REJECTED", "HWPX XML entries must use the approved UTF-8 encoding."⟩
  | some xml => do
    let upper := cases.upper xml
    require (0 ∉ upper)
      ⟨"XML_ENCODING_REJECTED", "HWPX XML entries must not contain zero code points."⟩
    require (¬Declares upper)
      ⟨"XML_DTD_FORBIDDEN", "DTD and entity declarations are forbidden in HWPX XML."⟩

/-- `scanEntry`, with the number of bytes it has read. The limit it checks after every buffer is a limit on
the whole entry. -/
def scanEntry (cases : JavaCases) (entry : PackageEntry) : Except ExtractionFailure ℕ := do
  let xmlEntry := IsXml cases entry.name
  let activeLimit := if xmlEntry then maxXmlBytes else maxEntryBytes
  require (entry.content.length ≤ activeLimit)
    ⟨"ARCHIVE_LIMIT_EXCEEDED", "An expanded HWPX entry exceeds the approved size bound."⟩
  require ((entry.content.length : ℤ) = entry.size)
    ⟨"CORRUPT_ARCHIVE", "An HWPX entry does not match its declared archive size."⟩
  require (¬(entry.name = lit "mimetype" ∧ entry.content ≠ mediaMarker))
    ⟨"TYPE_MISMATCH", "The HWPX package has an invalid media marker."⟩
  if xmlEntry then do
    scanXml cases entry.content
    .ok entry.content.length
  else .ok entry.content.length

/-- What `verify` knows after some entries. -/
structure Totals where
  names : List Str
  declared : ℤ
  read : ℕ
  count : ℕ
deriving DecidableEq, Repr

/-- One turn of the loop of `verify`. -/
def verifyEntry (cases : JavaCases) (t : Totals) (entry : PackageEntry) :
    Except ExtractionFailure Totals := do
  let expanded : ExtractionFailure :=
    ⟨"ARCHIVE_LIMIT_EXCEEDED", "The expanded HWPX package exceeds the approved size bound."⟩
  require (t.count + 1 ≤ maxEntries)
    ⟨"ARCHIVE_LIMIT_EXCEEDED", "The HWPX package contains too many archive entries."⟩
  validatePath entry.name
  require (entry.name ∉ t.names)
    ⟨"ARCHIVE_DUPLICATE_ENTRY", "The HWPX package contains duplicate archive entries."⟩
  let names := entry.name :: t.names
  if entry.isDirectory then .ok { t with names := names, count := t.count + 1 }
  else do
    require (¬(entry.size < 0 ∨ entry.compressedSize < 0))
      ⟨"CORRUPT_ARCHIVE", "The HWPX package has incomplete archive metadata."⟩
    require (¬(entry.size > maxEntryBytes ∨ t.declared + entry.size > maxTotalBytes)) expanded
    require (¬(IsXml cases entry.name ∧ entry.size > maxXmlBytes))
      ⟨"ARCHIVE_LIMIT_EXCEEDED", "An HWPX XML entry exceeds the approved size bound."⟩
    require (¬exceedsCompressionRatio entry.size entry.compressedSize)
      ⟨"ARCHIVE_RATIO_REJECTED", "The HWPX package exceeds the approved compression-ratio bound."⟩
    let actual ← scanEntry cases entry
    require (t.read + actual ≤ maxTotalBytes) expanded
    .ok ⟨names, t.declared + entry.size, t.read + actual, t.count + 1⟩

/-- `HwpxPreflight.verify` on the entries of a package that can be read. -/
def verify (cases : JavaCases) (entries : List PackageEntry) : Except ExtractionFailure Unit := do
  let totals ← entries.foldlM (verifyEntry cases) ⟨[], 0, 0, 0⟩
  require (lit "mimetype" ∈ totals.names)
    ⟨"TYPE_MISMATCH", "The HWPX package is missing its media marker."⟩

end HwpxPreflight

/-! ## The parser -/

/-- How a parser reads a part. -/
inductive XmlEncoding
  | utf8
  | utf16 (order : ByteOrder)
  /-- Another encoding that the parser supports. -/
  | other (decode : List UInt8 → Option Str)

def XmlEncoding.decode : XmlEncoding → List UInt8 → Option Str
  | utf8 => decodeUtf8
  | utf16 order => decodeUtf16 order
  | other decode => decode

/-- An XML parser, as far as it finds out what encoding a part without byte order mark is in. -/
structure XmlParser where
  declared : List UInt8 → XmlEncoding

namespace XmlParser

variable (parser : XmlParser)

/-- The encoding of a part, and what follows its byte order mark. -/
def encoding : List UInt8 → XmlEncoding × List UInt8
  | 0xEF :: 0xBB :: 0xBF :: rest => (.utf8, rest)
  | 0xFE :: 0xFF :: rest => (.utf16 .big, rest)
  | 0xFF :: 0xFE :: rest => (.utf16 .little, rest)
  | data => (parser.declared data, data)

/-- The parser gets to see these characters, maybe before it comes to bytes that it cannot decode. -/
def Reads (data : List UInt8) (s : Str) : Prop :=
  ∃ front, front <+: (parser.encoding data).2 ∧ (parser.encoding data).1.decode front = some s

/-- No declaration reaches the parser. -/
def Clean (data : List UInt8) : Prop := ∀ s, parser.Reads data s → ¬Declares s

end XmlParser

/-- A declaration that the guards do not see: one spelled in the two-byte units of UTF-16, where a character
begins, or one in an encoding that spells ASCII characters in another way. -/
def Smuggles (parser : XmlParser) (data : List UInt8) : Prop :=
  match parser.encoding data with
  | (.utf8, _) => False
  | (.utf16 order, body) => ∃ word ∈ declarationWords, ∃ front, (decodeUtf16 order front).isSome ∧
    front ++ word.flatMap (asciiUnit order) <+: body
  | (.other decode, body) => ¬AsciiTransparent decode ∧
    ∃ front, front <+: body ∧ ∃ s ∈ decode front, Declares s

/-- Smuggling in another encoding than UTF-16. -/
def SmugglesOther (parser : XmlParser) (data : List UInt8) : Prop :=
  (∀ order, (parser.encoding data).1 ≠ .utf16 order) ∧ Smuggles parser data

/-! ## What the guards see -/

section Guards

variable {parser : XmlParser} {data front : List UInt8} {s : Str}

theorem encoding_suffix (parser : XmlParser) (data : List UInt8) : (parser.encoding data).2 <:+ data := by
  unfold XmlParser.encoding
  split
  · exact ⟨[0xEF, 0xBB, 0xBF], rfl⟩
  · exact ⟨[0xFE, 0xFF], rfl⟩
  · exact ⟨[0xFF, 0xFE], rfl⟩
  · exact List.suffix_rfl

/-- Nothing changes in a word of upper case. -/
theorem upperBytes_declarationWords :
    ∀ word ∈ declarationWords, upperBytes (asciiBytes word) = asciiBytes word := by
  decide

theorem bytesDeclare_of_word {word : Str} (hword : word ∈ declarationWords)
    (h : asciiBytes word <:+: data) : BytesDeclare data := by
  refine ⟨word, hword, ?_⟩
  obtain ⟨p, q, rfl⟩ := h
  refine ⟨upperBytes p, upperBytes q, ?_⟩
  have hupper := upperBytes_declarationWords word hword
  rw [upperBytes] at hupper
  simp only [upperBytes, List.map_append, hupper]

/-- What a decoder of single ASCII bytes shows is spelled in the bytes. -/
theorem Declares.spelled {decode : List UInt8 → Option Str} (h : Declares s)
    (hdecode : AsciiTransparent decode) (hs : decode front = some s) :
    ∃ word ∈ declarationWords, asciiBytes word <:+: front := by
  obtain ⟨word, hword, hoccurs⟩ := h
  exact ⟨word, hword, (hdecode front s hs).word (ascii_of_declarationWords word hword) hoccurs⟩

/-- A word that UTF-16 shows is spelled in two-byte units, behind a text of its own. -/
theorem Declares.units {order : ByteOrder} (h : Declares s) (hs : decodeUtf16 order front = some s) :
    ∃ word ∈ declarationWords, ∃ p, (decodeUtf16 order p).isSome ∧
      p ++ word.flatMap (asciiUnit order) <+: front := by
  obtain ⟨word, hword, p, q, rfl⟩ := h
  obtain ⟨pw, back, rfl, hpw, -⟩ := (prefixwise_decodeUtf16 order).append_inv hs
  obtain ⟨fp, fw, rfl, hp, hw⟩ := (prefixwise_decodeUtf16 order).append_inv hpw
  have hspelled := ((prefixwise_decodeUtf16 order).splitsInto hw).eq_flatMap
    (ascii_of_declarationWords word hword)
  exact ⟨word, hword, fp, Option.isSome_of_mem hp, by rw [← hspelled]; exact List.prefix_append _ _⟩

/-- Whatever is smuggled is read. -/
theorem Smuggles.not_clean (h : Smuggles parser data) : ¬parser.Clean data := by
  intro hclean
  rw [Smuggles] at h
  split at h
  · exact h
  · next order body hencoding =>
    obtain ⟨word, hword, front, hfront, hstart⟩ := h
    obtain ⟨s, hs⟩ := Option.isSome_iff_exists.mp hfront
    have hread : decodeUtf16 order (front ++ word.flatMap (asciiUnit order)) = some (s ++ word) := by
      rw [(prefixwise_decodeUtf16 order).append hs,
        decodeUtf16_flatMap (ascii_of_declarationWords word hword)]
      rfl
    refine hclean (s ++ word) ⟨front ++ word.flatMap (asciiUnit order), ?_, ?_⟩ ?_
    · rw [hencoding]
      exact hstart
    · rw [hencoding]
      exact hread
    exact ⟨word, hword, (List.suffix_append s word).isInfix⟩
  · next decode body hencoding =>
    obtain ⟨-, front, hstart, s, hs, hdeclares⟩ := h
    exact hclean s ⟨front, by rw [hencoding]; exact hstart, by rw [hencoding]; exact hs⟩ hdeclares

/-- **Nothing else gets past a guard** that refuses every word spelled in ASCII. -/
theorem clean_iff (hguard : ∀ word ∈ declarationWords, ¬asciiBytes word <:+: data) :
    parser.Clean data ↔ ¬Smuggles parser data := by
  refine ⟨fun hclean h ↦ h.not_clean hclean, fun hsmuggles s ⟨front, hstart, hs⟩ hdeclares ↦ ?_⟩
  have hoccurs : ∀ {word : Str}, asciiBytes word <:+: front → asciiBytes word <:+: data := fun h ↦
    h.trans (hstart.isInfix.trans (encoding_suffix parser data).isInfix)
  have htransparent : ∀ {decode : List UInt8 → Option Str}, AsciiTransparent decode →
      decode front = some s → False := by
    intro decode hdecode hs
    obtain ⟨word, hword, hspelled⟩ := hdeclares.spelled hdecode hs
    exact hguard word hword (hoccurs hspelled)
  rw [Smuggles] at hsmuggles
  split at hsmuggles
  · next body hencoding =>
    rw [hencoding] at hs
    exact htransparent asciiTransparent_decodeUtf8 hs
  · next order body hencoding =>
    rw [hencoding] at hs hstart
    obtain ⟨word, hword, p, hp, hunits⟩ := hdeclares.units hs
    exact hsmuggles ⟨word, hword, p, hp, hunits.trans hstart⟩
  · next decode body hencoding =>
    rw [hencoding] at hs hstart
    by_cases hdecode : AsciiTransparent decode
    · exact htransparent hdecode hs
    · exact hsmuggles ⟨hdecode, front, hstart, s, hs, hdeclares⟩

/-- The guard of DOCX and XLSX. -/
theorem clean_iff_of_guardXml {part : String} {maxXmlBytes : ℕ}
    (h : guardXml part maxXmlBytes data = .ok ()) : parser.Clean data ↔ ¬Smuggles parser data := by
  obtain ⟨-, h⟩ := require_bind_eq_ok.mp h
  exact clean_iff fun word hword hoccurs ↦ require_eq_ok.mp h (bytesDeclare_of_word hword hoccurs)

/-! ### HWPX -/

/-- Upper case leaves a word of upper case as it is. -/
theorem JavaCases.upper_word (cases : JavaCases) :
    ∀ word ∈ declarationWords, cases.upper word = word := by
  intro word hword
  have hall : ∀ word ∈ declarationWords, word.all (fun c ↦ ¬(97 ≤ c.val ∧ c.val ≤ 122)) = true := by
    decide
  have hchar : ∀ c ∈ word, cases.upperChar c = [c] := by
    intro c hc
    rw [cases.upper_ascii c (ascii_of_declarationWords word hword c hc), if_neg]
    exact of_decide_eq_true (List.all_eq_true.mp (hall word hword) c hc)
  rw [upper, List.flatMap_congr hchar]
  exact List.flatMap_singleton' word

theorem JavaCases.declares_upper (cases : JavaCases) (h : Declares s) : Declares (cases.upper s) := by
  obtain ⟨word, hword, p, q, rfl⟩ := h
  refine ⟨word, hword, cases.upper p, cases.upper q, ?_⟩
  have hupper := cases.upper_word word hword
  rw [upper] at hupper
  simp only [upper, List.flatMap_append, hupper]

theorem JavaCases.zero_mem_upper (cases : JavaCases) (h : 0 ∈ s) : 0 ∈ cases.upper s := by
  refine List.mem_flatMap.mpr ⟨0, h, ?_⟩
  rw [cases.upper_ascii 0 (by decide)]
  exact List.mem_singleton.mpr rfl

/-- What the guard of HWPX lets through: UTF-8 without zeros and without the words. -/
theorem scanXml_eq_ok {cases : JavaCases} (h : HwpxPreflight.scanXml cases data = .ok ()) :
    ∃ xml, decodeUtf8 data = some xml ∧ 0 ∉ xml ∧ ¬Declares xml := by
  rw [HwpxPreflight.scanXml] at h
  split at h
  · exact nomatch h
  · next xml hxml =>
    obtain ⟨hzero, h⟩ := require_bind_eq_ok.mp h
    exact ⟨xml, hxml, fun hmem ↦ hzero (cases.zero_mem_upper hmem),
      fun hdeclares ↦ require_eq_ok.mp h (cases.declares_upper hdeclares)⟩

/-- Every code unit of an ASCII character has a zero byte. -/
theorem zero_mem_asciiUnit (order : ByteOrder) (c : CodePoint) : 0 ∈ asciiUnit order c := by
  cases order <;> simp [asciiUnit]

/-- **No UTF-16 gets past the guard of HWPX.** Its byte order marks are not UTF-8, and its words hold zeros. -/
theorem not_units_of_scanXml {cases : JavaCases} (h : HwpxPreflight.scanXml cases data = .ok ())
    (hsmuggles : Smuggles parser data) : SmugglesOther parser data := by
  refine ⟨fun order horder ↦ ?_, hsmuggles⟩
  obtain ⟨xml, hxml, hzero, -⟩ := scanXml_eq_ok h
  rw [Smuggles] at hsmuggles
  split at hsmuggles
  · exact hsmuggles
  · next order body hencoding =>
    obtain ⟨word, hword, front, -, hstart⟩ := hsmuggles
    refine hzero (zero_mem_of_decodeUtf8 hxml ?_)
    have hsub := hstart.isInfix.trans (hencoding ▸ encoding_suffix parser data).isInfix
    refine hsub.subset (List.mem_append_right _ ?_)
    obtain ⟨c, hc⟩ : ∃ c, c ∈ word := List.exists_mem_of_ne_nil word (by
      rintro rfl
      exact absurd hword (by decide))
    exact List.mem_flatMap.mpr ⟨c, hc, zero_mem_asciiUnit order c⟩
  · next decode body hencoding =>
    rw [hencoding] at horder
    exact nomatch horder

theorem clean_iff_of_scanXml {cases : JavaCases} (h : HwpxPreflight.scanXml cases data = .ok ()) :
    parser.Clean data ↔ ¬SmugglesOther parser data := by
  obtain ⟨xml, hxml, -, hdeclares⟩ := scanXml_eq_ok h
  rw [clean_iff fun word hword hoccurs ↦ hdeclares ⟨word, hword,
    infix_of_asciiBytes hxml (ascii_of_declarationWords word hword) hoccurs⟩]
  exact not_congr ⟨not_units_of_scanXml h, And.right⟩

/-- Every entry of a package that is accepted has passed its turn. -/
theorem exists_verifyEntry {cases : JavaCases} {entries : List PackageEntry} {t t' : HwpxPreflight.Totals}
    (h : entries.foldlM (HwpxPreflight.verifyEntry cases) t = .ok t') {entry : PackageEntry}
    (hentry : entry ∈ entries) : ∃ t₀ t₁, HwpxPreflight.verifyEntry cases t₀ entry = .ok t₁ := by
  induction entries generalizing t with
  | nil => exact absurd hentry List.not_mem_nil
  | cons e entries ih =>
    obtain ⟨t₁, hstep, hrest⟩ := bind_eq_ok.mp h
    rcases List.mem_cons.mp hentry with rfl | hentry
    · exact ⟨t, t₁, hstep⟩
    · exact ih hrest hentry

theorem scanXml_of_verify {cases : JavaCases} {entries : List PackageEntry}
    (h : HwpxPreflight.verify cases entries = .ok ()) {entry : PackageEntry} (hentry : entry ∈ entries)
    (hfile : entry.isDirectory = false) (hxml : HwpxPreflight.IsXml cases entry.name) :
    HwpxPreflight.scanXml cases entry.content = .ok () := by
  obtain ⟨totals, hfold, -⟩ := bind_eq_ok.mp h
  obtain ⟨t₀, t₁, h⟩ := exists_verifyEntry hfold hentry
  obtain ⟨-, h⟩ := require_bind_eq_ok.mp h
  obtain ⟨-, -, h⟩ := bind_eq_ok.mp h
  obtain ⟨-, h⟩ := require_bind_eq_ok.mp h
  rw [hfile] at h
  obtain ⟨-, h⟩ := require_bind_eq_ok.mp h
  obtain ⟨-, h⟩ := require_bind_eq_ok.mp h
  obtain ⟨-, h⟩ := require_bind_eq_ok.mp h
  obtain ⟨-, h⟩ := require_bind_eq_ok.mp h
  obtain ⟨actual, hscan, -⟩ := bind_eq_ok.mp h
  obtain ⟨-, hscan⟩ := require_bind_eq_ok.mp hscan
  obtain ⟨-, hscan⟩ := require_bind_eq_ok.mp hscan
  obtain ⟨-, hscan⟩ := require_bind_eq_ok.mp hscan
  rw [if_pos hxml] at hscan
  obtain ⟨⟨⟩, hscan, -⟩ := bind_eq_ok.mp hscan
  exact hscan

end Guards

/-! ## Which declarations reach a parser -/

/-- **What the guards keep from a parser.** For a part that its guard accepts, no declaration reaches the
parser if and only if none is smuggled; for HWPX, in another encoding than UTF-16. -/
theorem accepted_part_clean_iff (parser : XmlParser) (cases : JavaCases) :
    (∀ maxXmlBytes part xml, documentXml maxXmlBytes part = .ok xml →
      (parser.Clean xml ↔ ¬Smuggles parser xml)) ∧
    (∀ maxXmlBytes part xml, coreXml maxXmlBytes part = .ok (some xml) →
      (parser.Clean xml ↔ ¬Smuggles parser xml)) ∧
    (∀ maxXmlBytes entry xml, readXml maxXmlBytes entry = .ok xml →
      (parser.Clean xml ↔ ¬Smuggles parser xml)) ∧
    ∀ entries, HwpxPreflight.verify cases entries = .ok () → ∀ entry ∈ entries,
      entry.isDirectory = false → HwpxPreflight.IsXml cases entry.name →
        (parser.Clean entry.content ↔ ¬SmugglesOther parser entry.content) := by
  refine ⟨fun maxXmlBytes part xml h ↦ ?_, fun maxXmlBytes part xml h ↦ ?_,
    fun maxXmlBytes entry xml h ↦ ?_, fun entries h entry hentry hfile hxml ↦ ?_⟩
  · cases part with
    | none => exact nomatch h
    | some part =>
      obtain ⟨⟨⟩, hguard, h⟩ := bind_eq_ok.mp h
      cases h
      exact clean_iff_of_guardXml hguard
  · rw [coreXml] at h
    split at h
    · exact nomatch h
    · obtain ⟨⟨⟩, hguard, h⟩ := bind_eq_ok.mp h
      cases h
      exact clean_iff_of_guardXml hguard
  · cases entry with
    | none => exact nomatch h
    | some info =>
      obtain ⟨-, h⟩ := require_bind_eq_ok.mp h
      split at h
      · exact nomatch h
      · obtain ⟨⟨⟩, hguard, h⟩ := bind_eq_ok.mp h
        cases h
        exact clean_iff_of_guardXml hguard
  · exact clean_iff_of_scanXml (scanXml_of_verify h hentry hfile hxml)

/-- A parser that takes every part without byte order mark for UTF-8. -/
def plainParser : XmlParser := ⟨fun _ ↦ .utf8⟩

/-- Cases that treat ASCII only. -/
def asciiCases : JavaCases where
  upperChar c := [if 97 ≤ c.val ∧ c.val ≤ 122 then c - 32 else c]
  lower s := s.map fun c ↦ if 65 ≤ c.val ∧ c.val ≤ 90 then c + 32 else c
  upper_ascii _ _ := rfl

def plainDocument : List UInt8 := asciiBytes (lit "<a>text</a>")

/-- A package of the media marker and one part. -/
def plainPackage : List PackageEntry :=
  [⟨lit "mimetype", false, 19, 19, HwpxPreflight.mediaMarker⟩,
    ⟨lit "Contents/section0.xml", false, 11, 11, plainDocument⟩]

theorem accepted_part_clean_iff_plainDocument :
    (plainParser.Clean plainDocument ↔ ¬Smuggles plainParser plainDocument) ∧
      (plainParser.Clean plainDocument ↔ ¬SmugglesOther plainParser plainDocument) := by
  obtain ⟨hdocument, -, -, hpackage⟩ := accepted_part_clean_iff plainParser asciiCases
  exact ⟨hdocument 8388608 (some plainDocument) plainDocument (by decide +kernel),
    hpackage plainPackage (by decide +kernel) _ (List.mem_cons_of_mem _ List.mem_cons_self) rfl
      (by decide +kernel)⟩

/-- A document in UTF-16 that declares an entity. -/
def wideDocument : List UInt8 :=
  [0xFF, 0xFE] ++ (lit "<!DOCTYPE a [<!ENTITY b \"c\">]><a>&b;</a>").flatMap (asciiUnit .little)

/-- The guards of DOCX and XLSX let a declaration in UTF-16 through. -/
theorem wide_declaration_accepted :
    ¬∀ (parser : XmlParser) (cases : JavaCases),
      (∀ maxXmlBytes part xml, documentXml maxXmlBytes part = .ok xml → parser.Clean xml) ∧
      (∀ maxXmlBytes part xml, coreXml maxXmlBytes part = .ok (some xml) → parser.Clean xml) ∧
      (∀ maxXmlBytes entry xml, readXml maxXmlBytes entry = .ok xml → parser.Clean xml) ∧
      ∀ entries, HwpxPreflight.verify cases entries = .ok () → ∀ entry ∈ entries,
        entry.isDirectory = false → HwpxPreflight.IsXml cases entry.name → parser.Clean entry.content := by
  intro h
  have hsmuggles : Smuggles plainParser wideDocument :=
    ⟨lit "<!DOCTYPE", by decide, [], rfl, by decide +kernel⟩
  have hclean := (h plainParser asciiCases).1 8388608 (some wideDocument) wideDocument (by decide +kernel)
  exact hsmuggles.not_clean hclean

end MeetingRag
