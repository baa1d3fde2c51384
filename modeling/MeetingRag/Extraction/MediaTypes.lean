import MeetingRag.Extraction.Tables
import MeetingRag.Ingestion.Normalization
import MeetingRag.Ingestion.XmlParts
import MeetingRag.Library.Url

/-!
# The type of an upload

The type of a file is found twice. The API takes it from the name that was declared and corrects it by
the first sixteen bytes of the upload; the sandbox sees the whole file, and looks at its first bytes
before its name. The two have tables of their own, and a file may carry the name of one format and the
magic of another: a PNG labelled as a JPEG is let through on both sides, and counts as a PNG on both.

## Main results

* `readChunks_spec`: the bytes that are kept aside are the first sixteen, however the stream is cut.
* `mediaType_of_inspectInput`, `mediaType_of_effectiveFileType`: what each side reports.
* `inspectInput_agrees`: where both accept, they report one type.
-/

open Outcome Py

namespace MeetingRag

namespace Media

/-! ## Names -/

def slash : CodePoint := codePoint '/'

def backslash : CodePoint := codePoint '\\'

def dot : CodePoint := codePoint '.'

/-- `PurePosixPath(path).name`: the last part that is neither empty nor a dot. -/
def pathName (path : Str) : Str :=
  (((path.splitOn slash).filter fun part ↦ part ≠ [] ∧ part ≠ [dot]).getLast?).getD []

/-- `name.rfind(c)`. -/
def rfind (c : CodePoint) (name : Str) : ℤ :=
  if c ∈ name then name.length - 1 - name.reverse.idxOf c else -1

/-- `PurePath.suffix`, of a name. -/
def suffix (name : Str) : Str :=
  if 0 < rfind dot name ∧ rfind dot name < name.length - 1 then name.drop (rfind dot name).toNat
  else []

/-- `path.replace("\\", "/")`. -/
def forwardSlashes (path : Str) : Str := path.map fun c ↦ if c = backslash then slash else c

theorem forwardSlashes_of_not_mem {path : Str} (h : backslash ∉ path) :
    forwardSlashes path = path := by
  have hsame : ∀ c ∈ path, (if c = backslash then slash else c) = id c := by
    intro c hc
    refine if_neg ?_
    rintro rfl
    exact h hc
  rw [forwardSlashes, List.map_congr_left hsame, List.map_id]

/-! ## Magic -/

def pdfMagic : List UInt8 := [0x25, 0x50, 0x44, 0x46, 0x2D]

def pngMagic : List UInt8 := [0x89, 0x50, 0x4E, 0x47, 0x0D, 0x0A, 0x1A, 0x0A]

def jpegMagic : List UInt8 := [0xFF, 0xD8, 0xFF]

def oleMagic : List UInt8 := [0xD0, 0xCF, 0x11, 0xE0, 0xA1, 0xB1, 0x1A, 0xE1]

def zipMagics : List (List UInt8) :=
  [[0x50, 0x4B, 0x03, 0x04], [0x50, 0x4B, 0x05, 0x06], [0x50, 0x4B, 0x07, 0x08]]

/-- The end of a PNG, and the end of a JPEG. -/
def pngEnd : List UInt8 := [0, 0, 0, 0, 0x49, 0x45, 0x4E, 0x44, 0xAE, 0x42, 0x60, 0x82]

def jpegEnd : List UInt8 := [0xFF, 0xD9]

/-! ## The API -/

/-- What an upload is refused with. -/
inductive UploadError
  | validation (message : String)
  | limit (message : String)
  | exc (e : Exc)
deriving DecidableEq

section Api

variable (U : Nfc) (k : Url.Casing)

/-- `_safe_filename`. -/
def safeFilename (filename : Str) : Except UploadError Str :=
  let normalized := U.nfc filename
  let unsafeName : UploadError := .validation "filename must be a safe basename"
  if normalized = [] then .error unsafeName
  else match encode normalized with
    | .error e => .error (.exc e)
    | .ok bytes =>
      if 255 < bytes.length ∨ pathName normalized ≠ normalized ∨
          ([slash, backslash, 0, 13, 10].any fun c ↦ c ∈ normalized) = true ∨
          normalized ∈ [lit ".", lit ".."] then .error unsafeName
      else .ok normalized

/-- `_DECLARED_MEDIA_TYPES`. -/
def declaredMediaTypes : List (String × List String) :=
  [(".pdf", ["application/pdf", "application/octet-stream"]),
    (".png", ["image/png", "application/octet-stream"]),
    (".jpg", ["image/jpeg", "application/octet-stream"]),
    (".jpeg", ["image/jpeg", "application/octet-stream"]),
    (".hwp", ["application/x-hwp", "application/haansofthwp", "application/vnd.hancom.hwp",
      "application/octet-stream"]),
    (".hwpx", ["application/x-hwpx", "application/haansofthwpx", "application/vnd.hancom.hwpx",
      "application/octet-stream"]),
    (".txt", ["text/plain", "text/markdown", "application/octet-stream"]),
    (".docx", ["application/vnd.openxmlformats-officedocument.wordprocessingml.document",
      "application/haansoftdocx", "application/zip", "application/octet-stream"]),
    (".pptx", ["application/vnd.openxmlformats-officedocument.presentationml.presentation",
      "application/haansoftpptx", "application/vnd.ms-powerpoint", "application/zip",
      "application/octet-stream"]),
    (".xlsx", ["application/vnd.openxmlformats-officedocument.spreadsheetml.sheet",
      "application/haansoftxlsx", "application/vnd.ms-excel", "application/zip",
      "application/octet-stream"])]

/-- `_FILE_TYPES.get(extension)`. -/
def fileTypeOf (extension : Str) : Option FileType :=
  fileTypes.find? fun t ↦ lit t.suffix = extension

/-- `_declared_file_type`. -/
def declaredFileType (filename mimeType : Str) : Except UploadError FileType :=
  let extension := k.lower (suffix (pathName filename))
  let declared :=
    if k.lower (strip mimeType) = [] then lit "application/octet-stream"
    else k.lower (strip mimeType)
  let unsupported : UploadError := .validation "file extension and media type are unsupported"
  match fileTypeOf extension with
  | none => .error unsupported
  | some fileType =>
    if ∃ entry ∈ declaredMediaTypes, lit entry.1 = extension ∧
        ∃ mediaType ∈ entry.2, lit mediaType = declared then .ok fileType
    else .error unsupported

/-- What has been read of a stream: its size, its first bytes and all that was written. -/
structure Staged where
  size : ℕ
  head : List UInt8
  written : List UInt8
deriving DecidableEq

def maxFileBytes : ℕ := 200 * 1024 * 1024

/-- The first bytes, with those of another chunk where they are too few. -/
def extendHead (head chunk : List UInt8) : List UInt8 :=
  if head.length < 16 then head ++ chunk.take (16 - head.length) else head

/-- The loop over the chunks of a stream, up to an empty one. -/
def readChunks (staged : Staged) : List (List UInt8) → Except UploadError Staged
  | [] => .ok staged
  | chunk :: rest =>
    if chunk = [] then .ok staged
    else if staged.size + chunk.length > maxFileBytes then
      .error (.limit "file exceeds the upload limit")
    else
      readChunks ⟨staged.size + chunk.length, extendHead staged.head chunk,
        staged.written ++ chunk⟩ rest

/-- `_stream_to_file`. -/
def streamToFile (chunks : List (List UInt8)) (contentLength : Option ℤ) :
    Except UploadError Staged := do
  require (∀ n ∈ contentLength, n ≤ maxFileBytes) (.limit "file exceeds the upload limit")
  require (∀ n ∈ contentLength, 1 ≤ n) (.validation "file size is invalid")
  let staged ← readChunks ⟨0, [], []⟩ chunks
  require (staged.size ≠ 0 ∧ ∀ n ∈ contentLength, (staged.size : ℤ) = n)
    (.validation "file size does not match the upload")
  .ok staged

/-- The check of `_require_magic` for one media type. -/
def hasMagic (head : List UInt8) : MediaType → Bool
  | .pdf => pdfMagic <+: head
  | .png => pngMagic <+: head
  | .jpeg => jpegMagic <+: head
  | .hwp => oleMagic <+: head
  | .text => (0 : UInt8) ∉ head
  | .hwpx | .docx | .pptx | .xlsx =>
    decide ([0x50, 0x4B, 0x03, 0x04] <+: head ∨ [0x50, 0x4B, 0x05, 0x06] <+: head)

/-- `_require_magic`. -/
def requireMagic (fileType : FileType) (head : List UInt8) : Except UploadError Unit :=
  require (hasMagic head fileType.mediaType = true)
    (.validation "file content does not match its declared type")

/-- `_FILE_TYPES[".png"]`. -/
def pngType : FileType := ⟨".png", .png, ⟨"pillow+tesseract-cli", "12.3.0+5.3.0"⟩⟩

/-- `_effective_file_type`. -/
def effectiveFileType (fileType : FileType) (head : List UInt8) : Except UploadError FileType := do
  let fileType := if fileType.mediaType = .jpeg ∧ pngMagic <+: head then pngType else fileType
  requireMagic fileType head
  .ok fileType

/-- What `submit` has found out about an upload before it stores anything. -/
structure Accepted where
  filename : Str
  data : List UInt8
  fileType : FileType
deriving DecidableEq

/-- The checks of `submit` on the name, the declared type and the content of an upload. -/
def acceptUpload (filename declaredMimeType : Str) (chunks : List (List UInt8))
    (contentLength : Option ℤ) : Except UploadError Accepted := do
  let safeName ← safeFilename U filename
  let fileType ← declaredFileType k safeName declaredMimeType
  let staged ← streamToFile chunks contentLength
  let fileType ← effectiveFileType fileType staged.head
  .ok ⟨safeName, staged.written, fileType⟩

end Api

/-! ## The sandbox -/

/-- `_media_from_magic`. -/
def mediaFromMagic (data : List UInt8) : Option MediaType :=
  if pdfMagic <+: data then some .pdf
  else if pngMagic <+: data then some .png
  else if jpegMagic <+: data then some .jpeg
  else if oleMagic <+: data then some .hwp
  else if ∃ magic ∈ zipMagics, magic <+: data then some .hwpx
  else none

/-- `_EXTENSIONS`. -/
def extensions : List (String × MediaType) :=
  [(".pdf", .pdf), (".png", .png), (".jpg", .jpeg), (".jpeg", .jpeg), (".hwp", .hwp),
    (".hwpx", .hwpx), (".docx", .docx), (".pptx", .pptx), (".xlsx", .xlsx)]

/-- `_EXTENSIONS.get(suffix)`. -/
def extensionType (suffix : Str) : Option MediaType :=
  (extensions.find? fun entry ↦ lit entry.1 = suffix).map Prod.snd

section Sandbox

variable (k : Url.Casing)

/-- `_extension`. -/
def extension (filename : Option Str) : Option Str :=
  filename.bind fun filename ↦
    let suffix := k.lower (suffix (pathName (forwardSlashes filename)))
    if suffix = [] then none else some suffix

/-- `MediaInfo`. -/
structure MediaInfo where
  mediaType : MediaType
  extension : Option Str
deriving DecidableEq

/-- `inspect_input`, under a policy that admits so many bytes. -/
def inspectInput (data : List UInt8) (filename : Option Str) (maxInputBytes : ℕ) :
    Except ExtractionFailure MediaInfo := do
  require (data ≠ []) ⟨"EMPTY_INPUT", "input document is empty"⟩
  require (data.length ≤ maxInputBytes)
    ⟨"INPUT_TOO_LARGE", "input exceeds configured byte limit"⟩
  let suffix := extension k filename
  let byName := suffix.bind extensionType
  match mediaFromMagic data with
  | none =>
    .error ⟨"UNSUPPORTED_MEDIA_TYPE", "input magic is not a supported document type"⟩
  | some magicType => do
    require (suffix = none ∨ byName ≠ none)
      ⟨"UNSUPPORTED_MEDIA_TYPE", "filename extension is not supported"⟩
    let zipOfficeMatch := magicType = .hwpx ∧
      byName ∈ [some .hwpx, some .docx, some .pptx, some .xlsx]
    let jpegLabelledPng := magicType = .png ∧ byName = some .jpeg ∧
      suffix ∈ [some (lit ".jpg"), some (lit ".jpeg")]
    require (¬(byName ≠ none ∧ byName ≠ some magicType ∧ ¬zipOfficeMatch ∧ ¬jpegLabelledPng))
      ⟨"TYPE_MISMATCH", "filename extension does not match input magic"⟩
    require (¬(magicType = .hwpx ∧ ¬zipOfficeMatch))
      ⟨"UNSUPPORTED_MEDIA_TYPE",
        "ZIP input must be explicitly identified as a supported Office package"⟩
    let mediaType :=
      if magicType = .hwpx ∧ byName ∈ [some .docx, some .pptx, some .xlsx] then
        byName.getD magicType
      else magicType
    require (¬(mediaType = .png ∧ ¬pngEnd <:+ data))
      ⟨"CORRUPT_DOCUMENT", "PNG input is truncated or contains trailing polyglot data"⟩
    require (¬(mediaType = .jpeg ∧ ¬jpegEnd <:+ data))
      ⟨"CORRUPT_DOCUMENT", "JPEG input is truncated or contains trailing polyglot data"⟩
    .ok ⟨mediaType, suffix⟩

end Sandbox

/-! ## The first bytes -/

theorem extendHead_take (written chunk : List UInt8) :
    extendHead (written.take 16) chunk = (written ++ chunk).take 16 := by
  rw [extendHead, List.take_append, List.length_take]
  split
  · rename_i hshort
    rw [Nat.min_eq_right (by omega)]
  · rename_i hlong
    rw [Nat.sub_eq_zero_of_le (by omega), List.take_zero, List.append_nil]

/-- **The bytes that are kept aside are the first sixteen**, however the stream is cut. -/
theorem readChunks_spec {staged result : Staged} {chunks : List (List UInt8)}
    (hhead : staged.head = staged.written.take 16) (h : readChunks staged chunks = .ok result) :
    result.head = result.written.take 16 := by
  induction chunks generalizing staged with
  | nil =>
    obtain rfl := Except.ok.inj h
    exact hhead
  | cons chunk rest ih =>
    rw [readChunks] at h
    split at h
    · obtain rfl := Except.ok.inj h
      exact hhead
    split at h
    · exact nomatch h
    · exact ih (by rw [hhead]; exact extendHead_take _ _) h

theorem head_of_streamToFile {chunks : List (List UInt8)} {contentLength : Option ℤ}
    {staged : Staged} (h : streamToFile chunks contentLength = .ok staged) :
    staged.head = staged.written.take 16 := by
  simp only [streamToFile, bind_eq_ok, require_eq_ok, exists_const, Except.ok.injEq] at h
  obtain ⟨-, -, result, hread, -, rfl⟩ := h
  exact readChunks_spec rfl hread

/-- The magic of a PNG is found in the first bytes exactly where it is found in the file. -/
theorem pngMagic_prefix_take (data : List UInt8) :
    pngMagic <+: data.take 16 ↔ pngMagic <+: data := by
  rw [List.prefix_take_iff]
  exact and_iff_left (by decide)

/-! ## What each side reports -/

/-- A safe name is read by both sides in the same way. -/
theorem forwardSlashes_of_safe {U : Nfc} {filename name : Str}
    (h : safeFilename U filename = .ok name) : forwardSlashes name = name := by
  refine forwardSlashes_of_not_mem fun hmem ↦ ?_
  rw [safeFilename] at h
  split at h
  · exact nomatch h
  split at h
  · exact nomatch h
  split at h
  · exact nomatch h
  · rename_i hsafe
    obtain rfl := Except.ok.inj h
    exact hsafe (.inr (.inr (.inl (List.any_eq_true.mpr ⟨backslash, by simp, by simpa using hmem⟩))))

/-- The declared type is an entry of the table, under the extension of the name. -/
theorem declaredFileType_spec {k : Url.Casing} {filename mimeType : Str} {t : FileType}
    (h : declaredFileType k filename mimeType = .ok t) :
    t ∈ fileTypes ∧ lit t.suffix = k.lower (suffix (pathName filename)) := by
  simp only [declaredFileType] at h
  generalize (if k.lower (strip mimeType) = [] then lit "application/octet-stream"
    else k.lower (strip mimeType)) = declared at h
  cases hfound : fileTypeOf (k.lower (suffix (pathName filename))) with
  | none =>
    simp only [hfound] at h
    exact nomatch h
  | some fileType =>
    simp only [hfound] at h
    split at h
    · obtain rfl := Except.ok.inj h
      exact ⟨List.mem_of_find?_eq_some hfound, by simpa using List.find?_some hfound⟩
    · exact nomatch h

/-- The type that is stored: the declared one, or that of a PNG that is labelled as a JPEG. -/
theorem mediaType_of_effectiveFileType {t t' : FileType} {head : List UInt8} (ht : t ∈ fileTypes)
    (h : effectiveFileType t head = .ok t') :
    t' ∈ fileTypes ∧
      t'.mediaType = if t.mediaType = .jpeg ∧ pngMagic <+: head then .png else t.mediaType := by
  simp only [effectiveFileType, requireMagic, bind_eq_ok, require_eq_ok, exists_const,
    Except.ok.injEq] at h
  obtain ⟨-, rfl⟩ := h
  split
  · exact ⟨by decide, rfl⟩
  · exact ⟨ht, rfl⟩

theorem fileTypes_suffix : ∀ t ∈ fileTypes, lit t.suffix ≠ [] := by
  decide

/-- The tables of the two sides agree, except that the sandbox knows no text. -/
theorem extensionType_fileTypes : ∀ t ∈ fileTypes, t.mediaType ≠ .text →
    extensionType (lit t.suffix) = some t.mediaType := by
  decide

theorem pngMagic_of_mediaFromMagic {data : List UInt8} (h : mediaFromMagic data = some .png) :
    pngMagic <+: data := by
  rw [mediaFromMagic] at h
  split_ifs at h <;> first | assumption | exact nomatch h

theorem not_pngMagic_of_mediaFromMagic {data : List UInt8} (h : mediaFromMagic data = some .jpeg) :
    ¬pngMagic <+: data := by
  rw [mediaFromMagic] at h
  split_ifs at h <;> first | assumption | exact nomatch h

/-- **What the sandbox reports** of a file whose name gives a type. -/
theorem mediaType_of_inspectInput {k : Url.Casing} {data : List UInt8} {filename : Option Str}
    {maxInputBytes : ℕ} {info : MediaInfo} {m : MediaType}
    (hname : (extension k filename).bind extensionType = some m)
    (h : inspectInput k data filename maxInputBytes = .ok info) :
    info.mediaType = if m = .jpeg ∧ pngMagic <+: data then .png else m := by
  simp only [inspectInput, bind_eq_ok, require_eq_ok, exists_const] at h
  obtain ⟨-, -, h⟩ := h
  cases hmagic : mediaFromMagic data with
  | none =>
    simp only [hmagic] at h
    cases h
  | some magicType =>
    simp only [hmagic, hname, bind_eq_ok, require_eq_ok, exists_const, Except.ok.injEq] at h
    obtain ⟨-, hmatch, -, -, -, rfl⟩ := h
    by_cases hsame : m = magicType
    · -- The magic is that of the name, and a JPEG has not the magic of a PNG.
      subst hsame
      have hjpeg : ¬(m = .jpeg ∧ pngMagic <+: data) := by
        rintro ⟨rfl, hpng⟩
        exact not_pngMagic_of_mediaFromMagic hmagic hpng
      have hzip : ¬(m = .hwpx ∧ some m ∈ [some .docx, some .pptx, some .xlsx]) := by
        rintro ⟨rfl, hmem⟩
        revert hmem
        decide
      rw [if_neg hjpeg, if_neg hzip]
    · -- Otherwise the mismatch is one of the two that are let through.
      have hlet : magicType = .hwpx ∧ some m ∈ [some MediaType.hwpx, some .docx, some .pptx,
          some .xlsx] ∨ magicType = .png ∧ m = .jpeg := by
        by_contra hneither
        refine hmatch ⟨Option.some_ne_none m, fun heq ↦ hsame (Option.some.inj heq), ?_, ?_⟩
        · exact fun hoffice ↦ hneither (.inl hoffice)
        · exact fun hpng ↦ hneither (.inr ⟨hpng.1, Option.some.inj hpng.2.1⟩)
      obtain ⟨rfl, hoffice⟩ | ⟨rfl, rfl⟩ := hlet
      · have hzip : some m ∈ [some MediaType.docx, some .pptx, some .xlsx] :=
          (List.mem_cons.mp hoffice).resolve_left fun heq ↦ hsame (Option.some.inj heq)
        have hjpeg : m ≠ .jpeg := by
          rintro rfl
          revert hzip
          decide
        rw [if_pos ⟨rfl, hzip⟩, if_neg fun hj ↦ hjpeg hj.1]
        rfl
      · have hpng := pngMagic_of_mediaFromMagic hmagic
        rw [if_neg (by decide), if_pos ⟨rfl, hpng⟩]

/-- **Where both sides accept, they report one type**, and the parser that the upload is queued for
is the parser of what the sandbox has found. -/
theorem inspectInput_agrees (U : Nfc) (k : Url.Casing) (filename declaredMimeType : Str)
    (chunks : List (List UInt8)) (contentLength : Option ℤ) (maxInputBytes : ℕ)
    (upload : Accepted) (info : MediaInfo)
    (haccepted : acceptUpload U k filename declaredMimeType chunks contentLength = .ok upload)
    (htext : upload.fileType.mediaType ≠ .text)
    (hinspected : inspectInput k upload.data (some upload.filename) maxInputBytes = .ok info) :
    info.mediaType = upload.fileType.mediaType ∧
      parserByMedia info.mediaType = upload.fileType.parser := by
  simp only [acceptUpload, bind_eq_ok, Except.ok.injEq] at haccepted
  obtain ⟨name, hsafe, declared, hdeclared, staged, hstaged, effective, heffective, rfl⟩ := haccepted
  obtain ⟨hmem, hsuffix⟩ := declaredFileType_spec hdeclared
  obtain ⟨hmem', hmedia⟩ := mediaType_of_effectiveFileType hmem heffective
  simp only [head_of_streamToFile hstaged, pngMagic_prefix_take] at hmedia
  -- Both sides look the same extension up, in tables that agree.
  have hdeclaredText : declared.mediaType ≠ .text := by
    intro heq
    rw [heq] at hmedia
    exact htext hmedia
  have hextension : extension k (some name) = some (lit declared.suffix) := by
    have hnonempty : lit declared.suffix ≠ [] := fileTypes_suffix declared hmem
    rw [extension, Option.bind_some, forwardSlashes_of_safe hsafe, ← hsuffix, if_neg hnonempty]
  have hname : (extension k (some name)).bind extensionType = some declared.mediaType := by
    rw [hextension, Option.bind_some, extensionType_fileTypes declared hmem hdeclaredText]
  have hsame : info.mediaType = effective.mediaType := by
    rw [mediaType_of_inspectInput hname hinspected, hmedia]
  exact ⟨hsame, hsame ▸ parserByMedia_fileTypes effective hmem'⟩

/-- A PNG in two chunks, under the name of a JPEG. -/
def labelledPng : List (List UInt8) := [pngMagic.take 3, pngMagic.drop 3 ++ pngEnd]



theorem labelledPng_agrees :
    MediaType.png = MediaType.png ∧ parserByMedia .png = pngType.parser :=
  inspectInput_agrees Nfc.ascii Url.Casing.onlyAscii (lit "photo.JPG") (lit "image/jpeg")
    labelledPng (some 20) 100 ⟨lit "photo.JPG", labelledPng.flatten, pngType⟩
    ⟨.png, some (lit ".jpg")⟩ (by decide) (by decide) (by decide)

end Media

end MeetingRag
