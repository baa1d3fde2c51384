import MeetingRag.Ingestion.Normalization
import MeetingRag.Library.Lists

/-!
# The collector of the HWP sidecar

The sidecar walks over a document and hands every paragraph, table cell and footnote to a collector,
under the place it was found at. The two extractors read different libraries and then do the same: both
are brought to `BodyParagraph` here, and the walk is written once.

No place is visited twice (`pairwise_documentCalls`): along every list the index grows, and the tables
and the footnotes of a paragraph are counted separately.
-/

open Lists Outcome Py

namespace MeetingRag

namespace Sidecar

/-! ## Records -/

/-- `RecordKind`. -/
inductive RecordKind
  | paragraph | tableCell | footnote
deriving DecidableEq, Repr

def RecordKind.value : RecordKind → String
  | paragraph => "paragraph"
  | tableCell => "table_cell"
  | footnote => "footnote"

/-- What a locator says beyond the paragraph: nothing, or a complete path. -/
inductive LocatorPath
  | body
  | table (table tableBlock tableRow cell cellParagraph : ℕ)
  | footnote (footnote footnoteParagraph : ℕ)
deriving DecidableEq, Repr

def LocatorPath.indexes : LocatorPath → List ℕ
  | .body => []
  | .table i tableBlock tableRow cell cellParagraph =>
    [i, tableBlock, tableRow, cell, cellParagraph]
  | .footnote i footnoteParagraph => [i, footnoteParagraph]

structure Locator where
  sectionIndex : ℕ
  paragraph : ℕ
  path : LocatorPath
deriving DecidableEq, Repr

namespace Locator

def indexes (l : Locator) : List ℕ := l.sectionIndex :: l.paragraph :: l.path.indexes

/-- The counters are `int`: one that passes the largest turns negative, and the constructor throws. -/
def Constructible (l : Locator) : Prop := ∀ i ∈ l.indexes, i < 2 ^ 31

instance (l : Locator) : Decidable l.Constructible :=
  inferInstanceAs (Decidable (∀ i ∈ l.indexes, i < 2 ^ 31))

/-- The kind of the records at a place. -/
def kind (l : Locator) : RecordKind :=
  match l.path with
  | .body => .paragraph
  | .table .. => .tableCell
  | .footnote .. => .footnote

end Locator

structure ExtractedRecord where
  kind : RecordKind
  text : Str
  locator : Locator
deriving DecidableEq

/-! ## The collector -/

/-- `ExtractionFailure`. -/
structure ExtractionFailure where
  code : String
  publicMessage : String
deriving DecidableEq, Repr

structure RecordCollector where
  records : List ExtractedRecord
  warnings : List String
  totalCodePoints : ℕ
deriving DecidableEq

def maxRecords : ℕ := 10000
def maxRecordCodePoints : ℕ := 100000
def maxTotalCodePoints : ℕ := 1000000

/-- `Character.isWhitespace`. -/
def isWhitespace (c : CodePoint) : Bool :=
  c.val ∈ [9, 10, 11, 12, 13, 28, 29, 30, 31, 32, 0x1680, 0x2028, 0x2029, 0x205F, 0x3000] ∨
    (0x2000 ≤ c.val ∧ c.val ≤ 0x200A ∧ c.val ≠ 0x2007)

/-- `String.isBlank`. -/
def IsBlank (s : Str) : Prop := s.all isWhitespace = true

instance (s : Str) : Decidable (IsBlank s) := inferInstanceAs (Decidable (_ = true))

/-- `matches("[A-Z][A-Z0-9_]*")`. -/
def isWarningName (warning : String) : Bool :=
  match warning.toList with
  | [] => false
  | c :: rest => c.isUpper && rest.all fun d ↦ d.isUpper || d.isDigit || d = '_'

namespace RecordCollector

def empty : RecordCollector := ⟨[], [], 0⟩

/-- A string of Java is the list of its code points, a lone surrogate standing for itself, so
`hasValidSurrogates` says that there is none. -/
def add (U : Nfc) (kind : RecordKind) (rawText : Str) (locator : Locator) (c : RecordCollector) :
    Except ExtractionFailure RecordCollector :=
  let text := U.normalizeText rawText
  if IsBlank text then .ok c
  else do
    require (Scalar text)
      ⟨"CORRUPT_DOCUMENT", "The document contains malformed Unicode text."⟩
    require (text.length ≤ maxRecordCodePoints)
      ⟨"OUTPUT_LIMIT_EXCEEDED", "A document text record exceeds the approved output bound."⟩
    require (c.records.length < maxRecords ∧ c.totalCodePoints + text.length ≤ maxTotalCodePoints)
      ⟨"OUTPUT_LIMIT_EXCEEDED", "The extracted document exceeds the approved output bound."⟩
    .ok { c with
      records := c.records ++ [⟨kind, text, locator⟩]
      totalCodePoints := c.totalCodePoints + text.length }

/-- A `LinkedHashSet` keeps the first of equal warnings. -/
def warn (warning : String) (c : RecordCollector) : RecordCollector :=
  if isWarningName warning = true ∧ warning ∉ c.warnings then
    { c with warnings := c.warnings ++ [warning] }
  else c

end RecordCollector

/-! ## The walk -/

/-- A paragraph inside a cell or a footnote, and whether controls in it are skipped. -/
structure NestedParagraph where
  rawText : Str
  hasControls : Bool
deriving DecidableEq

/-- A control of a paragraph, with the paragraphs of its cells. -/
inductive BodyControl
  | table (tableBlock : ℕ) (rows : List (List (List NestedParagraph)))
  | footnote (paragraphs : List NestedParagraph)
  | endnote
  | other
deriving DecidableEq

structure BodyParagraph where
  rawText : Str
  controls : List BodyControl
deriving DecidableEq

/-- What the walk asks of the collector. -/
inductive CollectorCall
  | add (kind : RecordKind) (rawText : Str) (locator : Locator)
  | warn (warning : String)
deriving DecidableEq

def CollectorCall.locator? : CollectorCall → Option Locator
  | add _ _ locator => some locator
  | warn _ => none

section Walk

variable (sectionIndex paragraph : ℕ)

/-- The innermost loop of `extractTable`. -/
def cellCalls (table tableBlock row cell : ℕ) (paragraphs : List NestedParagraph) :
    List CollectorCall :=
  paragraphs.zipIdx.flatMap fun nested ↦
    .add .tableCell nested.1.rawText
        ⟨sectionIndex, paragraph, .table table tableBlock row cell nested.2⟩ ::
      if nested.1.hasControls then [.warn "NESTED_CONTROL_SKIPPED"] else []

def rowCalls (table tableBlock row : ℕ) (cells : List (List NestedParagraph)) :
    List CollectorCall :=
  cells.zipIdx.flatMap fun cell ↦
    cellCalls sectionIndex paragraph table tableBlock row cell.2 cell.1

/-- `extractTable`. -/
def tableCalls (table tableBlock : ℕ) (rows : List (List (List NestedParagraph))) :
    List CollectorCall :=
  rows.zipIdx.flatMap fun row ↦ rowCalls sectionIndex paragraph table tableBlock row.2 row.1

/-- `extractFootnote`. -/
def footnoteCalls (footnote : ℕ) (paragraphs : List NestedParagraph) : List CollectorCall :=
  paragraphs.zipIdx.flatMap fun nested ↦
    [.add .footnote nested.1.rawText ⟨sectionIndex, paragraph, .footnote footnote nested.2⟩]

/-- The loop of `extractParagraph`, with `tableIndex` and `footnoteIndex`. -/
def controlCalls (tableIndex footnoteIndex : ℕ) : List BodyControl → List CollectorCall
  | [] => []
  | .table tableBlock rows :: controls =>
    tableCalls sectionIndex paragraph tableIndex tableBlock rows ++
      controlCalls (tableIndex + 1) footnoteIndex controls
  | .footnote paragraphs :: controls =>
    footnoteCalls sectionIndex paragraph footnoteIndex paragraphs ++
      controlCalls tableIndex (footnoteIndex + 1) controls
  | .endnote :: controls =>
    .warn "UNSUPPORTED_ENDNOTE" :: controlCalls tableIndex footnoteIndex controls
  | .other :: controls => controlCalls tableIndex footnoteIndex controls

/-- `extractParagraph`. -/
def paragraphCalls (body : BodyParagraph) : List CollectorCall :=
  .add .paragraph body.rawText ⟨sectionIndex, paragraph, .body⟩ ::
    controlCalls sectionIndex paragraph 0 0 body.controls

end Walk

/-- `extract`. -/
def documentCalls (sections : List (List BodyParagraph)) : List CollectorCall :=
  sections.zipIdx.flatMap fun s ↦ s.1.zipIdx.flatMap fun p ↦ paragraphCalls s.2 p.2 p.1

/-- One call. -/
def collectCall (U : Nfc) (c : RecordCollector) : CollectorCall →
    Except ExtractionFailure RecordCollector
  | .add kind rawText locator => do
    require locator.Constructible
      ⟨"CORRUPT_DOCUMENT", "The document parser could not safely read this input."⟩
    c.add U kind rawText locator
  | .warn warning => .ok (c.warn warning)

/-- The walk over a document, and the warning of one without text. -/
def collect (U : Nfc) (sections : List (List BodyParagraph)) :
    Except ExtractionFailure RecordCollector := do
  let c ← (documentCalls sections).foldlM (collectCall U) .empty
  .ok (if c.records = [] then c.warn "NO_EXTRACTABLE_TEXT" else c)

/-! ## No place twice -/

/-- Two calls that add records do so at different places. -/
def Apart (c d : CollectorCall) : Prop :=
  ∀ k ∈ c.locator?, ∀ l ∈ d.locator?, k ≠ l

/-- Calls at places that some number tells apart. -/
theorem apart_of_key {c d : CollectorCall} {k : Locator → ℕ} {m n : ℕ} (hne : m ≠ n)
    (hc : ∀ l ∈ c.locator?, k l = m) (hd : ∀ l ∈ d.locator?, k l = n) : Apart c d := by
  rintro l hl _ hl' rfl
  exact hne ((hc l hl).symm.trans (hd l hl'))

section Places

variable {s p t b f : ℕ}

theorem locator_cellCalls {r k : ℕ} {paragraphs : List NestedParagraph} {c : CollectorCall}
    (hc : c ∈ cellCalls s p t b r k paragraphs) {l : Locator} (hl : l ∈ c.locator?) :
    ∃ n, l = ⟨s, p, .table t b r k n⟩ := by
  obtain ⟨nested, -, hc⟩ := List.mem_flatMap.mp hc
  rcases List.mem_cons.mp hc with rfl | hc
  · cases hl
    exact ⟨nested.2, rfl⟩
  · split at hc
    · rw [List.mem_singleton.mp hc] at hl
      exact nomatch hl
    · exact absurd hc List.not_mem_nil

theorem locator_rowCalls {r : ℕ} {cells : List (List NestedParagraph)} {c : CollectorCall}
    (hc : c ∈ rowCalls s p t b r cells) {l : Locator} (hl : l ∈ c.locator?) :
    ∃ k n, l = ⟨s, p, .table t b r k n⟩ := by
  obtain ⟨cell, -, hc⟩ := List.mem_flatMap.mp hc
  exact ⟨cell.2, locator_cellCalls hc hl⟩

theorem locator_tableCalls {rows : List (List (List NestedParagraph))} {c : CollectorCall}
    (hc : c ∈ tableCalls s p t b rows) {l : Locator} (hl : l ∈ c.locator?) :
    ∃ r k n, l = ⟨s, p, .table t b r k n⟩ := by
  obtain ⟨row, -, hc⟩ := List.mem_flatMap.mp hc
  exact ⟨row.2, locator_rowCalls hc hl⟩

theorem locator_footnoteCalls {paragraphs : List NestedParagraph} {c : CollectorCall}
    (hc : c ∈ footnoteCalls s p f paragraphs) {l : Locator} (hl : l ∈ c.locator?) :
    ∃ n, l = ⟨s, p, .footnote f n⟩ := by
  obtain ⟨nested, -, hc⟩ := List.mem_flatMap.mp hc
  rw [List.mem_singleton.mp hc] at hl
  cases hl
  exact ⟨nested.2, rfl⟩

/-- The place of a control: a table or a footnote that is counted from here on. -/
theorem locator_controlCalls {controls : List BodyControl} {c : CollectorCall}
    (hc : c ∈ controlCalls s p t f controls) {l : Locator} (hl : l ∈ c.locator?) :
    (∃ t' b r k n, t ≤ t' ∧ l = ⟨s, p, .table t' b r k n⟩) ∨
      ∃ f' n, f ≤ f' ∧ l = ⟨s, p, .footnote f' n⟩ := by
  induction controls generalizing t f with
  | nil => exact absurd hc List.not_mem_nil
  | cons control controls ih =>
    cases control with
    | table b rows =>
      rcases List.mem_append.mp hc with hc | hc
      · obtain ⟨r, k, n, hplace⟩ := locator_tableCalls hc hl
        exact Or.inl ⟨t, b, r, k, n, le_refl t, hplace⟩
      · rcases ih hc with ⟨t', b', r, k, n, hle, hplace⟩ | hfootnote
        · exact Or.inl ⟨t', b', r, k, n, (Nat.le_succ t).trans hle, hplace⟩
        · exact Or.inr hfootnote
    | footnote paragraphs =>
      rcases List.mem_append.mp hc with hc | hc
      · obtain ⟨n, hplace⟩ := locator_footnoteCalls hc hl
        exact Or.inr ⟨f, n, le_refl f, hplace⟩
      · rcases ih hc with htable | ⟨f', n, hle, hplace⟩
        · exact Or.inl htable
        · exact Or.inr ⟨f', n, (Nat.le_succ f).trans hle, hplace⟩
    | endnote =>
      rcases List.mem_cons.mp hc with rfl | hc
      · exact nomatch hl
      · exact ih hc
    | other => exact ih hc

theorem locator_paragraphCalls {body : BodyParagraph} {c : CollectorCall}
    (hc : c ∈ paragraphCalls s p body) {l : Locator} (hl : l ∈ c.locator?) :
    l.sectionIndex = s ∧ l.paragraph = p := by
  rcases List.mem_cons.mp hc with rfl | hc
  · cases hl
    exact ⟨rfl, rfl⟩
  · rcases locator_controlCalls hc hl with ⟨_, _, _, _, _, -, rfl⟩ | ⟨_, _, -, rfl⟩
    · exact ⟨rfl, rfl⟩
    · exact ⟨rfl, rfl⟩

/-- The number that a table, row, cell or paragraph has at some place of the path. -/
def Locator.at (i : ℕ) (l : Locator) : ℕ := l.path.indexes.getD i 0

theorem pairwise_cellCalls (r k : ℕ) (paragraphs : List NestedParagraph) :
    (cellCalls s p t b r k paragraphs).Pairwise Apart := by
  have hplace : ∀ nested : NestedParagraph × ℕ, ∀ c ∈ (CollectorCall.add .tableCell nested.1.rawText
      ⟨s, p, .table t b r k nested.2⟩ ::
        if nested.1.hasControls then [.warn "NESTED_CONTROL_SKIPPED"] else []),
      ∀ l ∈ c.locator?, l = ⟨s, p, .table t b r k nested.2⟩ := by
    intro nested c hc l hl
    rcases List.mem_cons.mp hc with rfl | hc
    · exact (Option.some.inj hl).symm
    · split at hc
      · rw [List.mem_singleton.mp hc] at hl
        exact nomatch hl
      · exact absurd hc List.not_mem_nil
  refine pairwise_zipIdx (fun nested ↦ ?_) fun m n hne c hc d hd ↦ ?_
  · rw [List.pairwise_cons]
    split
    · refine ⟨fun d hd ↦ ?_, List.pairwise_singleton _ _⟩
      rw [List.mem_singleton.mp hd]
      exact fun _ _ _ hl ↦ nomatch hl
    · exact ⟨fun _ h ↦ absurd h List.not_mem_nil, List.Pairwise.nil⟩
  · exact apart_of_key (k := Locator.at 4) hne (fun l hl ↦ by rw [hplace m c hc l hl]; rfl)
      fun l hl ↦ by rw [hplace n d hd l hl]; rfl

theorem pairwise_rowCalls (r : ℕ) (cells : List (List NestedParagraph)) :
    (rowCalls s p t b r cells).Pairwise Apart := by
  refine pairwise_zipIdx (fun cell ↦ pairwise_cellCalls r cell.2 cell.1) fun m n hne c hc d hd ↦ ?_
  refine apart_of_key (k := Locator.at 3) hne (fun l hl ↦ ?_) fun l hl ↦ ?_
  · obtain ⟨_, rfl⟩ := locator_cellCalls hc hl
    rfl
  · obtain ⟨_, rfl⟩ := locator_cellCalls hd hl
    rfl

theorem pairwise_tableCalls (rows : List (List (List NestedParagraph))) :
    (tableCalls s p t b rows).Pairwise Apart := by
  refine pairwise_zipIdx (fun row ↦ pairwise_rowCalls row.2 row.1) fun m n hne c hc d hd ↦ ?_
  refine apart_of_key (k := Locator.at 2) hne (fun l hl ↦ ?_) fun l hl ↦ ?_
  · obtain ⟨_, _, rfl⟩ := locator_rowCalls hc hl
    rfl
  · obtain ⟨_, _, rfl⟩ := locator_rowCalls hd hl
    rfl

theorem pairwise_footnoteCalls (paragraphs : List NestedParagraph) :
    (footnoteCalls s p f paragraphs).Pairwise Apart := by
  refine pairwise_zipIdx (fun nested ↦ List.pairwise_singleton _ _) fun m n hne c hc d hd ↦ ?_
  rw [List.mem_singleton.mp hc, List.mem_singleton.mp hd]
  refine apart_of_key (k := Locator.at 1) hne (fun l hl ↦ ?_) fun l hl ↦ ?_
  · cases hl
    rfl
  · cases hl
    rfl

theorem pairwise_controlCalls (controls : List BodyControl) :
    (controlCalls s p t f controls).Pairwise Apart := by
  induction controls generalizing t f with
  | nil => exact List.Pairwise.nil
  | cons control controls ih =>
    cases control with
    | table b rows =>
      refine List.pairwise_append.mpr ⟨pairwise_tableCalls rows, ih, fun c hc d hd k hk l hl ↦ ?_⟩
      obtain ⟨r, i, n, rfl⟩ := locator_tableCalls hc hk
      -- later tables have a larger number, and a footnote is no table
      rcases locator_controlCalls hd hl with ⟨t', _, _, _, _, hlt, rfl⟩ | ⟨_, _, -, rfl⟩
      · exact fun h ↦ absurd (congrArg (Locator.at 0) h) (Nat.ne_of_lt hlt)
      · exact fun h ↦ nomatch congrArg Locator.path h
    | footnote paragraphs =>
      refine List.pairwise_append.mpr
        ⟨pairwise_footnoteCalls paragraphs, ih, fun c hc d hd k hk l hl ↦ ?_⟩
      obtain ⟨n, rfl⟩ := locator_footnoteCalls hc hk
      rcases locator_controlCalls hd hl with ⟨_, _, _, _, _, -, rfl⟩ | ⟨f', _, hlt, rfl⟩
      · exact fun h ↦ nomatch congrArg Locator.path h
      · exact fun h ↦ absurd (congrArg (Locator.at 0) h) (Nat.ne_of_lt hlt)
    | endnote => exact List.pairwise_cons.mpr ⟨fun _ _ _ hk ↦ (nomatch hk), ih⟩
    | other => exact ih

theorem pairwise_paragraphCalls (body : BodyParagraph) :
    (paragraphCalls s p body).Pairwise Apart := by
  refine List.pairwise_cons.mpr ⟨fun d hd k hk l hl ↦ ?_, pairwise_controlCalls body.controls⟩
  cases hk
  rcases locator_controlCalls hd hl with ⟨_, _, _, _, _, -, rfl⟩ | ⟨_, _, -, rfl⟩
  · exact fun h ↦ nomatch congrArg Locator.path h
  · exact fun h ↦ nomatch congrArg Locator.path h

end Places

/-- **No place is visited twice.** -/
theorem pairwise_documentCalls (sections : List (List BodyParagraph)) :
    (documentCalls sections).Pairwise Apart := by
  refine pairwise_zipIdx (fun s ↦ ?_) fun m n hne c hc d hd ↦ ?_
  · refine pairwise_zipIdx (fun p ↦ pairwise_paragraphCalls p.1) fun m n hne c hc d hd ↦ ?_
    exact apart_of_key (k := Locator.paragraph) hne
      (fun l hl ↦ (locator_paragraphCalls hc hl).2) fun l hl ↦ (locator_paragraphCalls hd hl).2
  · obtain ⟨_, -, hc⟩ := List.mem_flatMap.mp hc
    obtain ⟨_, -, hd⟩ := List.mem_flatMap.mp hd
    exact apart_of_key (k := Locator.sectionIndex) hne
      (fun l hl ↦ (locator_paragraphCalls hc hl).1) fun l hl ↦ (locator_paragraphCalls hd hl).1

/-! ## What is collected -/

/-- A call as the walk makes it: the kind is that of the place, and there are two warnings. -/
def CollectorCall.Sound : CollectorCall → Prop
  | add kind _ locator => kind = locator.kind
  | warn warning => warning ∈ ["UNSUPPORTED_ENDNOTE", "NESTED_CONTROL_SKIPPED"]

theorem sound_tableCalls {s p t b : ℕ} {rows : List (List (List NestedParagraph))}
    {c : CollectorCall} (hc : c ∈ tableCalls s p t b rows) : c.Sound := by
  obtain ⟨row, -, hc⟩ := List.mem_flatMap.mp hc
  obtain ⟨cell, -, hc⟩ := List.mem_flatMap.mp hc
  obtain ⟨nested, -, hc⟩ := List.mem_flatMap.mp hc
  rcases List.mem_cons.mp hc with rfl | hc
  · exact rfl
  · split at hc
    · rw [List.mem_singleton.mp hc]
      exact List.mem_cons_of_mem _ List.mem_cons_self
    · exact absurd hc List.not_mem_nil

theorem sound_controlCalls {s p t f : ℕ} {controls : List BodyControl} {c : CollectorCall}
    (hc : c ∈ controlCalls s p t f controls) : c.Sound := by
  induction controls generalizing t f with
  | nil => exact absurd hc List.not_mem_nil
  | cons control controls ih =>
    cases control with
    | table b rows => exact (List.mem_append.mp hc).elim sound_tableCalls ih
    | footnote paragraphs =>
      rcases List.mem_append.mp hc with hc | hc
      · obtain ⟨nested, -, hc⟩ := List.mem_flatMap.mp hc
        rw [List.mem_singleton.mp hc]
        exact rfl
      · exact ih hc
    | endnote =>
      rcases List.mem_cons.mp hc with rfl | hc
      · exact List.mem_cons_self
      · exact ih hc
    | other => exact ih hc

theorem sound_documentCalls {sections : List (List BodyParagraph)} {c : CollectorCall}
    (hc : c ∈ documentCalls sections) : c.Sound := by
  obtain ⟨s, -, hc⟩ := List.mem_flatMap.mp hc
  obtain ⟨p, -, hc⟩ := List.mem_flatMap.mp hc
  rcases List.mem_cons.mp hc with rfl | hc
  · exact rfl
  · exact sound_controlCalls hc

/-- A record as the collector takes it up. -/
structure SoundRecord (U : Nfc) (r : ExtractedRecord) : Prop where
  kind : r.kind = r.locator.kind
  place : r.locator.Constructible
  normalized : U.normalizeText r.text = r.text
  nonempty : r.text ≠ []
  scalar : Scalar r.text
  bounded : r.text.length ≤ maxRecordCodePoints

/-- What the collector holds after some calls. -/
structure Collected (U : Nfc) (calls : List CollectorCall) (c : RecordCollector) : Prop where
  records : ∀ r ∈ c.records, SoundRecord U r
  places : (c.records.map (·.locator)).Sublist (calls.filterMap (·.locator?))
  count : c.records.length ≤ maxRecords
  total : c.totalCodePoints = (c.records.map (·.text.length)).sum
  bounded : c.totalCodePoints ≤ maxTotalCodePoints
  warnings : ∀ w ∈ c.warnings, w ∈ ["UNSUPPORTED_ENDNOTE", "NESTED_CONTROL_SKIPPED"]
  distinct : c.warnings.Nodup

theorem collected_collectCall {U : Nfc} {calls : List CollectorCall} {c c' : RecordCollector}
    {call : CollectorCall} (h : Collected U calls c) (hcall : call.Sound)
    (hstep : collectCall U c call = .ok c') : Collected U (calls ++ [call]) c' := by
  have hplaces : (c.records.map (·.locator)).Sublist
      ((calls ++ [call]).filterMap (·.locator?)) := by
    rw [List.filterMap_append]
    exact h.places.trans (List.sublist_append_left _ _)
  cases call with
  | warn warning =>
    rw [← Except.ok.inj hstep, RecordCollector.warn]
    split
    · next hnew =>
      refine ⟨h.records, hplaces, h.count, h.total, h.bounded, fun w hw ↦ ?_, ?_⟩
      · rcases List.mem_append.mp hw with hold | hadded
        · exact h.warnings w hold
        · rw [List.mem_singleton.mp hadded]
          exact hcall
      · exact List.nodup_append.mpr ⟨h.distinct, List.nodup_singleton _, fun a ha b hb heq ↦
          hnew.2 ((heq.trans (List.mem_singleton.mp hb)) ▸ ha)⟩
    · exact ⟨h.records, hplaces, h.count, h.total, h.bounded, h.warnings, h.distinct⟩
  | add kind rawText locator =>
    obtain ⟨hplace, hstep⟩ := require_bind_eq_ok.mp hstep
    rw [RecordCollector.add] at hstep
    split at hstep
    · rw [← Except.ok.inj hstep]
      exact ⟨h.records, hplaces, h.count, h.total, h.bounded, h.warnings, h.distinct⟩
    next hblank =>
    obtain ⟨hscalar, hstep⟩ := require_bind_eq_ok.mp hstep
    obtain ⟨hlength, hstep⟩ := require_bind_eq_ok.mp hstep
    obtain ⟨⟨hcount, htotal⟩, hstep⟩ := require_bind_eq_ok.mp hstep
    rw [← Except.ok.inj hstep]
    refine ⟨fun r hr ↦ ?_, ?_, ?_, ?_, htotal, h.warnings, h.distinct⟩
    · rcases List.mem_append.mp hr with hold | hadded
      · exact h.records r hold
      · rw [List.mem_singleton.mp hadded]
        refine ⟨hcall, hplace, U.normalizeText_normalizeText rawText, fun hnil ↦ hblank ?_,
          hscalar, hlength⟩
        exact (congrArg IsBlank hnil).mpr rfl
    · rw [List.map_append, List.filterMap_append]
      exact h.places.append (List.Sublist.refl _)
    · rw [List.length_append]
      exact hcount
    · rw [List.map_append, List.sum_append, ← h.total]
      rfl

/-- **What a document leaves in the collector.** -/
theorem collected_foldlM {U : Nfc} {calls : List CollectorCall} {c : RecordCollector}
    (hcalls : ∀ call ∈ calls, call.Sound) (h : calls.foldlM (collectCall U) .empty = .ok c) :
    Collected U calls c := by
  have hstart : Collected U [] .empty :=
    ⟨nofun, List.Sublist.refl _, Nat.zero_le _, rfl, Nat.zero_le _, nofun, List.nodup_nil⟩
  have hrun : ∀ (rest before : List CollectorCall) (c₀ : RecordCollector), Collected U before c₀ →
      (∀ call ∈ rest, call.Sound) → rest.foldlM (collectCall U) c₀ = .ok c →
      Collected U (before ++ rest) c := by
    intro rest
    induction rest with
    | nil =>
      intro before c₀ hbefore _ hend
      rw [← Except.ok.inj hend, List.append_nil]
      exact hbefore
    | cons call rest ih =>
      intro before c₀ hbefore hsound hend
      obtain ⟨c₁, hstep, hend⟩ := bind_eq_ok.mp hend
      obtain ⟨hcall, hrest⟩ := List.forall_mem_cons.mp hsound
      rw [List.append_cons]
      exact ih _ c₁ (collected_collectCall hbefore hcall hstep) hrest hend
  exact hrun calls [] .empty hstart hcalls h

/-- The places of the records are distinct. -/
theorem nodup_locators {U : Nfc} {sections : List (List BodyParagraph)} {c : RecordCollector}
    (h : Collected U (documentCalls sections) c) : (c.records.map (·.locator)).Nodup := by
  refine h.places.nodup ?_
  rw [List.nodup_iff_pairwise_ne, List.pairwise_filterMap]
  exact (pairwise_documentCalls sections).imp fun hapart k hk l hl ↦ hapart k hk l hl

/-! ## What the libraries read -/

/-- A paragraph of hwplib; `getNormalString` may be null. -/
structure HwpNested where
  normalString : Option Str
  hasControls : Bool

inductive HwpControl
  | table (rows : List (List (List HwpNested)))
  | footnote (paragraphs : List HwpNested)
  | endnote
  | other

structure HwpParagraph where
  normalString : Option Str
  /-- `getControlList`, which may be null. -/
  controls : Option (List HwpControl)

def HwpNested.nested (p : HwpNested) : NestedParagraph := ⟨p.normalString.getD [], p.hasControls⟩

/-- The paragraph as `HwpDocumentExtractor` walks over it. -/
def HwpParagraph.body (p : HwpParagraph) : BodyParagraph where
  rawText := p.normalString.getD []
  controls := (p.controls.getD []).map fun
    | .table rows => .table 0 (rows.map (·.map (·.map HwpNested.nested)))
    | .footnote paragraphs => .footnote (paragraphs.map HwpNested.nested)
    | .endnote => .endnote
    | .other => .other

inductive TItem
  | normalText (text : Option Str)
  | tab | lineBreak | nbSpace | fwSpace | hyphen | other

/-- A `T` of hwpxlib. -/
inductive HwpxText
  | onlyText (text : Str)
  | empty
  | items (items : List TItem)

/-- The text an item of a `T` stands for. -/
def TItem.text : TItem → Str
  | normalText text => text.getD []
  | tab => lit "\t"
  | lineBreak => lit "\n"
  | nbSpace => [0xA0]
  | fwSpace => [0x3000]
  | hyphen => lit "-"
  | other => []

/-- `appendText`. -/
def HwpxText.text : HwpxText → Str
  | .onlyText value => value
  | .empty => []
  | .items values => values.flatMap TItem.text

/-- An item of a run of a nested paragraph: a text, a table or control, or something else. -/
inductive HwpxNestedItem
  | text (value : HwpxText)
  | structured
  | other

inductive CtrlItem
  | footNote (subList : Option (List (List (List HwpxNestedItem))))
  | endNote
  | other

inductive RunItem
  | text (value : HwpxText)
  | table (trs : List (List (Option (List (List (List HwpxNestedItem))))))
  | ctrl (ctrlItems : List CtrlItem)
  | other

/-- `paragraphText` and `hasStructuredItems` of a nested paragraph, given by its runs. -/
def nestedParagraph (runs : List (List HwpxNestedItem)) : NestedParagraph where
  rawText := runs.flatten.flatMap fun
    | .text value => value.text
    | _ => []
  hasControls := runs.flatten.any fun
    | .structured => true
    | _ => false

/-- The controls an item of a run brings. A missing `subList` has no paragraphs. -/
def RunItem.controls (runIndex : ℕ) : RunItem → List BodyControl
  | .table trs => [.table runIndex (trs.map (·.map fun cell ↦ (cell.getD []).map nestedParagraph))]
  | .ctrl ctrlItems => ctrlItems.map fun
    | .footNote subList => .footnote ((subList.getD []).map nestedParagraph)
    | .endNote => .endnote
    | .other => .other
  | _ => []

/-- The paragraph as `HwpxDocumentExtractor` walks over it. -/
def hwpxBody (runs : List (List RunItem)) : BodyParagraph where
  rawText := runs.flatten.flatMap fun
    | .text value => value.text
    | _ => []
  controls := runs.zipIdx.flatMap fun run ↦ run.1.flatMap (RunItem.controls run.2)

/-- The content of a document, as its library reads it. -/
inductive DocumentContent
  | hwp (sections : List (List HwpParagraph))
  | hwpx (sections : List (List (List (List RunItem))))

def DocumentContent.body : DocumentContent → List (List BodyParagraph)
  | hwp sections => sections.map (·.map HwpParagraph.body)
  | hwpx sections => sections.map (·.map hwpxBody)

end Sidecar

end MeetingRag
