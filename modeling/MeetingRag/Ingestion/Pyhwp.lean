import MeetingRag.Sidecar.Adapter

/-!
# The HWP extractor in Python

`PyhwpExtractor._walk` reads the body of an HWP document as a stream of start and end events and keeps its
position in flat counters: the table, the row, the cell and the paragraph in the cell, the footnote and the
paragraph in the footnote. A start event moves the counters on, and an end event does not move them back.

A well-nested stream is a tree (`Stream`). `survey` goes through the tree and gives every paragraph the numbers
of the elements that enclose it. The two agree on a paragraph exactly when no other table, footnote or
top-level paragraph has begun in between (`Entry.Current`).
-/

open Outcome Py Py.Json

namespace MeetingRag

namespace Pyhwp

open Sidecar

/-! ## Events -/

/-- The class of an event, as far as the walk looks at it. -/
inductive Name
  | paragraph | text | tableControl | tableRow | tableCell | footNote | other
deriving DecidableEq

/-- An event: `attrs.get("text", "")`, and `context.get("section_idx")` where there is one. -/
structure Event where
  started : Bool
  name : Name
  text : Str
  sectionIdx : Option ℤ

/-- What is on the stack of containers. -/
inductive Container
  | table | cell | footnote
deriving DecidableEq

/-- `_ParagraphFrame`. The context of a top-level paragraph is `none`. -/
structure ParagraphFrame where
  parts : List Str
  context : Option Container

/-- The keyword arguments of `emit`. -/
inductive Spot
  | body
  | table (table tableRow cell cellParagraph : ℤ)
  | footnote (footnote footnoteParagraph : ℤ)
deriving DecidableEq

/-- `_require_integer(value, label=label, minimum=0)`. -/
def requireInteger (label : String) (value : ℤ) : Except Exc ℕ := do
  check (0 ≤ value) (label ++ " must be an integer >= 0")
  .ok value.toNat

/-- The path of an anchor; `table_block` is 0. -/
def Spot.path : Spot → Except Exc LocatorPath
  | .body => .ok .body
  | .table tableIdx rowIdx cellIdx cellParagraph => do
    let t ← requireInteger "HWP table path" tableIdx
    let r ← requireInteger "HWP table path" rowIdx
    let c ← requireInteger "HWP table path" cellIdx
    let p ← requireInteger "HWP table path" cellParagraph
    .ok (.table t 0 r c p)
  | .footnote footnoteIdx footnoteParagraph => do
    let f ← requireInteger "HWP footnote path" footnoteIdx
    let p ← requireInteger "HWP footnote path" footnoteParagraph
    .ok (.footnote f p)

/-- The type of the block: `hwp_` and the kind. -/
def Spot.blockType : Spot → String
  | .body => "hwp_paragraph"
  | .table .. => "hwp_table_cell"
  | .footnote .. => "hwp_footnote"

/-! ## The walk -/

/-- The local variables of `_walk`, the innermost element of a stack first. -/
structure Walk where
  blocks : List Sidecar.ExtractedBlock
  paragraphStack : List ParagraphFrame
  containerStack : List Container
  outerParagraph : ℤ
  tableIdx : ℤ
  rowIdx : ℤ
  cellIdx : ℤ
  footnoteIdx : ℤ
  cellParagraph : ℤ
  footnoteParagraph : ℤ
  sectionIdx : ℤ

def Walk.init : Walk := ⟨[], [], [], -1, -1, -1, -1, -1, 0, 0, 0⟩

/-- `source_sha256`, `profile_hash` and the version of the parser. -/
structure Setting where
  sourceSha256 : Str
  profile : Str
  parserVersion : Str

section Run

variable (U : Nfc) (S : Setting)

/-- `emit`. -/
def Walk.emit (w : Walk) (text : Str) (spot : Spot) : Except Exc Walk :=
  let normalized := U.normalizeText text
  if normalized = [] then .ok w
  else do
    let sectionIndex ← requireInteger "HWP section" w.sectionIdx
    let paragraph ← requireInteger "HWP paragraph" w.outerParagraph
    let path ← spot.path
    let anchor ← HwpParagraphAnchor.fromText U S.sourceSha256 S.profile (lit "pyhwp") S.parserVersion
      ⟨sectionIndex, paragraph, path⟩ normalized
    let block ← Sidecar.ExtractedBlock.make U w.blocks.length normalized (lit spot.blockType) anchor
    .ok { w with blocks := w.blocks ++ [block] }

/-- The end of a paragraph. -/
def Walk.endParagraph (w : Walk) (frame : ParagraphFrame) : Except Exc Walk :=
  let text := frame.parts.flatten
  match frame.context with
  | some .cell => do
    let w ← w.emit U S text (.table w.tableIdx w.rowIdx w.cellIdx w.cellParagraph)
    .ok { w with cellParagraph := w.cellParagraph + 1 }
  | some .footnote => do
    let w ← w.emit U S text (.footnote w.footnoteIdx w.footnoteParagraph)
    .ok { w with footnoteParagraph := w.footnoteParagraph + 1 }
  | none => w.emit U S text .body
  -- the caption of a table
  | some .table => .ok w

/-- The end of a container, when it is the innermost one. -/
def Walk.endContainer (w : Walk) (container : Container) : Walk :=
  match w.containerStack with
  | top :: rest => if top = container then { w with containerStack := rest } else w
  | [] => w

/-- The round of `_walk` for an event. -/
def Walk.step (w : Walk) (event : Event) : Except Exc Walk :=
  let w := { w with sectionIdx := event.sectionIdx.getD w.sectionIdx }
  match event.name, event.started with
  | .paragraph, true =>
    let context := w.containerStack.head?
    let w := if context = none then
        { w with outerParagraph := w.outerParagraph + 1, tableIdx := -1, footnoteIdx := -1 } else w
    .ok { w with paragraphStack := ⟨[], context⟩ :: w.paragraphStack }
  | .paragraph, false =>
    match w.paragraphStack with
    | [] => .ok w
    | frame :: rest => { w with paragraphStack := rest }.endParagraph U S frame
  | .text, true =>
    match w.paragraphStack with
    | [] => .ok w
    | frame :: rest =>
      .ok { w with paragraphStack := { frame with parts := frame.parts ++ [event.text] } :: rest }
  | .tableControl, true => .ok { w with
      tableIdx := w.tableIdx + 1, rowIdx := -1, containerStack := .table :: w.containerStack }
  | .tableControl, false => .ok (w.endContainer .table)
  | .tableRow, true => .ok { w with rowIdx := w.rowIdx + 1, cellIdx := -1 }
  | .tableCell, true => .ok { w with
      cellIdx := w.cellIdx + 1, cellParagraph := 0, containerStack := .cell :: w.containerStack }
  | .tableCell, false => .ok (w.endContainer .cell)
  | .footNote, true => .ok { w with
      footnoteIdx := w.footnoteIdx + 1, footnoteParagraph := 0,
      containerStack := .footnote :: w.containerStack }
  | .footNote, false => .ok (w.endContainer .footnote)
  | _, _ => .ok w

/-- `_walk`. -/
def walk (events : List Event) : Except Exc (List Sidecar.ExtractedBlock) := do
  let w ← events.foldlM (Walk.step U S) Walk.init
  .ok w.blocks

end Run

/-! ## Well-nested streams -/

/-- A well-nested stream: an element with what is inside of it, and then the rest. -/
inductive Stream
  | nil
  | element (name : Name) (text : Str) (sectionIdx : Option ℤ) (inner rest : Stream)

namespace Stream

def events : Stream → List Event
  | nil => []
  | element name text sectionIdx inner rest =>
    ⟨true, name, text, sectionIdx⟩ :: (inner.events ++ ⟨false, name, text, sectionIdx⟩ :: rest.events)

/-- The rows of a table are directly in it, and the cells of a row directly in the row. The parameter is the
innermost of the elements around, but for the other ones. -/
def Fits : Option Name → Stream → Prop
  | _, nil => True
  | around, element name _ _ inner rest =>
    (name = .tableRow → around = some .tableControl) ∧ (name = .tableCell → around = some .tableRow) ∧
      inner.Fits (if name = .text ∨ name = .other then around else some name) ∧ rest.Fits around

/-- The texts of a paragraph: not those of the paragraphs inside of it. -/
def texts : Stream → List Str
  | nil => []
  | element name text _ inner rest =>
    match name with
    | .paragraph => rest.texts
    | .text => text :: (inner.texts ++ rest.texts)
    | _ => inner.texts ++ rest.texts

end Stream

/-! ## Where a paragraph is -/

/-- The innermost of the tables, rows, cells and footnotes around. -/
inductive Within
  | top | table | row | cell | footnote
deriving DecidableEq

/-- The elements around: the numbers of the innermost top-level paragraph, table, row, cell and footnote. -/
structure Scope where
  within : Within
  paragraph : ℤ
  table : ℤ
  row : ℤ
  cell : ℤ
  footnote : ℤ

/-- What has begun: the top-level paragraphs, the tables and the footnotes in the innermost top-level
paragraph, the rows in the innermost table, the cells in the innermost row; and how many paragraphs of the
innermost cell or footnote have ended. -/
structure Begun where
  paragraphs : ℤ
  tables : ℤ
  footnotes : ℤ
  rows : ℤ
  cells : ℤ
  ended : ℤ

/-- The place of a paragraph. -/
structure Place where
  paragraph : ℤ
  spot : Spot
deriving DecidableEq

/-- The place of a paragraph that ends. -/
def placeAt (s : Scope) (b : Begun) : Option Place :=
  match s.within with
  | .top => some ⟨s.paragraph, .body⟩
  | .cell => some ⟨s.paragraph, .table s.table s.row s.cell b.ended⟩
  | .footnote => some ⟨s.paragraph, .footnote s.footnote b.ended⟩
  | .table | .row => none

/-- An element begins: it is numbered in the element that it belongs to. -/
def enter (s : Scope) (b : Begun) : Name → Scope × Begun
  | .paragraph =>
    if s.within = .top then ({ s with paragraph := b.paragraphs },
      { b with paragraphs := b.paragraphs + 1, tables := 0, footnotes := 0 }) else (s, b)
  | .tableControl => ({ s with within := .table, table := b.tables },
      { b with tables := b.tables + 1, rows := 0 })
  | .tableRow => ({ s with within := .row, row := b.rows }, { b with rows := b.rows + 1, cells := 0 })
  | .tableCell => ({ s with within := .cell, cell := b.cells }, { b with cells := b.cells + 1, ended := 0 })
  | .footNote => ({ s with within := .footnote, footnote := b.footnotes },
      { b with footnotes := b.footnotes + 1, ended := 0 })
  | _ => (s, b)

/-- An element ends, `b` when it begins and `b'` after its content: the counts of the enclosing elements are
those from before it. -/
def leave (s : Scope) (b b' : Begun) : Name → Begun
  | .paragraph =>
    match s.within with
    | .top => { b with paragraphs := b'.paragraphs }
    | .cell | .footnote => { b' with ended := b'.ended + 1 }
    | .table | .row => b'
  | .tableControl | .footNote => { b' with rows := b.rows, cells := b.cells, ended := b.ended }
  | _ => b'

/-- A paragraph with its text, its place, and what has begun when it ends. -/
structure Entry where
  text : Str
  place : Place
  begun : Begun

/-- The paragraph of a scope that ends, if it has a place. -/
def ownEntry (s : Scope) (b : Begun) (name : Name) (text : Str) : List Entry :=
  if name = .paragraph then (placeAt s b).toList.map fun place ↦ ⟨text, place, b⟩ else []

/-- The paragraphs of a stream in the order in which they end, but for those directly in a table. -/
def survey : Scope → Begun → Stream → Begun × List Entry
  | _, b, .nil => (b, [])
  | s, b, .element name _ _ inner rest =>
    let entered := enter s b name
    let inside := survey entered.1 entered.2 inner
    let after := survey s (leave s b inside.1 name) rest
    (after.1, inside.2 ++ ownEntry entered.1 inside.1 name inner.texts.flatten ++ after.2)

/-- The beginning of a document. -/
def Scope.document : Scope := ⟨.top, -1, -1, -1, -1, -1⟩

def Begun.nothing : Begun := ⟨0, 0, 0, 0, 0, 0⟩

def entries (stream : Stream) : List Entry := (survey Scope.document Begun.nothing stream).2

/-- The top-level paragraph around is the last that has begun, and so is the table or the footnote in it. -/
def Entry.Current (e : Entry) : Prop :=
  e.begun.paragraphs = e.place.paragraph + 1 ∧
    match e.place.spot with
    | .body => True
    | .table table _ _ _ => e.begun.tables = table + 1
    | .footnote footnote _ => e.begun.footnotes = footnote + 1

/-- The place that an anchor names. -/
def placeOf (l : Sidecar.Locator) : Place :=
  ⟨l.paragraph, match l.path with
    | .body => .body
    | .table table _ tableRow cell cellParagraph => .table table tableRow cell cellParagraph
    | .footnote footnote footnoteParagraph => .footnote footnote footnoteParagraph⟩

/-! ## Blocks -/

section Emission

variable {U : Nfc} {S : Setting}

theorem requireInteger_eq_ok {label : String} {value : ℤ} {n : ℕ} (hn : requireInteger label value = .ok n) :
    (n : ℤ) = value := by
  obtain ⟨hnonneg, hvalue⟩ := check_bind_eq_ok.mp hn
  rw [← Except.ok.inj hvalue]
  exact Int.toNat_of_nonneg hnonneg

theorem placeOf_path {spot : Spot} {path : LocatorPath} (hpath : spot.path = .ok path) (i n : ℕ) :
    placeOf ⟨i, n, path⟩ = ⟨n, spot⟩ := by
  cases spot with
  | body => exact Except.ok.inj hpath ▸ rfl
  | table table tableRow cell cellParagraph =>
    obtain ⟨t, ht, hpath₁⟩ := bind_eq_ok.mp hpath
    obtain ⟨r, hr, hpath₂⟩ := bind_eq_ok.mp hpath₁
    obtain ⟨c, hc, hpath₃⟩ := bind_eq_ok.mp hpath₂
    obtain ⟨p, hp, hpath₄⟩ := bind_eq_ok.mp hpath₃
    rw [← Except.ok.inj hpath₄, ← requireInteger_eq_ok ht, ← requireInteger_eq_ok hr,
      ← requireInteger_eq_ok hc, ← requireInteger_eq_ok hp]
    rfl
  | footnote footnote footnoteParagraph =>
    obtain ⟨f, hf, hpath₁⟩ := bind_eq_ok.mp hpath
    obtain ⟨p, hp, hpath₂⟩ := bind_eq_ok.mp hpath₁
    rw [← Except.ok.inj hpath₂, ← requireInteger_eq_ok hf, ← requireInteger_eq_ok hp]
    rfl

theorem locator_of_fromText {source profile parser parserVersion text : Str} {l : Sidecar.Locator}
    {a : HwpParagraphAnchor}
    (ha : HwpParagraphAnchor.fromText U source profile parser parserVersion l text = .ok a) :
    a.locator = l := by
  obtain ⟨-, ha₁⟩ := check_bind_eq_ok.mp ha
  obtain ⟨_, -, ha₂⟩ := bind_eq_ok.mp ha₁
  obtain ⟨_, -, ha₃⟩ := bind_eq_ok.mp ha₂
  obtain ⟨_, -, ha₄⟩ := bind_eq_ok.mp ha₃
  obtain ⟨_, -, ha₅⟩ := bind_eq_ok.mp ha₄
  obtain ⟨_, -, ha₆⟩ := bind_eq_ok.mp ha₅
  obtain ⟨_, -, ha₇⟩ := bind_eq_ok.mp ha₆
  rw [← Except.ok.inj ha₇]

/-- The place that a block names. -/
def blockPlace (block : Sidecar.ExtractedBlock) : Place := placeOf block.anchor.locator

/-- What `emit` adds: a block with the text and the place, or nothing for a blank text. -/
def Emitted (U : Nfc) (text : Str) (place : Place) (blocks : List Sidecar.ExtractedBlock) : Prop :=
  (U.normalizeText text = [] ∧ blocks = []) ∨ (U.normalizeText text ≠ [] ∧
    ∃ block, blocks = [block] ∧ block.text = U.normalizeText text ∧ blockPlace block = place)

theorem emit_eq_ok {w w' : Walk} {text : Str} {spot : Spot} (h : w.emit U S text spot = .ok w') :
    ∃ blocks, w' = { w with blocks := w.blocks ++ blocks } ∧
      Emitted U text ⟨w.outerParagraph, spot⟩ blocks := by
  rw [Walk.emit] at h
  split at h
  · rename_i hnil
    refine ⟨[], ?_, .inl ⟨hnil, rfl⟩⟩
    rw [← Except.ok.inj h, List.append_nil]
  · rename_i hne
    obtain ⟨i, -, h₁⟩ := bind_eq_ok.mp h
    obtain ⟨n, hn, h₂⟩ := bind_eq_ok.mp h₁
    obtain ⟨path, hpath, h₃⟩ := bind_eq_ok.mp h₂
    obtain ⟨anchor, hanchor, h₄⟩ := bind_eq_ok.mp h₃
    obtain ⟨block, hblock, h₅⟩ := bind_eq_ok.mp h₄
    obtain ⟨-, hblock₁⟩ := check_bind_eq_ok.mp hblock
    obtain ⟨-, hblock₂⟩ := check_bind_eq_ok.mp hblock₁
    obtain rfl := Except.ok.inj hblock₂
    refine ⟨[_], (Except.ok.inj h₅).symm, .inr ⟨hne, _, rfl, rfl, ?_⟩⟩
    rw [blockPlace, locator_of_fromText hanchor, placeOf_path hpath, requireInteger_eq_ok hn]

end Emission

/-! ## The counters and the numbers -/

/-- The counters of a walk. -/
structure Position where
  outer : ℤ
  table : ℤ
  row : ℤ
  cell : ℤ
  footnote : ℤ
  cellParagraph : ℤ
  footnoteParagraph : ℤ

def Walk.position (w : Walk) : Position :=
  ⟨w.outerParagraph, w.tableIdx, w.rowIdx, w.cellIdx, w.footnoteIdx, w.cellParagraph, w.footnoteParagraph⟩

/-- The container for the walk: a row is in its table. -/
def Within.container : Within → Option Container
  | .top => none
  | .table | .row => some .table
  | .cell => some .cell
  | .footnote => some .footnote

/-- What a start event does to the counters. -/
def Position.start (p : Position) (context : Option Container) : Name → Position
  | .paragraph =>
    if context = none then { p with outer := p.outer + 1, table := -1, footnote := -1 } else p
  | .tableControl => { p with table := p.table + 1, row := -1 }
  | .tableRow => { p with row := p.row + 1, cell := -1 }
  | .tableCell => { p with cell := p.cell + 1, cellParagraph := 0 }
  | .footNote => { p with footnote := p.footnote + 1, footnoteParagraph := 0 }
  | _ => p

/-- What an end event does to the counters. -/
def Position.finish (p : Position) (context : Option Container) : Name → Position
  | .paragraph =>
    match context with
    | some .cell => { p with cellParagraph := p.cellParagraph + 1 }
    | some .footnote => { p with footnoteParagraph := p.footnoteParagraph + 1 }
    | _ => p
  | _ => p

/-- What the counters say about the elements around, as long as these are the last that have begun. -/
structure Tracks (s : Scope) (b : Begun) (p : Position) : Prop where
  outer : p.outer = b.paragraphs - 1
  paragraph : s.paragraph < b.paragraphs
  last : b.paragraphs = s.paragraph + 1 → p.table = b.tables - 1 ∧ p.footnote = b.footnotes - 1
  table : s.within = .table ∨ s.within = .row ∨ s.within = .cell → b.paragraphs = s.paragraph + 1 →
    s.table < b.tables
  footnote : s.within = .footnote → b.paragraphs = s.paragraph + 1 → s.footnote < b.footnotes
  rows : s.within = .table → b.paragraphs = s.paragraph + 1 → b.tables = s.table + 1 → p.row = b.rows - 1
  row : s.within = .row ∨ s.within = .cell → b.rows = s.row + 1 ∧
    (b.paragraphs = s.paragraph + 1 → b.tables = s.table + 1 → p.row = s.row)
  cells : s.within = .row → b.paragraphs = s.paragraph + 1 → b.tables = s.table + 1 → p.cell = b.cells - 1
  cell : s.within = .cell → b.cells = s.cell + 1 ∧
    (b.paragraphs = s.paragraph + 1 → b.tables = s.table + 1 → p.cell = s.cell ∧ p.cellParagraph = b.ended)
  note : s.within = .footnote → b.paragraphs = s.paragraph + 1 → b.footnotes = s.footnote + 1 →
    p.footnoteParagraph = b.ended

/-- What a stream moves: the numbers only grow, and the counters of a table or a footnote around stay where
no other has begun. -/
structure Moves (s : Scope) (b b' : Begun) (p p' : Position) : Prop where
  paragraphs : b.paragraphs ≤ b'.paragraphs
  tables : b'.paragraphs = b.paragraphs → b.tables ≤ b'.tables
  footnotes : b'.paragraphs = b.paragraphs → b.footnotes ≤ b'.footnotes
  note : s.within ≠ .footnote → b'.paragraphs = b.paragraphs → b'.footnotes = b.footnotes →
    p'.footnoteParagraph = p.footnoteParagraph
  cell : s.within = .top ∨ s.within = .footnote → b'.paragraphs = b.paragraphs → b'.tables = b.tables →
    p'.row = p.row ∧ p'.cell = p.cell ∧ p'.cellParagraph = p.cellParagraph

theorem Moves.refl (s : Scope) (b : Begun) (p : Position) : Moves s b b p p :=
  ⟨le_rfl, fun _ ↦ le_rfl, fun _ ↦ le_rfl, fun _ _ _ ↦ rfl, fun _ _ _ ↦ ⟨rfl, rfl, rfl⟩⟩

theorem Moves.trans {s : Scope} {b b₁ b₂ : Begun} {p p₁ p₂ : Position} (h : Moves s b b₁ p p₁)
    (h' : Moves s b₁ b₂ p₁ p₂) : Moves s b b₂ p p₂ := by
  obtain ⟨hp, ht, hf, hn, hc⟩ := h
  obtain ⟨hp', ht', hf', hn', hc'⟩ := h'
  refine ⟨by omega, by omega, by omega, fun hw heq hfoot ↦ ?_, fun hw heq htab ↦ ?_⟩
  · rw [hn' hw (by omega) (by omega), hn hw (by omega) (by omega)]
  · obtain ⟨h₁, h₂, h₃⟩ := hc' hw (by omega) (by omega)
    obtain ⟨h₄, h₅, h₆⟩ := hc hw (by omega) (by omega)
    exact ⟨h₁.trans h₄, h₂.trans h₅, h₃.trans h₆⟩

section Elements

variable {s : Scope} {b b₁ : Begun} {p p₂ : Position}

theorem container_ne_none (htop : s.within ≠ .top) : s.within.container ≠ none := by
  cases hwithin : s.within with
  | top => exact absurd hwithin htop
  | _ => simp [Within.container]

/-- A paragraph in another element changes nothing when it begins. -/
theorem enter_paragraph (htop : s.within ≠ .top) : Pyhwp.enter s b .paragraph = (s, b) := if_neg htop

theorem start_paragraph (htop : s.within ≠ .top) : p.start s.within.container .paragraph = p :=
  if_neg (container_ne_none htop)

/-- An element begins. -/
theorem Tracks.enter (h : Tracks s b p) {name : Name} (htable : name = .tableRow → s.within = .table)
    (hrow : name = .tableCell → s.within = .row) :
    Tracks (enter s b name).1 (enter s b name).2 (p.start s.within.container name) := by
  cases name with
  | paragraph =>
    by_cases htop : s.within = .top
    · rw [Pyhwp.enter, Position.start, if_pos htop, if_pos (by rw [htop]; rfl)]
      have houter : p.outer + 1 = b.paragraphs + 1 - 1 := by rw [h.outer]; omega
      constructor <;> simp [htop, houter]
    · rw [enter_paragraph htop, start_paragraph htop]
      exact h
  | tableControl =>
    have hlast : b.paragraphs = s.paragraph + 1 → p.table + 1 = b.tables + 1 - 1 ∧ p.footnote = b.footnotes - 1 :=
      fun heq ↦ ⟨by rw [(h.last heq).1]; omega, (h.last heq).2⟩
    exact ⟨h.outer, h.paragraph, hlast, fun _ _ ↦ lt_add_one b.tables, nofun, fun _ _ _ ↦ rfl, by simp [Pyhwp.enter], nofun,
      nofun, nofun⟩
  | tableRow =>
    have hwithin := htable rfl
    have hrows : b.paragraphs = s.paragraph + 1 → b.tables = s.table + 1 → p.row + 1 = b.rows := by
      intro hp ht
      have := h.rows hwithin hp ht
      omega
    exact ⟨h.outer, h.paragraph, h.last, fun _ ↦ h.table (.inl hwithin), nofun, nofun,
      fun _ ↦ ⟨rfl, hrows⟩, fun _ _ _ ↦ rfl, nofun, nofun⟩
  | tableCell =>
    have hwithin := hrow rfl
    have hcells : b.paragraphs = s.paragraph + 1 → b.tables = s.table + 1 → p.cell + 1 = b.cells := by
      intro hp ht
      have := h.cells hwithin hp ht
      omega
    exact ⟨h.outer, h.paragraph, h.last, fun _ ↦ h.table (.inr (.inl hwithin)), nofun, nofun,
      fun _ ↦ h.row (.inl hwithin), nofun, fun _ ↦ ⟨rfl, fun hp ht ↦ ⟨hcells hp ht, rfl⟩⟩, nofun⟩
  | footNote =>
    have hlast : b.paragraphs = s.paragraph + 1 →
        p.table = b.tables - 1 ∧ p.footnote + 1 = b.footnotes + 1 - 1 :=
      fun heq ↦ ⟨(h.last heq).1, by rw [(h.last heq).2]; omega⟩
    exact ⟨h.outer, h.paragraph, hlast, by simp [Pyhwp.enter], fun _ _ ↦ lt_add_one b.footnotes, nofun,
      by simp [Pyhwp.enter], nofun, nofun, fun _ _ _ ↦ rfl⟩
  | text => exact h
  | other => exact h

/-- An element ends. -/
theorem Tracks.leave (h : Tracks s b p) {name : Name} (htable : name = .tableRow → s.within = .table)
    (hrow : name = .tableCell → s.within = .row) (hin : Tracks (Pyhwp.enter s b name).1 b₁ p₂)
    (hmoves : Moves (Pyhwp.enter s b name).1 (Pyhwp.enter s b name).2 b₁
      (p.start s.within.container name) p₂) :
    Tracks s (Pyhwp.leave s b b₁ name) (p₂.finish s.within.container name) ∧
      Moves s b (Pyhwp.leave s b b₁ name) p (p₂.finish s.within.container name) := by
  have hparagraph := h.paragraph
  cases name with
  | paragraph =>
    by_cases htop : s.within = .top
    · rw [Pyhwp.enter, if_pos htop] at hin hmoves
      have hgrow : b.paragraphs + 1 ≤ b₁.paragraphs := hmoves.paragraphs
      have hleave : Pyhwp.leave s b b₁ .paragraph = { b with paragraphs := b₁.paragraphs } := by
        rw [Pyhwp.leave, htop]
      have hfinish : p₂.finish s.within.container .paragraph = p₂ := by
        rw [htop]
        rfl
      rw [hleave, hfinish]
      constructor
      · refine ⟨hin.outer, by simp only; omega, fun hp ↦ ?_, ?_, ?_, ?_, ?_, ?_, ?_, ?_⟩
        · have hcount : b₁.paragraphs = s.paragraph + 1 := hp
          omega
        all_goals simp [htop]
      · have hnot : ¬b₁.paragraphs = b.paragraphs := by omega
        exact ⟨by simp only; omega, fun _ ↦ le_rfl, fun _ ↦ le_rfl, fun _ hp _ ↦ absurd hp hnot,
          fun _ hp _ ↦ absurd hp hnot⟩
    · rw [enter_paragraph htop] at hin hmoves
      rw [start_paragraph htop] at hmoves
      rw [Pyhwp.leave]
      cases hwithin : s.within with
      | top => exact absurd hwithin htop
      | table => exact ⟨hin, hmoves⟩
      | row => exact ⟨hin, hmoves⟩
      | cell =>
        constructor
        · refine ⟨hin.outer, hin.paragraph, hin.last, hin.table, hin.footnote, hin.rows, hin.row, hin.cells,
            fun _ ↦ ⟨(hin.cell hwithin).1, fun hp ht ↦ ?_⟩, by simp [hwithin]⟩
          obtain ⟨hcell, hended⟩ := (hin.cell hwithin).2 hp ht
          exact ⟨hcell, congrArg (· + 1) hended⟩
        · exact ⟨hmoves.paragraphs, hmoves.tables, hmoves.footnotes, hmoves.note, by simp [hwithin]⟩
      | footnote =>
        constructor
        · exact ⟨hin.outer, hin.paragraph, hin.last, hin.table, hin.footnote, hin.rows, hin.row, hin.cells,
            by simp [hwithin], fun _ hp hf ↦ congrArg (· + 1) (hin.note hwithin hp hf)⟩
        · exact ⟨hmoves.paragraphs, hmoves.tables, hmoves.footnotes, by simp [hwithin], hmoves.cell⟩
  | tableControl =>
    have hgrow : b.paragraphs ≤ b₁.paragraphs := hmoves.paragraphs
    have htables : b₁.paragraphs = b.paragraphs → b.tables + 1 ≤ b₁.tables := hmoves.tables
    have hfootnotes : b₁.paragraphs = b.paragraphs → b.footnotes ≤ b₁.footnotes := hmoves.footnotes
    -- The table that has ended is not the one around.
    have hpast : s.within = .table ∨ s.within = .row ∨ s.within = .cell → b₁.paragraphs = s.paragraph + 1 →
        s.table + 1 < b₁.tables := by
      intro hwithin hp
      have := h.table hwithin (by omega)
      omega
    constructor
    · refine ⟨hin.outer, hin.paragraph, hin.last, fun hwithin hp ↦ ?_, fun hwithin hp ↦ ?_, fun hwithin hp ht ↦ ?_,
        fun hwithin ↦ ⟨(h.row hwithin).1, fun hp ht ↦ ?_⟩, fun hwithin hp ht ↦ ?_,
        fun hwithin ↦ ⟨(h.cell hwithin).1, fun hp ht ↦ ?_⟩, fun hwithin hp hf ↦ ?_⟩
      · exact (lt_add_one _).trans (hpast hwithin hp)
      · have hp' : b₁.paragraphs = s.paragraph + 1 := hp
        have hold := h.footnote hwithin (by omega)
        exact hold.trans_le (hfootnotes (by omega))
      · exact absurd ht (hpast (.inl hwithin) hp).ne'
      · exact absurd ht (hpast (.inr hwithin) hp).ne'
      · exact absurd ht (hpast (.inr (.inl hwithin)) hp).ne'
      · exact absurd ht (hpast (.inr (.inr hwithin)) hp).ne'
      · have hp' : b₁.paragraphs = s.paragraph + 1 := hp
        have hf' : b₁.footnotes = s.footnote + 1 := hf
        have hold := h.footnote hwithin (by omega)
        have hbetween := hfootnotes (by omega)
        have hsame := hmoves.note nofun (by simp only [Pyhwp.enter]; omega) (by simp only [Pyhwp.enter]; omega)
        exact hsame.trans (h.note hwithin (by omega) (by omega))
    · refine ⟨hgrow, fun hp ↦ ?_, hfootnotes, fun hwithin hp hf ↦ ?_, fun hwithin hp ht ↦ ?_⟩
      · exact (le_add_of_nonneg_right zero_le_one).trans (htables hp)
      · exact hmoves.note nofun hp hf
      · have hmore := htables hp
        have ht' : b₁.tables = b.tables := ht
        omega
  | tableRow =>
    have hwithin := htable rfl
    obtain ⟨hrows, hlast⟩ := hin.row (.inl rfl)
    have hcount : b₁.rows = b.rows + 1 := hrows
    constructor
    · refine ⟨hin.outer, hin.paragraph, hin.last, fun _ ↦ hin.table (.inr (.inl rfl)), by simp [hwithin],
        fun _ hp ht ↦ ?_, by simp [hwithin], by simp [hwithin], by simp [hwithin], by simp [hwithin]⟩
      have hrow' : p₂.row = b.rows := hlast hp ht
      have hgoal : p₂.row = b₁.rows - 1 := by omega
      exact hgoal
    · exact ⟨hmoves.paragraphs, hmoves.tables, hmoves.footnotes, fun _ ↦ hmoves.note nofun, by simp [hwithin]⟩
  | tableCell =>
    have hwithin := hrow rfl
    obtain ⟨hcells, hlast⟩ := hin.cell rfl
    have hcount : b₁.cells = b.cells + 1 := hcells
    constructor
    · refine ⟨hin.outer, hin.paragraph, hin.last, fun _ ↦ hin.table (.inr (.inr rfl)), by simp [hwithin],
        by simp [hwithin], fun _ ↦ hin.row (.inr rfl), fun _ hp ht ↦ ?_, by simp [hwithin], by simp [hwithin]⟩
      have hcell : p₂.cell = b.cells := (hlast hp ht).1
      have hgoal : p₂.cell = b₁.cells - 1 := by omega
      exact hgoal
    · exact ⟨hmoves.paragraphs, hmoves.tables, hmoves.footnotes, fun _ ↦ hmoves.note nofun, by simp [hwithin]⟩
  | footNote =>
    have hgrow : b.paragraphs ≤ b₁.paragraphs := hmoves.paragraphs
    have htables : b₁.paragraphs = b.paragraphs → b.tables ≤ b₁.tables := hmoves.tables
    have hfootnotes : b₁.paragraphs = b.paragraphs → b.footnotes + 1 ≤ b₁.footnotes := hmoves.footnotes
    have hcounters : b₁.paragraphs = b.paragraphs → b₁.tables = b.tables →
        p₂.row = p.row ∧ p₂.cell = p.cell ∧ p₂.cellParagraph = p.cellParagraph := hmoves.cell (.inr rfl)
    -- When no table has begun in the footnote, the counters of the table around are those from before.
    have hkept : s.within = .table ∨ s.within = .row ∨ s.within = .cell → b₁.paragraphs = s.paragraph + 1 →
        b₁.tables = s.table + 1 → b.paragraphs = s.paragraph + 1 ∧ b.tables = s.table + 1 ∧
          p₂.row = p.row ∧ p₂.cell = p.cell ∧ p₂.cellParagraph = p.cellParagraph := by
      intro hwithin hp ht
      have hp' : b.paragraphs = s.paragraph + 1 := by omega
      have hbelow := h.table hwithin hp'
      have hbetween := htables (by omega)
      exact ⟨hp', by omega, hcounters (by omega) (by omega)⟩
    constructor
    · refine ⟨hin.outer, hin.paragraph, hin.last, fun hwithin hp ↦ ?_, fun hwithin hp ↦ ?_, fun hwithin hp ht ↦ ?_,
        fun hwithin ↦ ⟨(h.row hwithin).1, fun hp ht ↦ ?_⟩, fun hwithin hp ht ↦ ?_,
        fun hwithin ↦ ⟨(h.cell hwithin).1, fun hp ht ↦ ?_⟩, fun hwithin hp hf ↦ ?_⟩
      · have hp' : b₁.paragraphs = s.paragraph + 1 := hp
        exact (h.table hwithin (by omega)).trans_le (htables (by omega))
      · have hp' : b₁.paragraphs = s.paragraph + 1 := hp
        have hold := h.footnote hwithin (by omega)
        exact (hold.trans (lt_add_one _)).trans_le (hfootnotes (by omega))
      · obtain ⟨hp', ht', hsame, -⟩ := hkept (.inl hwithin) hp ht
        exact hsame.trans (h.rows hwithin hp' ht')
      · obtain ⟨hp', ht', hsame, -⟩ := hkept (.inr hwithin) hp ht
        exact hsame.trans ((h.row hwithin).2 hp' ht')
      · obtain ⟨hp', ht', -, hsame, -⟩ := hkept (.inr (.inl hwithin)) hp ht
        exact hsame.trans (h.cells hwithin hp' ht')
      · obtain ⟨hp', ht', -, hcell, hended⟩ := hkept (.inr (.inr hwithin)) hp ht
        obtain ⟨hcell', hended'⟩ := (h.cell hwithin).2 hp' ht'
        exact ⟨hcell.trans hcell', hended.trans hended'⟩
      · have hp' : b₁.paragraphs = s.paragraph + 1 := hp
        have hf' : b₁.footnotes = s.footnote + 1 := hf
        have hold := h.footnote hwithin (by omega)
        have hmore := hfootnotes (by omega)
        omega
    · refine ⟨hgrow, htables, fun hp ↦ ?_, fun _ hp hf ↦ ?_, fun _ ↦ hcounters⟩
      · exact (le_add_of_nonneg_right zero_le_one).trans (hfootnotes hp)
      · have hmore := hfootnotes hp
        have hf' : b₁.footnotes = b.footnotes := hf
        omega
  | text => exact ⟨hin, hmoves⟩
  | other => exact ⟨hin, hmoves⟩

/-- The place that the walk gives a paragraph. -/
def Position.place (p : Position) (context : Option Container) : Place :=
  ⟨p.outer, match context with
    | some .cell => .table p.table p.row p.cell p.cellParagraph
    | some .footnote => .footnote p.footnote p.footnoteParagraph
    | _ => .body⟩

/-- **A paragraph gets its place exactly when what is around is the last that has begun.** -/
theorem Tracks.place_iff (h : Tracks s b p) (text : Str) {place : Place} (hplace : placeAt s b = some place) :
    p.place s.within.container = place ↔ Entry.Current ⟨text, place, b⟩ := by
  have houter := h.outer
  rw [placeAt] at hplace
  cases hwithin : s.within with
  | top =>
    rw [hwithin] at hplace
    obtain rfl := Option.some.inj hplace
    have hcode : p.place Within.top.container = ⟨p.outer, .body⟩ := rfl
    rw [hcode, Entry.Current, Place.mk.injEq]
    simp only [and_true]
    omega
  | table => rw [hwithin] at hplace; exact nomatch hplace
  | row => rw [hwithin] at hplace; exact nomatch hplace
  | cell =>
    rw [hwithin] at hplace
    obtain rfl := Option.some.inj hplace
    have hcode : p.place Within.cell.container = ⟨p.outer, .table p.table p.row p.cell p.cellParagraph⟩ := rfl
    rw [hcode, Entry.Current, Place.mk.injEq, Spot.table.injEq]
    simp only
    constructor
    · rintro ⟨hpar, htab, -⟩
      have hp : b.paragraphs = s.paragraph + 1 := by omega
      exact ⟨hp, by have := (h.last hp).1; omega⟩
    · rintro ⟨hp, ht⟩
      have htab := (h.last hp).1
      obtain ⟨hcell, hended⟩ := (h.cell hwithin).2 hp ht
      exact ⟨by omega, by omega, (h.row (.inr hwithin)).2 hp ht, hcell, hended⟩
  | footnote =>
    rw [hwithin] at hplace
    obtain rfl := Option.some.inj hplace
    have hcode : p.place Within.footnote.container = ⟨p.outer, .footnote p.footnote p.footnoteParagraph⟩ := rfl
    rw [hcode, Entry.Current, Place.mk.injEq, Spot.footnote.injEq]
    simp only
    constructor
    · rintro ⟨hpar, hnote, -⟩
      have hp : b.paragraphs = s.paragraph + 1 := by omega
      exact ⟨hp, by have := (h.last hp).2; omega⟩
    · rintro ⟨hp, hf⟩
      have hnote := (h.last hp).2
      exact ⟨by omega, by omega, h.note hwithin hp hf⟩

end Elements

/-! ## The walk over a stream -/

/-- What an element puts on the stack of containers. -/
def Name.container : Name → Option Container
  | .tableControl => some .table
  | .tableCell => some .cell
  | .footNote => some .footnote
  | _ => none

/-- Texts in the innermost open paragraph. -/
def addTexts (texts : List Str) : List ParagraphFrame → List ParagraphFrame
  | [] => []
  | frame :: rest => { frame with parts := frame.parts ++ texts } :: rest

/-- What a start event does to the open paragraphs. -/
def startFrames (context : Option Container) (text : Str) (frames : List ParagraphFrame) :
    Name → List ParagraphFrame
  | .paragraph => ⟨[], context⟩ :: frames
  | .text => addTexts [text] frames
  | _ => frames

theorem addTexts_nil (frames : List ParagraphFrame) : addTexts [] frames = frames := by
  cases frames with
  | nil => rfl
  | cons frame rest => rw [addTexts, List.append_nil]

theorem addTexts_addTexts (texts texts' : List Str) (frames : List ParagraphFrame) :
    addTexts texts' (addTexts texts frames) = addTexts (texts ++ texts') frames := by
  cases frames with
  | nil => rfl
  | cons frame rest => rw [addTexts, addTexts, addTexts, List.append_assoc]

section Steps

variable {U : Nfc} {S : Setting} {w w' : Walk} {name : Name} {text : Str} {i : Option ℤ}

/-- What a start event does. -/
theorem step_start (h : w.step U S ⟨true, name, text, i⟩ = .ok w') : w'.blocks = w.blocks ∧
    w'.position = w.position.start w.containerStack.head? name ∧
      w'.containerStack = name.container.toList ++ w.containerStack ∧
        w'.paragraphStack = startFrames w.containerStack.head? text w.paragraphStack name := by
  cases name with
  | paragraph =>
    obtain rfl := Except.ok.inj h
    by_cases htop : w.containerStack.head? = none
    · simp [htop, Walk.position, Position.start, Name.container, startFrames]
    · simp [htop, Walk.position, Position.start, Name.container, startFrames]
  | text =>
    cases hframes : w.paragraphStack with
    | nil =>
      simp only [Walk.step, hframes] at h
      obtain rfl := Except.ok.inj h
      exact ⟨rfl, rfl, rfl, rfl⟩
    | cons frame rest =>
      simp only [Walk.step, hframes] at h
      obtain rfl := Except.ok.inj h
      exact ⟨rfl, rfl, rfl, rfl⟩
  | tableControl => obtain rfl := Except.ok.inj h; exact ⟨rfl, rfl, rfl, rfl⟩
  | tableRow => obtain rfl := Except.ok.inj h; exact ⟨rfl, rfl, rfl, rfl⟩
  | tableCell => obtain rfl := Except.ok.inj h; exact ⟨rfl, rfl, rfl, rfl⟩
  | footNote => obtain rfl := Except.ok.inj h; exact ⟨rfl, rfl, rfl, rfl⟩
  | other => obtain rfl := Except.ok.inj h; exact ⟨rfl, rfl, rfl, rfl⟩

theorem endContainer_spec (w : Walk) (container : Container) :
    (w.endContainer container).blocks = w.blocks ∧ (w.endContainer container).position = w.position ∧
      (w.endContainer container).paragraphStack = w.paragraphStack ∧
        ∀ rest, w.containerStack = container :: rest → (w.endContainer container).containerStack = rest := by
  rw [Walk.endContainer]
  split
  · rename_i top rest hstack
    split
    · refine ⟨rfl, rfl, rfl, fun rest' heq ↦ ?_⟩
      exact (List.cons.inj (hstack.symm.trans heq)).2
    · rename_i hne
      exact ⟨rfl, rfl, rfl, fun rest' heq ↦ absurd (List.cons.inj (hstack.symm.trans heq)).1 hne⟩
  · rename_i hstack
    exact ⟨rfl, rfl, rfl, fun rest' heq ↦ nomatch hstack.symm.trans heq⟩

/-- What an end event does, but for that of a paragraph. -/
theorem step_end (hname : name ≠ .paragraph) (h : w.step U S ⟨false, name, text, i⟩ = .ok w') :
    w'.blocks = w.blocks ∧ w'.position = w.position ∧ w'.paragraphStack = w.paragraphStack ∧
      ∀ rest, w.containerStack = name.container.toList ++ rest → w'.containerStack = rest := by
  cases name with
  | paragraph => exact absurd rfl hname
  | tableControl => exact Except.ok.inj h ▸ endContainer_spec { w with sectionIdx := i.getD w.sectionIdx } .table
  | tableCell => exact Except.ok.inj h ▸ endContainer_spec { w with sectionIdx := i.getD w.sectionIdx } .cell
  | footNote => exact Except.ok.inj h ▸ endContainer_spec { w with sectionIdx := i.getD w.sectionIdx } .footnote
  | tableRow => obtain rfl := Except.ok.inj h; exact ⟨rfl, rfl, rfl, fun rest heq ↦ heq⟩
  | text => obtain rfl := Except.ok.inj h; exact ⟨rfl, rfl, rfl, fun rest heq ↦ heq⟩
  | other => obtain rfl := Except.ok.inj h; exact ⟨rfl, rfl, rfl, fun rest heq ↦ heq⟩

/-- What the end of a paragraph does. -/
theorem step_end_paragraph {frame : ParagraphFrame} {frames : List ParagraphFrame}
    (hframes : w.paragraphStack = frame :: frames) (h : w.step U S ⟨false, .paragraph, text, i⟩ = .ok w') :
    ∃ blocks, w'.blocks = w.blocks ++ blocks ∧
      w'.position = w.position.finish frame.context .paragraph ∧ w'.containerStack = w.containerStack ∧
        w'.paragraphStack = frames ∧ if frame.context = some .table then blocks = []
          else Emitted U frame.parts.flatten (w.position.place frame.context) blocks := by
  simp only [Walk.step, hframes] at h
  rw [Walk.endParagraph] at h
  cases hcontext : frame.context with
  | none =>
    rw [hcontext] at h
    obtain ⟨blocks, rfl, hemitted⟩ := emit_eq_ok h
    exact ⟨blocks, rfl, rfl, rfl, rfl, hemitted⟩
  | some container =>
    rw [hcontext] at h
    cases container with
    | table =>
      obtain rfl := Except.ok.inj h
      exact ⟨[], (List.append_nil _).symm, rfl, rfl, rfl, rfl⟩
    | cell =>
      obtain ⟨w₁, hemit, hdone⟩ := bind_eq_ok.mp h
      obtain ⟨blocks, rfl, hemitted⟩ := emit_eq_ok hemit
      obtain rfl := Except.ok.inj hdone
      exact ⟨blocks, rfl, rfl, rfl, rfl, hemitted⟩
    | footnote =>
      obtain ⟨w₁, hemit, hdone⟩ := bind_eq_ok.mp h
      obtain ⟨blocks, rfl, hemitted⟩ := emit_eq_ok hemit
      obtain rfl := Except.ok.inj hdone
      exact ⟨blocks, rfl, rfl, rfl, rfl, hemitted⟩

end Steps

/-- Every paragraph with text has its block, which has its place exactly when what is around is current. -/
def Carried (U : Nfc) (es : List Entry) (blocks : List Sidecar.ExtractedBlock) : Prop :=
  List.Forall₂ (fun e block ↦ block.text = U.normalizeText e.text ∧ (blockPlace block = e.place ↔ e.Current))
    (es.filter fun e ↦ U.normalizeText e.text ≠ []) blocks

/-- What the walk over a part of a stream does. -/
structure Walked (U : Nfc) (s : Scope) (b b' : Begun) (es : List Entry) (ts : List Str) (w w' : Walk) :
    Prop where
  tracks : Tracks s b' w'.position
  moves : Moves s b b' w.position w'.position
  containers : w'.containerStack = w.containerStack
  frames : w'.paragraphStack = addTexts ts w.paragraphStack
  blocks : ∃ blocks, w'.blocks = w.blocks ++ blocks ∧ Carried U es blocks

section Run

variable {U : Nfc} {S : Setting} {s : Scope} {b b₁ b₂ : Begun} {es es' : List Entry} {ts ts' : List Str}
  {w w₁ w₂ w₃ : Walk}

theorem Walked.refl (h : Tracks s b w.position) : Walked U s b b [] [] w w :=
  ⟨h, .refl _ _ _, rfl, (addTexts_nil _).symm, [], (List.append_nil _).symm, .nil⟩

theorem Walked.trans (h : Walked U s b b₁ es ts w w₁) (h' : Walked U s b₁ b₂ es' ts' w₁ w₂) :
    Walked U s b b₂ (es ++ es') (ts ++ ts') w w₂ := by
  obtain ⟨blocks, hblocks, hcarried⟩ := h.blocks
  obtain ⟨blocks', hblocks', hcarried'⟩ := h'.blocks
  refine ⟨h'.tracks, h.moves.trans h'.moves, h'.containers.trans h.containers, ?_, blocks ++ blocks', ?_, ?_⟩
  · rw [h'.frames, h.frames, addTexts_addTexts]
  · rw [hblocks', hblocks, List.append_assoc]
  · rw [Carried, List.filter_append]
    exact List.rel_append hcarried hcarried'

theorem carried_of_emitted {text : Str} {place : Place} {p : Position} {blocks : List Sidecar.ExtractedBlock}
    (h : Tracks s b p) (hplace : placeAt s b = some place)
    (hemitted : Emitted U text (p.place s.within.container) blocks) :
    Carried U [⟨text, place, b⟩] blocks := by
  rcases hemitted with ⟨hnil, rfl⟩ | ⟨hne, block, rfl, htext, hblock⟩
  · rw [Carried, List.filter_cons_of_neg (by simpa using hnil)]
    exact .nil
  · rw [Carried, List.filter_cons_of_pos (by simpa using hne)]
    refine .cons ⟨htext, ?_⟩ .nil
    rw [hblock]
    exact h.place_iff text hplace

/-- The texts that an element gives to the paragraph around. -/
def elementTexts (name : Name) (text : Str) (ts : List Str) : List Str :=
  match name with
  | .paragraph => []
  | .text => text :: ts
  | _ => ts

theorem Stream.texts_element (name : Name) (text : Str) (i : Option ℤ) (inner rest : Stream) :
    (Stream.element name text i inner rest).texts = elementTexts name text inner.texts ++ rest.texts := by
  cases name <;> rfl

theorem placeAt_eq_none : placeAt s b = none ↔ s.within.container = some .table := by
  rw [placeAt]
  cases s.within <;> simp [Within.container]

theorem within_enter_paragraph : (enter s b .paragraph).1.within = s.within := by
  rw [enter]
  split <;> rfl

/-- The block of a paragraph that ends, if it has a place. -/
theorem carried_ownEntry {text : Str} {p : Position} {blocks : List Sidecar.ExtractedBlock} (h : Tracks s b p)
    (hblocks : if s.within.container = some .table then blocks = []
      else Emitted U text (p.place s.within.container) blocks) :
    Carried U (ownEntry s b .paragraph text) blocks := by
  rw [ownEntry, if_pos rfl]
  cases hplace : placeAt s b with
  | none =>
    rw [if_pos (placeAt_eq_none.mp hplace)] at hblocks
    exact hblocks ▸ .nil
  | some place =>
    rw [if_neg (fun htable ↦ by rw [placeAt_eq_none.mpr htable] at hplace; exact nomatch hplace)] at hblocks
    exact carried_of_emitted h hplace hblocks

/-- **An element**: its start event, its content and its end event. -/
theorem walked_element {name : Name} {text : Str} {i : Option ℤ} (h : Tracks s b w.position)
    (hcontainer : w.containerStack.head? = s.within.container)
    (htable : name = .tableRow → s.within = .table) (hrow : name = .tableCell → s.within = .row)
    (hstart : w.step U S ⟨true, name, text, i⟩ = .ok w₁)
    (hinside : Walked U (enter s b name).1 (enter s b name).2 b₁ es ts w₁ w₂)
    (hend : w₂.step U S ⟨false, name, text, i⟩ = .ok w₃) :
    Walked U s b (leave s b b₁ name) (es ++ ownEntry (enter s b name).1 b₁ name ts.flatten)
      (elementTexts name text ts) w w₃ := by
  obtain ⟨hblocks₁, hposition₁, hcontainers₁, hframes₁⟩ := step_start hstart
  obtain ⟨blocks, hblocks₂, hcarried⟩ := hinside.blocks
  have hcontainers₂ := hinside.containers.trans hcontainers₁
  have hframes₂ := hinside.frames
  have hmoves := hinside.moves
  rw [hcontainer] at hposition₁ hframes₁
  rw [hposition₁] at hmoves
  obtain ⟨htracks₃, hmoves₃⟩ := h.leave htable hrow hinside.tracks hmoves
  by_cases hname : name = .paragraph
  · subst hname
    have hframe : w₂.paragraphStack = ⟨ts, s.within.container⟩ :: w.paragraphStack := by
      rw [hframes₂, hframes₁]
      rfl
    obtain ⟨blocks', hblocks₃, hposition₃, hcontainers₃, hframes₃, hemitted⟩ := step_end_paragraph hframe hend
    refine ⟨hposition₃ ▸ htracks₃, hposition₃ ▸ hmoves₃, hcontainers₃.trans hcontainers₂, ?_,
      blocks ++ blocks', ?_, ?_⟩
    · rw [hframes₃]
      exact (addTexts_nil _).symm
    · rw [hblocks₃, hblocks₂, hblocks₁, List.append_assoc]
    · rw [Carried, List.filter_append]
      refine List.rel_append hcarried (carried_ownEntry hinside.tracks ?_)
      rw [within_enter_paragraph]
      exact hemitted
  · obtain ⟨hblocks₃, hposition₃, hframes₃, hcontainers₃⟩ := step_end hname hend
    have hfinish : w₂.position.finish s.within.container name = w₃.position := by
      rw [hposition₃]
      cases name <;> first | rfl | exact absurd rfl hname
    rw [hfinish] at htracks₃ hmoves₃
    have hown : ownEntry (enter s b name).1 b₁ name ts.flatten = [] := if_neg hname
    rw [hown, List.append_nil]
    refine ⟨htracks₃, hmoves₃, hcontainers₃ _ hcontainers₂, ?_, blocks, ?_, hcarried⟩
    · rw [hframes₃, hframes₂, hframes₁]
      cases name with
      | paragraph => exact absurd rfl hname
      | text => exact addTexts_addTexts _ _ _
      | _ => rfl
    · rw [hblocks₃, hblocks₂, hblocks₁]

/-- The rows and cells of a stream are where the scope has them. -/
def Linked (around : Option Name) (s : Scope) : Prop :=
  (around = some .tableControl → s.within = .table) ∧ (around = some .tableRow → s.within = .row)

theorem linked_enter {around : Option Name} (hlinked : Linked around s) (name : Name) :
    Linked (if name = .text ∨ name = .other then around else some name) (enter s b name).1 := by
  cases name with
  | text => exact hlinked
  | other => exact hlinked
  | paragraph => exact ⟨nofun, nofun⟩
  | tableControl => exact ⟨fun _ ↦ rfl, nofun⟩
  | tableRow => exact ⟨nofun, fun _ ↦ rfl⟩
  | tableCell => exact ⟨nofun, nofun⟩
  | footNote => exact ⟨nofun, nofun⟩

/-- The stack of containers has what is around. -/
theorem container_enter {name : Name} {containers : List Container}
    (hcontainer : containers.head? = s.within.container) (htable : name = .tableRow → s.within = .table) :
    (name.container.toList ++ containers).head? = (enter s b name).1.within.container := by
  cases name with
  | paragraph =>
    rw [within_enter_paragraph]
    exact hcontainer
  | tableRow => exact hcontainer.trans (by rw [htable rfl]; rfl)
  | text => exact hcontainer
  | other => exact hcontainer
  | _ => rfl

/-- **A stream**, by induction over its elements. -/
theorem walked_stream {stream : Stream} {around : Option Name} (hfits : stream.Fits around)
    (hlinked : Linked around s) (h : Tracks s b w.position)
    (hcontainer : w.containerStack.head? = s.within.container)
    (hrun : stream.events.foldlM (Walk.step U S) w = .ok w₁) :
    Walked U s b (survey s b stream).1 (survey s b stream).2 stream.texts w w₁ := by
  induction stream generalizing around s b w w₁ with
  | nil => exact Except.ok.inj hrun ▸ .refl h
  | element name text i inner rest ihInner ihRest =>
    obtain ⟨hrow, hcell, hinner, hrest⟩ := hfits
    have htable : name = .tableRow → s.within = .table := fun hname ↦ hlinked.1 (hrow hname)
    have hrow' : name = .tableCell → s.within = .row := fun hname ↦ hlinked.2 (hcell hname)
    obtain ⟨w₂, hstart, hrun₁⟩ := bind_eq_ok.mp hrun
    rw [List.foldlM_append] at hrun₁
    obtain ⟨w₃, hinside, hrun₂⟩ := bind_eq_ok.mp hrun₁
    obtain ⟨w₄, hend, hrun₃⟩ := bind_eq_ok.mp hrun₂
    obtain ⟨-, hposition, hcontainers, -⟩ := step_start hstart
    rw [hcontainer] at hposition
    have htracks := hposition ▸ h.enter htable hrow'
    have hcontainer' := hcontainers ▸ container_enter (b := b) hcontainer htable
    have helement := walked_element h hcontainer htable hrow' hstart
      (ihInner hinner (linked_enter hlinked name) htracks hcontainer' hinside) hend
    have hafter := ihRest hrest hlinked helement.tracks
      ((congrArg List.head? helement.containers).trans hcontainer) hrun₃
    rw [Stream.texts_element]
    exact helement.trans hafter

end Run

/-! ## Distinct places -/

/-- A place in a table or a footnote that the counters have passed. -/
def Place.Before (q : Place) (p : Position) : Prop :=
  match q.spot with
  | .body => True
  | .table table tableRow cell cellParagraph => q.paragraph < p.outer ∨ q.paragraph = p.outer ∧
      (table < p.table ∨ table = p.table ∧ (tableRow < p.row ∨ tableRow = p.row ∧
        (cell < p.cell ∨ cell = p.cell ∧ cellParagraph < p.cellParagraph)))
  | .footnote footnote footnoteParagraph => q.paragraph < p.outer ∨ q.paragraph = p.outer ∧
      (footnote < p.footnote ∨ footnote = p.footnote ∧ footnoteParagraph < p.footnoteParagraph)

/-- The counters go on in the order of the document. -/
def Position.Le (p p' : Position) : Prop :=
  p.outer < p'.outer ∨ p.outer = p'.outer ∧
    (p.table < p'.table ∨ p.table = p'.table ∧ (p.row < p'.row ∨ p.row = p'.row ∧
      (p.cell < p'.cell ∨ p.cell = p'.cell ∧ p.cellParagraph ≤ p'.cellParagraph))) ∧
    (p.footnote < p'.footnote ∨ p.footnote = p'.footnote ∧ p.footnoteParagraph ≤ p'.footnoteParagraph)

theorem Place.Before.mono {q : Place} {p p' : Position} (h : q.Before p) (hle : p.Le p') : q.Before p' := by
  obtain ⟨paragraph, spot⟩ := q
  rw [Position.Le] at hle
  cases spot with
  | body => trivial
  | table table tableRow cell cellParagraph =>
    simp only [Place.Before] at h ⊢
    omega
  | footnote footnote footnoteParagraph =>
    simp only [Place.Before] at h ⊢
    omega

theorem Position.le_start (p : Position) (context : Option Container) (name : Name) :
    p.Le (p.start context name) := by
  cases name with
  | paragraph =>
    rw [Position.start]
    split
    · exact .inl (lt_add_one _)
    · exact .inr ⟨rfl, .inr ⟨rfl, .inr ⟨rfl, .inr ⟨rfl, le_rfl⟩⟩⟩, .inr ⟨rfl, le_rfl⟩⟩
  | tableControl => exact .inr ⟨rfl, .inl (lt_add_one _), .inr ⟨rfl, le_rfl⟩⟩
  | tableRow => exact .inr ⟨rfl, .inr ⟨rfl, .inl (lt_add_one _)⟩, .inr ⟨rfl, le_rfl⟩⟩
  | tableCell => exact .inr ⟨rfl, .inr ⟨rfl, .inr ⟨rfl, .inl (lt_add_one _)⟩⟩, .inr ⟨rfl, le_rfl⟩⟩
  | footNote => exact .inr ⟨rfl, .inr ⟨rfl, .inr ⟨rfl, .inr ⟨rfl, le_rfl⟩⟩⟩, .inl (lt_add_one _)⟩
  | text => exact .inr ⟨rfl, .inr ⟨rfl, .inr ⟨rfl, .inr ⟨rfl, le_rfl⟩⟩⟩, .inr ⟨rfl, le_rfl⟩⟩
  | other => exact .inr ⟨rfl, .inr ⟨rfl, .inr ⟨rfl, .inr ⟨rfl, le_rfl⟩⟩⟩, .inr ⟨rfl, le_rfl⟩⟩

/-- The end of a paragraph passes its place. -/
theorem Position.finish_spec (p : Position) (context : Option Container) :
    p.Le (p.finish context .paragraph) ∧ (p.place context).Before (p.finish context .paragraph) := by
  have hrefl : p.Le p := .inr ⟨rfl, .inr ⟨rfl, .inr ⟨rfl, .inr ⟨rfl, le_rfl⟩⟩⟩, .inr ⟨rfl, le_rfl⟩⟩
  match context with
  | none => exact ⟨hrefl, trivial⟩
  | some .table => exact ⟨hrefl, trivial⟩
  | some .cell =>
    exact ⟨.inr ⟨rfl, .inr ⟨rfl, .inr ⟨rfl, .inr ⟨rfl, (lt_add_one p.cellParagraph).le⟩⟩⟩, .inr ⟨rfl, le_rfl⟩⟩,
      .inr ⟨rfl, .inr ⟨rfl, .inr ⟨rfl, .inr ⟨rfl, lt_add_one p.cellParagraph⟩⟩⟩⟩⟩
  | some .footnote =>
    exact ⟨.inr ⟨rfl, .inr ⟨rfl, .inr ⟨rfl, .inr ⟨rfl, le_rfl⟩⟩⟩, .inr ⟨rfl, (lt_add_one p.footnoteParagraph).le⟩⟩,
      .inr ⟨rfl, .inr ⟨rfl, lt_add_one p.footnoteParagraph⟩⟩⟩

/-- A place that has been passed is not the next one. -/
theorem Place.Before.ne {p : Position} {context : Option Container} (h : (p.place context).Before p) :
    (p.place context).spot = .body := by
  match context with
  | none => rfl
  | some .table => rfl
  | some .cell =>
    simp only [Place.Before, Position.place] at h
    omega
  | some .footnote =>
    simp only [Place.Before, Position.place] at h
    omega

/-- The blocks in tables and footnotes have different places, which the counters have passed. -/
structure Ordered (blocks : List Sidecar.ExtractedBlock) (p : Position) : Prop where
  passed : ∀ block ∈ blocks, (blockPlace block).Before p
  distinct : blocks.Pairwise fun block block' ↦
    blockPlace block = blockPlace block' → (blockPlace block).spot = .body

theorem Ordered.mono {blocks : List Sidecar.ExtractedBlock} {p p' : Position} (h : Ordered blocks p) (hle : p.Le p') :
    Ordered blocks p' := ⟨fun block hmem ↦ (h.passed block hmem).mono hle, h.distinct⟩

section Order

variable {U : Nfc} {S : Setting} {w w' : Walk}

/-- **Every event keeps the order.** -/
theorem ordered_step {event : Event} (h : Ordered w.blocks w.position) (hstep : w.step U S event = .ok w') :
    Ordered w'.blocks w'.position := by
  obtain ⟨started, name, text, i⟩ := event
  cases started with
  | true =>
    obtain ⟨hblocks, hposition, -⟩ := step_start hstep
    rw [hblocks, hposition]
    exact h.mono (Position.le_start _ _ _)
  | false =>
    by_cases hname : name = .paragraph
    · subst hname
      cases hframes : w.paragraphStack with
      | nil =>
        simp only [Walk.step, hframes] at hstep
        exact Except.ok.inj hstep ▸ h
      | cons frame rest =>
        obtain ⟨blocks, hblocks, hposition, -, -, hemitted⟩ := step_end_paragraph hframes hstep
        obtain ⟨hle, hpassed⟩ := Position.finish_spec w.position frame.context
        rw [hblocks, hposition]
        split at hemitted
        · rw [hemitted, List.append_nil]
          exact h.mono hle
        rcases hemitted with ⟨-, rfl⟩ | ⟨-, block, rfl, -, hplace⟩
        · rw [List.append_nil]
          exact h.mono hle
        constructor
        · rw [List.forall_mem_append]
          refine ⟨(h.mono hle).passed, fun block' hmem ↦ ?_⟩
          rw [List.mem_singleton.mp hmem, hplace]
          exact hpassed
        · refine List.pairwise_append.mpr ⟨h.distinct, List.pairwise_singleton _ _, fun block₁ hmem block₂ hmem₂ heq ↦ ?_⟩
          obtain rfl := List.mem_singleton.mp hmem₂
          have hbefore := h.passed block₁ hmem
          rw [heq, hplace] at hbefore ⊢
          exact hbefore.ne
    · obtain ⟨hblocks, hposition, -⟩ := step_end hname hstep
      rw [hblocks, hposition]
      exact h

theorem ordered_run {events : List Event} (h : Ordered w.blocks w.position)
    (hrun : events.foldlM (Walk.step U S) w = .ok w') : Ordered w'.blocks w'.position := by
  induction events generalizing w with
  | nil => exact Except.ok.inj hrun ▸ h
  | cons event events ih =>
    obtain ⟨w₁, hstep, hrest⟩ := bind_eq_ok.mp hrun
    exact ih (ordered_step h hstep) hrest

end Order

section Body

variable {s : Scope} {b : Begun}

theorem paragraphs_leave (b' : Begun) (name : Name) : (leave s b b' name).paragraphs = b'.paragraphs := by
  cases name with
  | paragraph => rw [leave]; cases s.within <;> rfl
  | _ => rfl

theorem paragraphs_enter (name : Name) : b.paragraphs ≤ (enter s b name).2.paragraphs := by
  cases name with
  | paragraph =>
    rw [enter]
    split
    · exact (lt_add_one b.paragraphs).le
    · exact le_rfl
  | _ => exact le_rfl

/-- A top-level paragraph has the number that it gets when it begins. -/
theorem body_of_ownEntry {b' : Begun} {name : Name} {text : Str} {e : Entry}
    (he : e ∈ ownEntry (enter s b name).1 b' name text) (hbody : e.place.spot = .body) :
    e.place.paragraph = b.paragraphs ∧ b.paragraphs + 1 = (enter s b name).2.paragraphs := by
  rw [ownEntry] at he
  split at he
  · rename_i hname
    subst hname
    obtain ⟨place, hplace, rfl⟩ := List.mem_map.mp he
    have hplace' : placeAt (enter s b .paragraph).1 b' = some place := by simpa using hplace
    by_cases htop : s.within = .top
    · rw [enter, if_pos htop] at hplace' ⊢
      rw [placeAt] at hplace'
      simp only [htop] at hplace'
      obtain rfl := Option.some.inj hplace'
      exact ⟨rfl, rfl⟩
    · rw [enter_paragraph htop, placeAt] at hplace'
      cases hwithin : s.within with
      | top => exact absurd hwithin htop
      | table => simp only [hwithin] at hplace'; exact nomatch hplace'
      | row => simp only [hwithin] at hplace'; exact nomatch hplace'
      | cell =>
        simp only [hwithin] at hplace'
        obtain rfl := Option.some.inj hplace'
        exact absurd hbody (by simp)
      | footnote =>
        simp only [hwithin] at hplace'
        obtain rfl := Option.some.inj hplace'
        exact absurd hbody (by simp)
  · exact absurd he List.not_mem_nil

theorem pairwise_ownEntry (s : Scope) (b : Begun) (name : Name) (text : Str) :
    (ownEntry s b name text).Pairwise fun e e' ↦ e.place.spot = .body → e'.place.spot = .body →
      e.place.paragraph ≠ e'.place.paragraph := by
  rw [ownEntry]
  split
  · cases placeAt s b with
    | none => exact .nil
    | some place => exact List.pairwise_singleton _ _
  · exact .nil

/-- **The top-level paragraphs have different numbers**, between what has begun before and after. -/
theorem survey_body (stream : Stream) (s : Scope) (b : Begun) :
    b.paragraphs ≤ (survey s b stream).1.paragraphs ∧
      (∀ e ∈ (survey s b stream).2, e.place.spot = .body → b.paragraphs ≤ e.place.paragraph ∧
        e.place.paragraph < (survey s b stream).1.paragraphs) ∧
      (survey s b stream).2.Pairwise fun e e' ↦ e.place.spot = .body → e'.place.spot = .body →
        e.place.paragraph ≠ e'.place.paragraph := by
  induction stream generalizing s b with
  | nil => exact ⟨le_rfl, fun _ he ↦ absurd he List.not_mem_nil, .nil⟩
  | element name text i inner rest ihInner ihRest =>
    obtain ⟨hle₁, hrange₁, hne₁⟩ := ihInner (enter s b name).1 (enter s b name).2
    obtain ⟨hle₂, hrange₂, hne₂⟩ := ihRest s (leave s b (survey (enter s b name).1 (enter s b name).2 inner).1 name)
    rw [paragraphs_leave] at hle₂ hrange₂
    have henter : b.paragraphs ≤ (enter s b name).2.paragraphs := paragraphs_enter name
    refine ⟨henter.trans (hle₁.trans hle₂), fun e he hbody ↦ ?_, ?_⟩
    · rcases List.mem_append.mp he with hbefore | hafter
      · rcases List.mem_append.mp hbefore with hinside | hown
        · obtain ⟨hlow, hhigh⟩ := hrange₁ e hinside hbody
          exact ⟨henter.trans hlow, hhigh.trans_le hle₂⟩
        · obtain ⟨hnumber, hnext⟩ := body_of_ownEntry hown hbody
          exact ⟨hnumber.ge, by simp only [survey]; omega⟩
      · obtain ⟨hlow, hhigh⟩ := hrange₂ e hafter hbody
        exact ⟨(henter.trans hle₁).trans hlow, hhigh⟩
    · refine List.pairwise_append.mpr ⟨List.pairwise_append.mpr ⟨hne₁, ?_, fun e he e' he' hbody hbody' ↦ ?_⟩, hne₂,
        fun e he e' he' hbody hbody' ↦ ?_⟩
      · exact pairwise_ownEntry _ _ _ _
      · obtain ⟨hlow, -⟩ := hrange₁ e he hbody
        obtain ⟨hnumber, hnext⟩ := body_of_ownEntry he' hbody'
        omega
      · obtain ⟨hlow, -⟩ := hrange₂ e' he' hbody'
        rcases List.mem_append.mp he with hinside | hown
        · exact ((hrange₁ e hinside hbody).2.trans_le hlow).ne
        · obtain ⟨hnumber, hnext⟩ := body_of_ownEntry hown hbody
          omega

end Body

/-! ## Documents -/

/-- The paragraphs with text. -/
def written (U : Nfc) (stream : Stream) : List Entry :=
  (entries stream).filter fun e ↦ U.normalizeText e.text ≠ []

theorem map_place_iff {f : Entry → Str} {es : List Entry} {blocks : List Sidecar.ExtractedBlock}
    (h : List.Forall₂ (fun e block ↦ block.text = f e ∧ (blockPlace block = e.place ↔ e.Current)) es blocks) :
    blocks.map (·.text) = es.map f ∧
      (blocks.map blockPlace = es.map (·.place) ↔ ∀ e ∈ es, e.Current) := by
  induction h with
  | nil => simp
  | cons hblock _ ih =>
    obtain ⟨htext, hplace⟩ := hblock
    refine ⟨congrArg₂ List.cons htext ih.1, ?_⟩
    rw [List.map_cons, List.map_cons, List.cons.injEq, List.forall_mem_cons, hplace, ih.2]

theorem walk_eq_ok {U : Nfc} {S : Setting} {stream : Stream} {blocks : List Sidecar.ExtractedBlock}
    (hfits : stream.Fits none) (h : walk U S stream.events = .ok blocks) :
    Carried U (entries stream) blocks ∧ ∃ p, Ordered blocks p := by
  obtain ⟨w, hrun, hdone⟩ := bind_eq_ok.mp h
  obtain rfl := Except.ok.inj hdone
  have hinit : Tracks Scope.document Begun.nothing Walk.init.position := by
    constructor <;> simp [Scope.document, Begun.nothing, Walk.init, Walk.position]
  have hwalked := walked_stream hfits ⟨nofun, nofun⟩ hinit rfl hrun
  obtain ⟨blocks, hblocks, hcarried⟩ := hwalked.blocks
  have hsame : w.blocks = blocks := hblocks
  exact ⟨hsame ▸ hcarried, w.position, ordered_run ⟨by simp [Walk.init], .nil⟩ hrun⟩

/-! ## A table in a cell -/

/-- An element without text of its own. -/
def plainElement (name : Name) (inner : Stream) : Stream := .element name [] none inner .nil

def plainText (text : String) (rest : Stream) : Stream := .element .text (lit text) none .nil rest

/-- A table with one cell and a paragraph in it. -/
def plainTable (content : Stream) : Stream :=
  plainElement .tableControl (plainElement .tableRow (plainElement .tableCell
    (plainElement .paragraph content)))

def plainSetting : Setting := ⟨List.replicate 64 48, List.replicate 64 48, lit "1"⟩

/-- The text `x` in a cell, and after it a table with the text `y`. -/
def nestedStream : Stream := plainElement .paragraph (plainTable (plainText "x" (plainTable (plainText "y" .nil))))

end Pyhwp

open Sidecar Pyhwp in
/-- **The places are true exactly when every paragraph with text ends in what has begun last**, and then they
are distinct. -/
theorem pyhwp_locators_iff (U : Nfc) (S : Setting) {stream : Stream} (hfits : stream.Fits none)
    {blocks : List Sidecar.ExtractedBlock} (h : walk U S stream.events = .ok blocks) :
    blocks.map (·.text) = (written U stream).map (fun e ↦ U.normalizeText e.text) ∧
      ((blocks.map blockPlace = (written U stream).map (·.place) ∧
          (blocks.map (·.anchor.locator)).Nodup) ↔ ∀ e ∈ written U stream, e.Current) := by
  obtain ⟨hcarried, p, hordered⟩ := walk_eq_ok hfits h
  obtain ⟨htexts, hplaces⟩ := map_place_iff hcarried
  refine ⟨htexts, fun hboth ↦ hplaces.mp hboth.1, fun hcurrent ↦ ⟨hplaces.mpr hcurrent, ?_⟩⟩
  have hbodies : (written U stream).Pairwise fun e e' ↦ e.place.spot = .body → e'.place.spot = .body →
      e.place.paragraph ≠ e'.place.paragraph := (survey_body stream _ _).2.2.filter _
  have hplaced : (blocks.map blockPlace).Pairwise fun q q' ↦ q.spot = .body → q'.spot = .body →
      q.paragraph ≠ q'.paragraph := by
    rw [hplaces.mpr hcurrent]
    exact List.pairwise_map.mpr hbodies
  refine List.pairwise_map.mpr ((hordered.distinct.and (List.pairwise_map.mp hplaced)).imp ?_)
  rintro block block' ⟨hordered', hbody⟩ heq
  have hsame : blockPlace block = blockPlace block' := congrArg placeOf heq
  have hspot := hordered' hsame
  exact hbody hspot (hsame ▸ hspot) (congrArg Place.paragraph hsame)

open Sidecar Pyhwp in
theorem pyhwp_locators_plain : ∃ blocks,
    walk Nfc.ascii plainSetting (plainElement .paragraph (plainText "x" .nil)).events = .ok blocks ∧
      ((blocks.map blockPlace =
          (written Nfc.ascii (plainElement .paragraph (plainText "x" .nil))).map (·.place) ∧
        (blocks.map (·.anchor.locator)).Nodup) ↔
        ∀ e ∈ written Nfc.ascii (plainElement .paragraph (plainText "x" .nil)), e.Current) := by
  have hok : (walk Nfc.ascii plainSetting (plainElement .paragraph (plainText "x" .nil)).events).isOk = true := by
    decide +kernel
  cases hwalk : walk Nfc.ascii plainSetting (plainElement .paragraph (plainText "x" .nil)).events with
  | error e =>
    rw [hwalk] at hok
    exact nomatch hok
  | ok blocks =>
    have hfits : (plainElement .paragraph (plainText "x" .nil)).Fits none := by
      simp [plainElement, plainText, Stream.Fits]
    exact ⟨blocks, rfl, (pyhwp_locators_iff _ _ hfits hwalk).2⟩

open Sidecar Pyhwp in
/-- The text of the outer cell gets the place of the inner table. -/
theorem pyhwp_nested_misplaced : nestedStream.Fits none ∧ ∃ blocks,
    walk Nfc.ascii plainSetting nestedStream.events = .ok blocks ∧
      blocks.map (·.text) = [lit "y", lit "x"] ∧
      blocks.map blockPlace = [⟨0, .table 1 0 0 0⟩, ⟨0, .table 1 0 0 1⟩] ∧
      (written Nfc.ascii nestedStream).map (·.place) = [⟨0, .table 1 0 0 0⟩, ⟨0, .table 0 0 0 0⟩] := by
  have hwalk : ((walk Nfc.ascii plainSetting nestedStream.events).toOption.map fun blocks ↦
      (blocks.map (·.text), blocks.map blockPlace)) =
        some ([lit "y", lit "x"], [⟨0, .table 1 0 0 0⟩, ⟨0, .table 1 0 0 1⟩]) := by
    decide +kernel
  refine ⟨by simp [nestedStream, plainTable, plainElement, plainText, Stream.Fits], ?_⟩
  cases hblocks : walk Nfc.ascii plainSetting nestedStream.events with
  | error e =>
    rw [hblocks] at hwalk
    exact nomatch hwalk
  | ok blocks =>
    rw [hblocks] at hwalk
    obtain ⟨htexts, hplaces⟩ := Prod.mk.inj (Option.some.inj hwalk)
    exact ⟨blocks, rfl, htexts, hplaces, by decide +kernel⟩

end MeetingRag
