import MeetingRag.Sidecar.Collector

/-!
# The text of an HWPX document

A section of an HWPX document is a tree: its paragraphs hold runs, and a run holds texts, tables, controls
and other objects, with paragraphs inside them again. The extractor reads the paragraphs of a section, those
in the cells of their tables and those in their footnotes, and nothing below (`visited`).

What is below is announced by a warning, but only the loop over cells looks for it. A table or a note in a
paragraph of a footnote is announced exactly when something else in the document is.
-/

open Lists Outcome Py

namespace MeetingRag

namespace Sidecar

namespace Hwpx

/-! ## Trees -/

mutual

/-- A `Para`: its runs, and the items of each. -/
inductive Para
  | mk (runs : List (List Item))

/-- A `RunItem`. An object that is no table and no control may have paragraphs of its own. -/
inductive Item
  | text (value : HwpxText)
  | table (trs : List (List (Option (List Para))))
  | ctrl (ctrlItems : List Control)
  | object (paras : List Para)

/-- A `CtrlItem`. -/
inductive Control
  | footNote (subList : Option (List Para))
  | endNote (subList : Option (List Para))
  | other (paras : List Para)

end

/-- The items of all runs. -/
def Para.items : Para → List Item
  | mk runs => runs.flatten

/-- A table, a footnote or an endnote is somewhere inside a paragraph. -/
inductive Holds : Para → Prop
  | table {p : Para} {trs} (h : .table trs ∈ p.items) : Holds p
  | footNote {p : Para} {ctrlItems subList} (h : .ctrl ctrlItems ∈ p.items)
    (hnote : .footNote subList ∈ ctrlItems) : Holds p
  | endNote {p : Para} {ctrlItems subList} (h : .ctrl ctrlItems ∈ p.items)
    (hnote : .endNote subList ∈ ctrlItems) : Holds p
  | object {p q : Para} {paras} (h : .object paras ∈ p.items) (hq : q ∈ paras) (hholds : Holds q) : Holds p
  | control {p q : Para} {ctrlItems paras} (h : .ctrl ctrlItems ∈ p.items)
    (hcontrol : .other paras ∈ ctrlItems) (hq : q ∈ paras) (hholds : Holds q) : Holds p

/-! ## What the extractor sees of a tree -/

/-- An item in a paragraph of a cell or a footnote. -/
def Item.nested : Item → HwpxNestedItem
  | text value => .text value
  | table _ => .structured
  | ctrl _ => .structured
  | object _ => .other

def Para.nested : Para → List (List HwpxNestedItem)
  | mk runs => runs.map (·.map Item.nested)

def Control.seen : Control → CtrlItem
  | footNote subList => .footNote (subList.map (·.map Para.nested))
  | endNote _ => .endNote
  | other _ => .other

/-- An item in a paragraph of a section. -/
def Item.seen : Item → RunItem
  | text value => .text value
  | table trs => .table (trs.map (·.map (·.map (·.map Para.nested))))
  | ctrl ctrlItems => .ctrl (ctrlItems.map Control.seen)
  | object _ => .other

def Para.seen : Para → List (List RunItem)
  | mk runs => runs.map (·.map Item.seen)

/-- The document as `HwpxDocumentExtractor` walks over it. -/
def bodies (sections : List (List Para)) : List (List BodyParagraph) :=
  (DocumentContent.hwpx (sections.map (·.map Para.seen))).body

/-! ## The paragraphs that are read -/

def Item.text? : Item → Str
  | text value => value.text
  | _ => []

/-- `paragraphText`. -/
def Para.text (p : Para) : Str := p.items.flatMap Item.text?

def Item.isStructured : Item → Bool
  | table _ => true
  | ctrl _ => true
  | _ => false

/-- `hasStructuredItems`. -/
def Para.HasStructuredItems (p : Para) : Prop := p.items.any Item.isStructured = true

instance : DecidablePred Para.HasStructuredItems := fun p ↦
  inferInstanceAs (Decidable (p.items.any Item.isStructured = true))

/-- The paragraphs of the cells of a table. -/
def cellParas (trs : List (List (Option (List Para)))) : List Para :=
  trs.flatMap fun tr ↦ tr.flatMap fun cell ↦ cell.getD []

def Control.paras : Control → List (RecordKind × Para)
  | footNote subList => (subList.getD []).map fun q ↦ (.footnote, q)
  | _ => []

def Item.paras : Item → List (RecordKind × Para)
  | table trs => (cellParas trs).map fun q ↦ (.tableCell, q)
  | ctrl ctrlItems => ctrlItems.flatMap Control.paras
  | _ => []

/-- **The paragraphs of the sections, of the cells of their tables and of their footnotes**, in the order of
the document. -/
def visited (sections : List (List Para)) : List (RecordKind × Para) :=
  sections.flatMap fun paras ↦ paras.flatMap fun p ↦ (.paragraph, p) :: p.items.flatMap Item.paras

/-- An endnote of a paragraph of a section. -/
def HasEndnote (sections : List (List Para)) : Prop :=
  ∃ paras ∈ sections, ∃ p ∈ paras, ∃ ctrlItems, .ctrl ctrlItems ∈ p.items ∧
    ∃ subList, .endNote subList ∈ ctrlItems

/-! ## Calls without their places -/

/-- A call of the collector without the place: a text or a warning. -/
inductive Event
  | text (kind : RecordKind) (rawText : Str)
  | warning (name : String)
deriving DecidableEq

def event : CollectorCall → Event
  | .add kind rawText _ => .text kind rawText
  | .warn name => .warning name

def cellEvents (q : Para) : List Event :=
  .text .tableCell q.text :: if q.HasStructuredItems then [.warning "NESTED_CONTROL_SKIPPED"] else []

def controlEvents : Control → List Event
  | .footNote subList => (subList.getD []).map fun q ↦ .text .footnote q.text
  | .endNote _ => [.warning "UNSUPPORTED_ENDNOTE"]
  | .other _ => []

def itemEvents : Item → List Event
  | .table trs => (cellParas trs).flatMap cellEvents
  | .ctrl ctrlItems => ctrlItems.flatMap controlEvents
  | _ => []

def events (sections : List (List Para)) : List Event :=
  sections.flatMap fun paras ↦ paras.flatMap fun p ↦
    .text .paragraph p.text :: p.items.flatMap itemEvents

section Events

/-- The events of the controls that the walk goes over. -/
def bodyControlEvents : BodyControl → List Event
  | .table _ rows => rows.flatMap fun cells ↦ cells.flatMap fun paragraphs ↦ paragraphs.flatMap fun q ↦
      .text .tableCell q.rawText ::
        if q.hasControls = true then [.warning "NESTED_CONTROL_SKIPPED"] else []
  | .footnote paragraphs => paragraphs.map fun q ↦ .text .footnote q.rawText
  | .endnote => [.warning "UNSUPPORTED_ENDNOTE"]
  | .other => []

theorem map_event_controlCalls (s p t f : ℕ) (controls : List BodyControl) :
    (controlCalls s p t f controls).map event = controls.flatMap bodyControlEvents := by
  induction controls generalizing t f with
  | nil => rfl
  | cons control controls ih =>
    rw [List.flatMap_cons]
    cases control with
    | table b rows =>
      rw [controlCalls, List.map_append, ih, bodyControlEvents]
      congr 1
      rw [tableCalls, List.map_flatMap]
      refine Eq.trans ?_ (Lists.flatMap_zipIdx_fst rows 0 _)
      refine List.flatMap_congr fun row _ ↦ ?_
      rw [rowCalls, List.map_flatMap]
      refine Eq.trans ?_ (Lists.flatMap_zipIdx_fst row.1 0 _)
      refine List.flatMap_congr fun cell _ ↦ ?_
      rw [cellCalls, List.map_flatMap]
      refine Eq.trans ?_ (Lists.flatMap_zipIdx_fst cell.1 0 _)
      refine List.flatMap_congr fun q _ ↦ ?_
      rw [List.map_cons]
      split <;> rfl
    | footnote paragraphs =>
      rw [controlCalls, List.map_append, ih, bodyControlEvents, footnoteCalls, List.map_flatMap]
      congr 1
      refine Eq.trans ?_ ((Lists.flatMap_zipIdx_fst paragraphs 0 fun q ↦ [Event.text .footnote q.rawText]).trans
        List.map_eq_flatMap.symm)
      exact List.flatMap_congr fun _ _ ↦ rfl
    | endnote => rw [controlCalls, List.map_cons, ih]; rfl
    | other => rw [controlCalls, ih]; rfl

theorem map_event_documentCalls (sections : List (List BodyParagraph)) :
    (documentCalls sections).map event = sections.flatMap fun paragraphs ↦ paragraphs.flatMap fun p ↦
      .text .paragraph p.rawText :: p.controls.flatMap bodyControlEvents := by
  rw [documentCalls, List.map_flatMap]
  refine Eq.trans ?_ (Lists.flatMap_zipIdx_fst sections 0 _)
  refine List.flatMap_congr fun paragraphs _ ↦ ?_
  rw [List.map_flatMap]
  refine Eq.trans ?_ (Lists.flatMap_zipIdx_fst paragraphs.1 0 _)
  refine List.flatMap_congr fun p _ ↦ ?_
  rw [paragraphCalls, List.map_cons, map_event_controlCalls]
  rfl

/-- A paragraph of a cell or a footnote, as the walk sees it. -/
theorem nestedParagraph_nested (q : Para) :
    nestedParagraph q.nested = ⟨q.text, decide q.HasStructuredItems⟩ := by
  obtain ⟨runs⟩ := q
  have hitems : (Para.nested (.mk runs)).flatten = runs.flatten.map Item.nested := by
    rw [Para.nested, ← List.map_flatten]
  rw [nestedParagraph, hitems, List.flatMap_map, List.any_map]
  have htext : (Para.text (.mk runs)) = runs.flatten.flatMap Item.text? := rfl
  have hstructured : decide (Para.HasStructuredItems (.mk runs)) = runs.flatten.any Item.isStructured :=
    Bool.decide_eq_true
  rw [htext, hstructured]
  congr 2
  · exact funext fun item ↦ by cases item <;> rfl
  · exact funext fun item ↦ by cases item <;> rfl

theorem controlEvents_seen (control : Control) :
    bodyControlEvents (match control.seen with
      | .footNote subList => .footnote ((subList.getD []).map nestedParagraph)
      | .endNote => .endnote
      | .other => .other) = controlEvents control := by
  cases control with
  | footNote subList =>
    cases subList with
    | none => rfl
    | some paras =>
      simp only [Control.seen, Option.map_some, Option.getD_some, bodyControlEvents, controlEvents,
        List.map_map]
      exact List.map_congr_left fun q _ ↦ by
        rw [Function.comp_apply, Function.comp_apply, nestedParagraph_nested]
  | endNote subList => rfl
  | other paras => rfl

theorem itemEvents_seen (item : Item) (runIndex : ℕ) :
    (RunItem.controls runIndex item.seen).flatMap bodyControlEvents = itemEvents item := by
  cases item with
  | text value => rfl
  | table trs =>
    simp only [Item.seen, RunItem.controls, List.flatMap_singleton, bodyControlEvents, itemEvents,
      cellParas, List.flatMap_assoc, List.flatMap_map]
    refine List.flatMap_congr fun tr _ ↦ List.flatMap_congr fun cell _ ↦ ?_
    cases cell with
    | none => rfl
    | some paras =>
      simp only [Option.map_some, Option.getD_some, List.flatMap_map]
      refine List.flatMap_congr fun q _ ↦ ?_
      rw [nestedParagraph_nested, cellEvents]
      simp only [decide_eq_true_eq]
  | ctrl ctrlItems =>
    simp only [Item.seen, RunItem.controls, List.map_map, List.flatMap_map, itemEvents]
    exact List.flatMap_congr fun control _ ↦ controlEvents_seen control
  | object paras => rfl

/-- **What the collector is told**, up to the places. -/
theorem map_event_bodies (sections : List (List Para)) :
    (documentCalls (bodies sections)).map event = events sections := by
  rw [map_event_documentCalls, bodies, DocumentContent.body, List.map_map, List.flatMap_map, events]
  refine List.flatMap_congr fun paras _ ↦ ?_
  rw [Function.comp_apply, List.map_map, List.flatMap_map]
  refine List.flatMap_congr fun p _ ↦ ?_
  obtain ⟨runs⟩ := p
  have htext : (hwpxBody (Para.seen (.mk runs))).rawText = (Para.text (.mk runs)) := by
    rw [hwpxBody, Para.seen, ← List.map_flatten, List.flatMap_map]
    exact List.flatMap_congr fun item _ ↦ by cases item <;> rfl
  have hcontrols : (hwpxBody (Para.seen (.mk runs))).controls.flatMap bodyControlEvents =
      runs.flatten.flatMap itemEvents := by
    have hflatten : runs.flatten.flatMap itemEvents = runs.flatMap fun run ↦ run.flatMap itemEvents := by
      rw [← List.flatMap_id, List.flatMap_assoc]
      rfl
    rw [hwpxBody, Para.seen, List.flatMap_assoc, List.zipIdx_map, List.flatMap_map, hflatten]
    refine Eq.trans ?_ (Lists.flatMap_zipIdx_fst runs 0 _)
    refine List.flatMap_congr fun run _ ↦ ?_
    rw [List.flatMap_assoc, Prod.map_fst, Prod.map_snd, List.flatMap_map]
    exact List.flatMap_congr fun item _ ↦ itemEvents_seen item _
  rw [Function.comp_apply, htext, hcontrols]
  rfl

end Events

/-! ## What is collected -/

/-- What a call leaves among the records. -/
def recordOf (U : Nfc) : Event → Option (RecordKind × Str)
  | .text kind rawText =>
    if IsBlank (U.normalizeText rawText) then none else some (kind, U.normalizeText rawText)
  | .warning _ => none

/-- The kind and the text of a record. -/
def content (r : ExtractedRecord) : RecordKind × Str := (r.kind, r.text)

/-- One call adds its record and its warning. -/
theorem collectCall_eq_ok {U : Nfc} {c c' : RecordCollector} {call : CollectorCall}
    (h : collectCall U c call = .ok c') :
    c'.records.map content = c.records.map content ++ (recordOf U (event call)).toList ∧
      ∀ name, isWarningName name = true →
        (name ∈ c'.warnings ↔ name ∈ c.warnings ∨ event call = .warning name) := by
  cases call with
  | add kind rawText locator =>
    obtain ⟨-, h⟩ := require_bind_eq_ok.mp h
    rw [RecordCollector.add] at h
    rw [event, recordOf]
    split at h
    · rename_i hblank
      rw [← Except.ok.inj h, if_pos hblank]
      exact ⟨(List.append_nil _).symm, fun _ _ ↦ ⟨.inl, fun h ↦ h.resolve_right (by rintro ⟨⟩)⟩⟩
    · rename_i hblank
      obtain ⟨-, h⟩ := require_bind_eq_ok.mp h
      obtain ⟨-, h⟩ := require_bind_eq_ok.mp h
      obtain ⟨-, h⟩ := require_bind_eq_ok.mp h
      rw [← Except.ok.inj h, if_neg hblank]
      exact ⟨List.map_append, fun _ _ ↦ ⟨.inl, fun h ↦ h.resolve_right (by rintro ⟨⟩)⟩⟩
  | warn name =>
    rw [← Except.ok.inj h, RecordCollector.warn, event, recordOf]
    split
    · rename_i hnew
      refine ⟨(List.append_nil _).symm, fun other _ ↦ ?_⟩
      rw [List.mem_append, List.mem_singleton, Event.warning.injEq, eq_comm (a := other)]
    · rename_i hold
      refine ⟨(List.append_nil _).symm, fun other hother ↦ ⟨.inl, fun h ↦ h.elim id ?_⟩⟩
      rintro ⟨⟩
      exact not_not.mp fun hmem ↦ hold ⟨hother, hmem⟩

/-- **What a document leaves in the collector.** -/
theorem foldlM_collectCall_eq_ok {U : Nfc} {calls : List CollectorCall} {c c' : RecordCollector}
    (h : calls.foldlM (collectCall U) c = .ok c') :
    c'.records.map content = c.records.map content ++ (calls.map event).filterMap (recordOf U) ∧
      ∀ name, isWarningName name = true →
        (name ∈ c'.warnings ↔ name ∈ c.warnings ∨ .warning name ∈ calls.map event) := by
  induction calls generalizing c with
  | nil =>
    obtain rfl := Except.ok.inj h
    exact ⟨(List.append_nil _).symm, fun _ _ ↦ ⟨.inl, fun h ↦ h.resolve_right List.not_mem_nil⟩⟩
  | cons call calls ih =>
    obtain ⟨c₁, hcall, hrest⟩ := bind_eq_ok.mp h
    obtain ⟨hrecords, hwarnings⟩ := collectCall_eq_ok hcall
    obtain ⟨hrecords', hwarnings'⟩ := ih hrest
    constructor
    · rw [hrecords', hrecords, List.append_assoc, List.map_cons, List.filterMap_cons]
      cases recordOf U (event call) <;> rfl
    · intro name hname
      rw [hwarnings' name hname, hwarnings name hname, List.map_cons, List.mem_cons, or_assoc,
        eq_comm (a := Event.warning name)]

/-! ## Events and paragraphs -/

/-- The records are those of the paragraphs that are read. -/
theorem filterMap_events (U : Nfc) (sections : List (List Para)) :
    (events sections).filterMap (recordOf U) =
      (visited sections).filterMap fun v ↦ recordOf U (.text v.1 v.2.text) := by
  have hcell : ∀ q, (cellEvents q).filterMap (recordOf U) =
      (recordOf U (.text .tableCell q.text)).toList := by
    intro q
    have hwarnings : (if q.HasStructuredItems then [Event.warning "NESTED_CONTROL_SKIPPED"]
        else []).filterMap (recordOf U) = [] := by
      split <;> rfl
    rw [cellEvents, List.filterMap_cons, hwarnings]
    cases recordOf U (.text .tableCell q.text) <;> rfl
  have hcontrol : ∀ control, (controlEvents control).filterMap (recordOf U) =
      control.paras.filterMap fun v ↦ recordOf U (.text v.1 v.2.text) := by
    intro control
    cases control with
    | footNote subList =>
      rw [controlEvents, Control.paras, List.filterMap_map, List.filterMap_map]
      rfl
    | endNote subList => rfl
    | other paras => rfl
  have hitem : ∀ item, (itemEvents item).filterMap (recordOf U) =
      item.paras.filterMap fun v ↦ recordOf U (.text v.1 v.2.text) := by
    intro item
    cases item with
    | text value => rfl
    | table trs =>
      rw [itemEvents, Item.paras, List.filterMap_flatMap, List.filterMap_map]
      simp only [hcell]
      rw [List.filterMap_eq_flatMap_toList]
      rfl
    | ctrl ctrlItems =>
      rw [itemEvents, Item.paras, List.filterMap_flatMap, List.filterMap_flatMap]
      exact List.flatMap_congr fun control _ ↦ hcontrol control
    | object paras => rfl
  rw [events, visited, List.filterMap_flatMap, List.filterMap_flatMap]
  refine List.flatMap_congr fun paras _ ↦ ?_
  rw [List.filterMap_flatMap, List.filterMap_flatMap]
  refine List.flatMap_congr fun p _ ↦ ?_
  rw [List.filterMap_cons, List.filterMap_cons, List.filterMap_flatMap, List.filterMap_flatMap,
    List.flatMap_congr fun item _ ↦ hitem item]

theorem mem_events {event : Event} {sections : List (List Para)} : event ∈ events sections ↔
    ∃ paras ∈ sections, ∃ p ∈ paras, event = .text .paragraph p.text ∨
      ∃ item ∈ p.items, event ∈ itemEvents item := by
  simp only [events, List.mem_flatMap, List.mem_cons]

theorem mem_visited {v : RecordKind × Para} {sections : List (List Para)} : v ∈ visited sections ↔
    ∃ paras ∈ sections, ∃ p ∈ paras, v = (.paragraph, p) ∨ ∃ item ∈ p.items, v ∈ item.paras := by
  simp only [visited, List.mem_flatMap, List.mem_cons]

/-- A warning of a table is that of a paragraph of a cell. -/
theorem warning_mem_cells {name : String} {trs : List (List (Option (List Para)))} :
    .warning name ∈ (cellParas trs).flatMap cellEvents ↔
      name = "NESTED_CONTROL_SKIPPED" ∧ ∃ q ∈ cellParas trs, q.HasStructuredItems := by
  rw [List.mem_flatMap]
  constructor
  · rintro ⟨q, hq, hmem⟩
    rcases List.mem_cons.mp hmem with htext | hmem
    · exact nomatch htext
    split at hmem
    · rename_i hstructured
      exact ⟨Event.warning.inj (List.mem_singleton.mp hmem), q, hq, hstructured⟩
    · exact absurd hmem List.not_mem_nil
  · rintro ⟨rfl, q, hq, hstructured⟩
    refine ⟨q, hq, List.mem_cons_of_mem _ ?_⟩
    rw [if_pos hstructured]
    exact List.mem_singleton_self _

theorem warning_mem_control {name : String} {control : Control} :
    .warning name ∈ controlEvents control ↔
      name = "UNSUPPORTED_ENDNOTE" ∧ ∃ subList, control = .endNote subList := by
  cases control with
  | footNote subList => simp [controlEvents]
  | endNote subList => simp [controlEvents]
  | other paras => simp [controlEvents]

/-- **The warning of skipped controls** comes from a paragraph of a cell. -/
theorem mem_events_nested (sections : List (List Para)) :
    .warning "NESTED_CONTROL_SKIPPED" ∈ events sections ↔
      ∃ v ∈ visited sections, v.1 = .tableCell ∧ v.2.HasStructuredItems := by
  rw [mem_events]
  constructor
  · rintro ⟨paras, hparas, p, hp, htext | ⟨item, hitem, hmem⟩⟩
    · exact nomatch htext
    cases item with
    | table trs =>
      obtain ⟨-, q, hq, hstructured⟩ := warning_mem_cells.mp hmem
      exact ⟨(.tableCell, q), mem_visited.mpr ⟨paras, hparas, p, hp,
        .inr ⟨_, hitem, List.mem_map_of_mem hq⟩⟩, rfl, hstructured⟩
    | ctrl ctrlItems =>
      obtain ⟨control, -, hmem⟩ := List.mem_flatMap.mp hmem
      exact absurd (warning_mem_control.mp hmem).1 (by decide)
    | text value => exact absurd hmem List.not_mem_nil
    | object paras => exact absurd hmem List.not_mem_nil
  · rintro ⟨v, hv, hkind, hstructured⟩
    obtain ⟨paras, hparas, p, hp, rfl | ⟨item, hitem, hmem⟩⟩ := mem_visited.mp hv
    · exact nomatch hkind
    refine ⟨paras, hparas, p, hp, .inr ⟨item, hitem, ?_⟩⟩
    cases item with
    | table trs =>
      obtain ⟨q, hq, rfl⟩ := List.mem_map.mp hmem
      exact warning_mem_cells.mpr ⟨rfl, q, hq, hstructured⟩
    | ctrl ctrlItems =>
      obtain ⟨control, -, hmem⟩ := List.mem_flatMap.mp hmem
      cases control with
      | footNote subList =>
        obtain ⟨q, -, rfl⟩ := List.mem_map.mp hmem
        exact nomatch hkind
      | endNote subList => exact absurd hmem List.not_mem_nil
      | other paras => exact absurd hmem List.not_mem_nil
    | text value => exact absurd hmem List.not_mem_nil
    | object paras => exact absurd hmem List.not_mem_nil

/-- **The warning of endnotes** comes from an endnote of a paragraph of a section. -/
theorem mem_events_endnote (sections : List (List Para)) :
    .warning "UNSUPPORTED_ENDNOTE" ∈ events sections ↔ HasEndnote sections := by
  rw [mem_events]
  constructor
  · rintro ⟨paras, hparas, p, hp, htext | ⟨item, hitem, hmem⟩⟩
    · exact nomatch htext
    cases item with
    | table trs => exact absurd (warning_mem_cells.mp hmem).1 (by decide)
    | ctrl ctrlItems =>
      obtain ⟨control, hcontrol, hmem⟩ := List.mem_flatMap.mp hmem
      obtain ⟨-, subList, rfl⟩ := warning_mem_control.mp hmem
      exact ⟨paras, hparas, p, hp, ctrlItems, hitem, subList, hcontrol⟩
    | text value => exact absurd hmem List.not_mem_nil
    | object paras => exact absurd hmem List.not_mem_nil
  · rintro ⟨paras, hparas, p, hp, ctrlItems, hitem, subList, hnote⟩
    exact ⟨paras, hparas, p, hp, .inr ⟨_, hitem, List.mem_flatMap.mpr
      ⟨_, hnote, warning_mem_control.mpr ⟨rfl, subList, rfl⟩⟩⟩⟩

/-! ## What is skipped -/

/-- A paragraph of a cell or a footnote holds a table or a note, which is not read. -/
def Skips (sections : List (List Para)) : Prop :=
  ∃ v ∈ visited sections, v.1 ≠ .paragraph ∧ Holds v.2

/-- The walk comes across something that it warns of. -/
def Notices (sections : List (List Para)) : Prop :=
  HasEndnote sections ∨ ∃ v ∈ visited sections, v.1 = .tableCell ∧ v.2.HasStructuredItems

/-- One of the two warnings of content that is not read is given. -/
def Announced (c : RecordCollector) : Prop :=
  "NESTED_CONTROL_SKIPPED" ∈ c.warnings ∨ "UNSUPPORTED_ENDNOTE" ∈ c.warnings

/-- What `collect` leaves: the records of the calls, and their warnings. -/
theorem collect_bodies {U : Nfc} {sections : List (List Para)} {c : RecordCollector}
    (h : collect U (bodies sections) = .ok c) :
    c.records.map content = (events sections).filterMap (recordOf U) ∧
      (c.records.map (·.locator)).Nodup ∧ (Announced c ↔ Notices sections) := by
  obtain ⟨c₁, hrun, hend⟩ := bind_eq_ok.mp h
  obtain ⟨hrecords, hwarnings⟩ := foldlM_collectCall_eq_ok hrun
  rw [map_event_bodies] at hrecords hwarnings
  have hnodup : (c₁.records.map (·.locator)).Nodup :=
    nodup_locators (collected_foldlM (fun _ ↦ sound_documentCalls) hrun)
  have hannounced : Announced c₁ ↔ Notices sections := by
    rw [Announced, hwarnings _ (by decide), hwarnings _ (by decide), mem_events_nested,
      mem_events_endnote, Notices]
    simp [RecordCollector.empty, or_comm]
  split at hend
  · obtain rfl := Except.ok.inj hend
    have hsame : (c₁.warn "NO_EXTRACTABLE_TEXT").records = c₁.records ∧
        (Announced (c₁.warn "NO_EXTRACTABLE_TEXT") ↔ Announced c₁) := by
      rw [RecordCollector.warn]
      split
      · exact ⟨rfl, by simp [Announced]⟩
      · exact ⟨rfl, Iff.rfl⟩
    rw [hsame.1, hsame.2]
    exact ⟨hrecords, hnodup, hannounced⟩
  · obtain rfl := Except.ok.inj hend
    exact ⟨hrecords, hnodup, hannounced⟩

/-- The paragraph `x`. -/
def plainSections : List (List Para) := [[.mk [[.text (.onlyText (lit "x"))]]]]

/-- The text `y` and an endnote. -/
def notedPara : Para := .mk [[.text (.onlyText (lit "y")), .ctrl [.endNote none]]]

/-- The paragraph `x` with a footnote. -/
def notedSections : List (List Para) :=
  [[.mk [[.text (.onlyText (lit "x")), .ctrl [.footNote (some [notedPara])]]]]]

end Hwpx

end Sidecar

open Sidecar Sidecar.Hwpx in
/-- **The records are those of the paragraphs that are read, and what is skipped is announced exactly when
the walk notices something.** -/
theorem hwpx_skipped_announced_iff (U : Nfc) (sections : List (List Para)) {c : RecordCollector}
    (h : collect U (bodies sections) = .ok c) :
    c.records.map (fun r ↦ (r.kind, r.text)) =
        ((visited sections).map fun v ↦ (v.1, U.normalizeText v.2.text)).filter (¬IsBlank ·.2) ∧
      (c.records.map (·.locator)).Nodup ∧
      ((Skips sections → Announced c) ↔ (Skips sections → Notices sections)) := by
  obtain ⟨hrecords, hnodup, hannounced⟩ := collect_bodies h
  refine ⟨?_, hnodup, by rw [hannounced]⟩
  refine hrecords.trans ((filterMap_events U sections).trans ?_)
  rw [← List.filterMap_eq_filter, List.filterMap_map]
  refine List.filterMap_congr fun v _ ↦ ?_
  by_cases hblank : IsBlank (U.normalizeText v.2.text)
  · rw [recordOf, if_pos hblank]
    exact (if_neg (by simpa using hblank)).symm
  · rw [recordOf, if_neg hblank]
    exact (if_pos (by simpa using hblank)).symm

open Sidecar Sidecar.Hwpx in
theorem hwpx_skipped_announced_plain :
    (Skips plainSections → Announced ⟨[⟨.paragraph, lit "x", ⟨0, 0, .body⟩⟩], [], 1⟩) ↔
      (Skips plainSections → Notices plainSections) :=
  (hwpx_skipped_announced_iff Nfc.ascii plainSections (by decide)).2.2

open Sidecar Sidecar.Hwpx in
/-- The endnote in the footnote is not read, and there is no warning. -/
theorem hwpx_footnote_silent :
    ∃ c, collect Nfc.ascii (bodies notedSections) = .ok c ∧ Skips notedSections ∧ ¬Announced c := by
  refine ⟨⟨[⟨.paragraph, lit "x", ⟨0, 0, .body⟩⟩, ⟨.footnote, lit "y", ⟨0, 0, .footnote 0 0⟩⟩], [], 2⟩,
    by decide, ⟨(.footnote, notedPara), List.mem_cons_of_mem _ List.mem_cons_self, nofun, ?_⟩,
    fun h ↦ h.elim List.not_mem_nil List.not_mem_nil⟩
  have hcontrol : .ctrl [.endNote none] ∈ notedPara.items := List.mem_cons_of_mem _ List.mem_cons_self
  exact .endNote hcontrol List.mem_cons_self

end MeetingRag
