import MeetingRag.Ingestion.Contract

/-!
# The checks of a locator

Both validators of the parser protocol have these checks, with the same rules in the same order. They
differ in how they read a field, in how they check a text and the parser of an HWP locator, and in some
texts of exceptions. A `Dialect` is what one of them has of its own, with the laws that the checks
need: `validateLocator` then accepts what `Locator` describes, and the only other exception than a
`ValueError` is about an integer coordinate that no `float` can hold.
-/

open Outcome Py Json

namespace MeetingRag

/-! ## Single values -/

/-- `_require_mapping`. -/
def requireMapping (label : String) (v : Json) : Except Exc Fields :=
  asObject (label ++ " must be an object") v

/-- `_require_exact_keys`. -/
def requireExactKeys (names : List String) (label : String) (fields : Fields) : Except Exc Unit :=
  check (ExactKeys names fields) (label ++ " fields do not match the protocol")

/-- `_require_hash` and `_require_sha256`. -/
def requireSha256 (label : String) : Json → Except Exc Str
  | .str s => do
    check (IsSha256 s) (label ++ " must be lowercase SHA-256")
    .ok s
  | _ => .error (.valueError (label ++ " must be lowercase SHA-256"))

/-- `_require_index`. -/
def requireIndex (label : String) (minimum : ℤ) : Json → Except Exc ℤ
  | .int n => do
    check (minimum ≤ n) (label ++ " must be an integer >= " ++ toString minimum)
    .ok n
  | _ => .error (.valueError (label ++ " must be an integer >= " ++ toString minimum))

/-- `_validate_bbox`, the loop over the four coordinates written out. -/
def validateBbox (shape coordinate area : String) : Json → Except Exc Unit
  | .array [a, b, c, d] => do
    let left ← requireUnit coordinate a
    let top ← requireUnit coordinate b
    let right ← requireUnit coordinate c
    let bottom ← requireUnit coordinate d
    check (left < right ∧ top < bottom) area
  | _ => .error (.valueError shape)

theorem requireMapping_eq_ok {label : String} {v : Json} {fields : Fields} :
    requireMapping label v = .ok fields ↔ v = .object fields := asObject_eq_ok

theorem requireSha256_eq_ok {label : String} {v : Json} {s : Str} :
    requireSha256 label v = .ok s ↔ v = .str s ∧ IsSha256 s := by
  cases v with
  | str t =>
    rw [requireSha256, check_bind_eq_ok, Except.ok.injEq, Json.str.injEq]
    constructor
    · rintro ⟨h, heq⟩
      exact ⟨heq, heq ▸ h⟩
    · rintro ⟨heq, h⟩
      exact ⟨heq ▸ h, heq⟩
  | _ => simp [requireSha256]

theorem requireIndex_eq_ok {label : String} {minimum n : ℤ} {v : Json} :
    requireIndex label minimum v = .ok n ↔ v = .int n ∧ minimum ≤ n := by
  cases v with
  | int m =>
    rw [requireIndex, check_bind_eq_ok, Except.ok.injEq, Json.int.injEq]
    constructor
    · rintro ⟨h, heq⟩
      exact ⟨heq, heq ▸ h⟩
    · rintro ⟨heq, h⟩
      exact ⟨heq ▸ h, heq⟩
  | _ => simp [requireIndex]

/-- The first coordinate that is not in the unit interval is an integer that no `float` can hold. -/
def BboxTrap (v : Json) : Prop :=
  ∃ items x, v = .array items ∧ items.length = 4 ∧
    items.find? (fun x ↦ (unit? x).isNone) = some x ∧ Overflows x

theorem validateBbox_eq_ok {shape coordinate area : String} {v : Json} :
    validateBbox shape coordinate area v = .ok () ↔ IsBbox v := by
  unfold validateBbox
  split
  · next a b c d =>
    simp only [bind_eq_ok, requireUnit_eq_ok, check_eq_ok, IsBbox, Json.array.injEq, List.cons.injEq,
      and_true]
    constructor
    · rintro ⟨left, hl, top, ht, right, hr, bottom, hb, harea⟩
      exact ⟨a, b, c, d, left, top, right, bottom, ⟨rfl, rfl, rfl, rfl⟩, hl, ht, hr, hb, harea⟩
    · rintro ⟨_, _, _, _, left, top, right, bottom, ⟨rfl, rfl, rfl, rfl⟩, hl, ht, hr, hb, harea⟩
      exact ⟨left, hl, top, ht, right, hr, bottom, hb, harea⟩
  · next hshape =>
    refine iff_of_false (by simp) ?_
    rintro ⟨a, b, c, d, -, -, -, -, rfl, -⟩
    exact hshape a b c d rfl

theorem bboxTrap_cons {a b c d : Json} :
    BboxTrap (.array [a, b, c, d]) ↔
      ∃ x, [a, b, c, d].find? (fun x ↦ (unit? x).isNone) = some x ∧ Overflows x := by
  constructor
  · rintro ⟨items, x, heq, -, hfind, hx⟩
    cases heq
    exact ⟨x, hfind, hx⟩
  · rintro ⟨x, hfind, hx⟩
    exact ⟨_, x, rfl, rfl, hfind, hx⟩

theorem raises_validateBbox {shape coordinate area : String} {v : Json} :
    Raises Exc.Uncaught (validateBbox shape coordinate area v) ↔ BboxTrap v := by
  unfold validateBbox
  split
  · next a b c d =>
    -- Each coordinate either ends the search or lets the next one be looked at.
    have step : ∀ (x : Json) (rest : List Json),
        (∃ y, (x :: rest).find? (fun x ↦ (unit? x).isNone) = some y ∧ Overflows y) ↔
          Overflows x ∨ ∃ q, unit? x = some q ∧
            ∃ y, rest.find? (fun x ↦ (unit? x).isNone) = some y ∧ Overflows y := by
      intro x rest
      cases hx : unit? x with
      | none =>
        rw [List.find?_cons_of_pos (by rw [hx]; rfl)]
        simp
      | some q =>
        rw [List.find?_cons_of_neg (by rw [hx]; exact Bool.noConfusion)]
        simp [not_overflows_of_unit hx]
    rw [bboxTrap_cons, step, step, step, step]
    simp only [raises_requireUnit_bind, not_raises_check, List.find?_nil]
    simp
  · next hshape =>
    refine iff_of_false (by simp) ?_
    rintro ⟨items, x, rfl, hlength, -⟩
    obtain ⟨a, b, c, d, rfl⟩ := List.length_eq_four.mp hlength
    exact hshape a b c d rfl

theorem not_raises_requireMapping {label : String} {v : Json} :
    ¬Raises Exc.Uncaught (requireMapping label v) := not_raises_asObject

theorem not_raises_requireSha256 {label : String} {v : Json} :
    ¬Raises Exc.Uncaught (requireSha256 label v) := by
  cases v with
  | str s => exact not_raises_bind not_raises_check fun _ _ ↦ not_raises_ok
  | _ => simp [requireSha256]

theorem not_raises_requireIndex {label : String} {minimum : ℤ} {v : Json} :
    ¬Raises Exc.Uncaught (requireIndex label minimum v) := by
  cases v with
  | int n => exact not_raises_bind not_raises_check fun _ _ ↦ not_raises_ok
  | _ => simp [requireIndex]

/-! ## Dialects -/

/-- What a validator has of its own in its checks of a locator. -/
structure Dialect (U : Nfc) where
  /-- A field of an object: `value[name]` or `value.get(name)`. -/
  item : Fields → String → Except Exc Json
  /-- `_require_string` or `_require_normalized_text`. -/
  text : String → ℤ → Json → Except Exc Str
  /-- The check that an HWP locator names the parser of the result, by its name and version. -/
  identity : Str → Str → Fields → Except Exc Unit
  blockId : String
  imageId : String
  bboxShape : String
  bboxCoordinate : String
  bboxArea : String
  unknownKind : String
  item_of_has : ∀ {fields name}, Has fields name → item fields name = .ok (get fields name)
  text_eq_ok : ∀ {label maximum v s},
    text label maximum v = .ok s ↔ v = .str s ∧ ProtocolText U maximum s
  not_raises_text : ∀ {label maximum v}, ¬Raises Exc.Uncaught (text label maximum v)
  identity_eq_ok : ∀ {parser : ParserIdentity U} {fields}, Has fields "parser" →
    Has fields "parser_version" → (identity parser.name parser.version fields = .ok () ↔
      get fields "parser" = .str parser.name ∧ get fields "parser_version" = .str parser.version)
  not_raises_identity : ∀ {name version fields}, Has fields "parser" →
    Has fields "parser_version" → ¬Raises Exc.Uncaught (identity name version fields)

namespace Dialect

variable {U : Nfc} (D : Dialect U)

/-- The index under a name. -/
def indexItem (label : String) (minimum : ℤ) (fields : Fields) (name : String) : Except Exc ℤ := do
  let v ← D.item fields name
  requireIndex label minimum v

/-- The text under a name. -/
def textItem (label : String) (fields : Fields) (name : String) : Except Exc Str := do
  let v ← D.item fields name
  D.text label 128 v

/-- The box under `bbox`. -/
def validateBbox (fields : Fields) : Except Exc Unit := do
  let v ← D.item fields "bbox"
  MeetingRag.validateBbox D.bboxShape D.bboxCoordinate D.bboxArea v

/-- The path of indexes under a name. -/
def validatePath (label : String) (names : List String) (v : Json) : Except Exc Unit := do
  let path ← requireMapping (label ++ " path") v
  requireExactKeys names (label ++ " path") path
  names.forM fun name ↦ do
    let _ ← D.indexItem (label ++ " " ++ name) 0 path name
    .ok ()

/-- The path of indexes under a name, if there is one. -/
def pathItem (label : String) (names : List String) (fields : Fields) (name : String) :
    Except Exc Unit :=
  if Has fields name then D.validatePath label names (get fields name) else .ok ()

def textLocator (fields : Fields) : Except Exc Unit := do
  requireExactKeys ["line", "start", "end"] "text locator" fields
  let _ ← D.indexItem "text line" 1 fields "line"
  let start ← D.indexItem "text start" 0 fields "start"
  let stop ← D.indexItem "text end" 0 fields "end"
  check (start < stop) "text locator end must follow start"

def pdfLocator (fields : Fields) : Except Exc Unit := do
  requireExactKeys ["page", "block_id", "bbox"] "PDF locator" fields
  let _ ← D.indexItem "PDF page" 0 fields "page"
  let _ ← D.textItem D.blockId fields "block_id"
  D.validateBbox fields

def imageLocator (fields : Fields) : Except Exc Unit := do
  requireExactKeys ["image_id", "bbox"] "image locator" fields
  let _ ← D.textItem D.imageId fields "image_id"
  D.validateBbox fields

def docxLocator (fields : Fields) : Except Exc Unit := do
  check (Has fields "paragraph" ∧ KeysIn ["paragraph", "table"] fields)
    "DOCX locator has invalid fields"
  let _ ← D.indexItem "DOCX paragraph" 0 fields "paragraph"
  D.pathItem "DOCX table" ["index", "row", "cell", "paragraph"] fields "table"

def xlsxLocator (fields : Fields) : Except Exc Unit := do
  requireExactKeys ["sheet", "cell", "row", "column"] "XLSX locator" fields
  let _ ← D.textItem "XLSX sheet" fields "sheet"
  let _ ← D.textItem "XLSX cell" fields "cell"
  let _ ← D.indexItem "XLSX row" 1 fields "row"
  let _ ← D.indexItem "XLSX column" 1 fields "column"
  .ok ()

/-- The tables and footnotes of an HWP locator. -/
def hwpPaths (fields : Fields) : Except Exc Unit := do
  check (¬(Has fields "table" ∧ Has fields "footnote"))
    "HWP table and footnote paths are mutually exclusive"
  D.pathItem "HWP table" ["index", "block", "row", "cell", "paragraph"] fields "table"
  D.pathItem "HWP footnote" ["index", "paragraph"] fields "footnote"

def hwpLocator (name version : Str) (fields : Fields) : Except Exc Unit := do
  check (∀ name ∈ ["parser", "parser_version", "section", "paragraph"], Has fields name)
    "HWP locator is missing its structural base"
  check (KeysIn ["parser", "parser_version", "section", "paragraph", "table", "footnote"] fields)
    "HWP locator has unknown fields"
  D.identity name version fields
  let _ ← D.indexItem "HWP section" 0 fields "section"
  let _ ← D.indexItem "HWP paragraph" 0 fields "paragraph"
  D.hwpPaths fields

/-- `_validate_locator`. -/
def validateLocator (name version kind : Str) (fields : Fields) : Except Exc Unit :=
  if kind = lit "text_line" then D.textLocator fields
  else if kind = lit "pdf_block" then D.pdfLocator fields
  else if kind = lit "image_bbox" then D.imageLocator fields
  else if kind = lit "docx_paragraph" then D.docxLocator fields
  else if kind = lit "xlsx_cell" then D.xlsxLocator fields
  else if kind = lit "hwp_paragraph" then D.hwpLocator name version fields
  else .error (.valueError D.unknownKind)

/-! ### What the checks accept -/

variable {D} {fields : Fields}

theorem indexItem_eq_ok {label name : String} {minimum n : ℤ} (h : Has fields name) :
    D.indexItem label minimum fields name = .ok n ↔ get fields name = .int n ∧ minimum ≤ n := by
  rw [indexItem, D.item_of_has h, ok_bind, requireIndex_eq_ok]

theorem textItem_eq_ok {label name : String} {s : Str} (h : Has fields name) :
    D.textItem label fields name = .ok s ↔ get fields name = .str s ∧ ProtocolText U 128 s := by
  rw [textItem, D.item_of_has h, ok_bind, D.text_eq_ok]

theorem validateBbox_eq_ok (h : Has fields "bbox") :
    D.validateBbox fields = .ok () ↔ IsBbox (get fields "bbox") := by
  rw [validateBbox, D.item_of_has h, ok_bind, MeetingRag.validateBbox_eq_ok]

theorem validatePath_eq_ok {label : String} {names : List String} {v : Json} {w : Unit} :
    D.validatePath label names v = .ok w ↔ IsPath names v := by
  simp only [validatePath, bind_eq_ok, requireMapping_eq_ok, requireExactKeys, check_eq_ok, forM_eq_ok,
    IsPath]
  constructor
  · rintro ⟨path, hv, -, hkeys, hitems⟩
    refine ⟨path, hv, hkeys, fun name hname ↦ ?_⟩
    obtain ⟨n, hn, -⟩ := hitems name hname
    exact ⟨n, (indexItem_eq_ok (hkeys.2 name hname)).mp hn⟩
  · rintro ⟨path, hv, hkeys, hitems⟩
    refine ⟨path, hv, (), hkeys, fun name hname ↦ ?_⟩
    obtain ⟨n, hn⟩ := hitems name hname
    exact ⟨n, (indexItem_eq_ok (hkeys.2 name hname)).mpr hn, trivial⟩

theorem pathItem_eq_ok {label name : String} {names : List String} {w : Unit} :
    D.pathItem label names fields name = .ok w ↔
      (Has fields name → IsPath names (get fields name)) := by
  rw [pathItem]
  by_cases h : Has fields name
  · rw [if_pos h, validatePath_eq_ok]
    exact ⟨fun hpath _ ↦ hpath, fun hpath ↦ hpath h⟩
  · rw [if_neg h]
    exact ⟨fun _ hhas ↦ absurd hhas h, fun _ ↦ rfl⟩

theorem textLocator_eq_ok : D.textLocator fields = .ok () ↔ TextLocator fields := by
  rw [textLocator, requireExactKeys, check_bind_eq_ok, TextLocator]
  refine and_congr_right fun hkeys ↦ ?_
  simp only [bind_eq_ok, indexItem_eq_ok (hkeys.2 "line" (by simp)),
    indexItem_eq_ok (hkeys.2 "start" (by simp)), indexItem_eq_ok (hkeys.2 "end" (by simp)), check_eq_ok]
  constructor
  · rintro ⟨line, hline, m, ⟨hm, hzero⟩, n, ⟨hn, -⟩, hlt⟩
    exact ⟨⟨line, hline⟩, m, n, hm, hn, hzero, hlt⟩
  · rintro ⟨⟨line, hline⟩, m, n, hm, hn, hzero, hlt⟩
    exact ⟨line, hline, m, ⟨hm, hzero⟩, n, ⟨hn, by omega⟩, hlt⟩

theorem pdfLocator_eq_ok :
    D.pdfLocator fields = .ok () ↔ PdfLocatorHead U fields ∧ IsBbox (get fields "bbox") := by
  rw [pdfLocator, requireExactKeys, check_bind_eq_ok, PdfLocatorHead, and_assoc]
  refine and_congr_right fun hkeys ↦ ?_
  simp only [bind_eq_ok, indexItem_eq_ok (hkeys.2 "page" (by simp)),
    textItem_eq_ok (hkeys.2 "block_id" (by simp)), validateBbox_eq_ok (hkeys.2 "bbox" (by simp))]
  constructor
  · rintro ⟨page, hpage, block, hblock, hbbox⟩
    exact ⟨⟨⟨page, hpage⟩, block, hblock⟩, hbbox⟩
  · rintro ⟨⟨⟨page, hpage⟩, block, hblock⟩, hbbox⟩
    exact ⟨page, hpage, block, hblock, hbbox⟩

theorem imageLocator_eq_ok :
    D.imageLocator fields = .ok () ↔ ImageLocatorHead U fields ∧ IsBbox (get fields "bbox") := by
  rw [imageLocator, requireExactKeys, check_bind_eq_ok, ImageLocatorHead, and_assoc]
  refine and_congr_right fun hkeys ↦ ?_
  simp only [bind_eq_ok, textItem_eq_ok (hkeys.2 "image_id" (by simp)),
    validateBbox_eq_ok (hkeys.2 "bbox" (by simp))]
  constructor
  · rintro ⟨image, himage, hbbox⟩
    exact ⟨⟨image, himage⟩, hbbox⟩
  · rintro ⟨⟨image, himage⟩, hbbox⟩
    exact ⟨image, himage, hbbox⟩

theorem docxLocator_eq_ok : D.docxLocator fields = .ok () ↔ DocxLocator fields := by
  rw [docxLocator, check_bind_eq_ok, DocxLocator, and_assoc]
  refine and_congr_right fun hhas ↦ and_congr_right fun _ ↦ ?_
  simp only [bind_eq_ok, indexItem_eq_ok hhas, pathItem_eq_ok]
  constructor
  · rintro ⟨n, hn, htable⟩
    exact ⟨⟨n, hn⟩, htable⟩
  · rintro ⟨⟨n, hn⟩, htable⟩
    exact ⟨n, hn, htable⟩

theorem xlsxLocator_eq_ok : D.xlsxLocator fields = .ok () ↔ XlsxLocator U fields := by
  rw [xlsxLocator, requireExactKeys, check_bind_eq_ok, XlsxLocator]
  refine and_congr_right fun hkeys ↦ ?_
  simp only [bind_eq_ok, textItem_eq_ok (hkeys.2 "sheet" (by simp)),
    textItem_eq_ok (hkeys.2 "cell" (by simp)), indexItem_eq_ok (hkeys.2 "row" (by simp)),
    indexItem_eq_ok (hkeys.2 "column" (by simp))]
  constructor
  · rintro ⟨sheet, hsheet, cell, hcell, row, hrow, column, hcolumn, -⟩
    exact ⟨⟨sheet, hsheet⟩, ⟨cell, hcell⟩, ⟨row, hrow⟩, column, hcolumn⟩
  · rintro ⟨⟨sheet, hsheet⟩, ⟨cell, hcell⟩, ⟨row, hrow⟩, column, hcolumn⟩
    exact ⟨sheet, hsheet, cell, hcell, row, hrow, column, hcolumn, trivial⟩

theorem hwpPaths_eq_ok :
    D.hwpPaths fields = .ok () ↔ ¬(Has fields "table" ∧ Has fields "footnote") ∧
      (Has fields "table" → IsPath ["index", "block", "row", "cell", "paragraph"] (get fields "table")) ∧
      (Has fields "footnote" → IsPath ["index", "paragraph"] (get fields "footnote")) := by
  rw [hwpPaths, check_bind_eq_ok]
  refine and_congr_right fun _ ↦ ?_
  simp only [bind_eq_ok, pathItem_eq_ok]
  exact ⟨fun ⟨_, htable, hfootnote⟩ ↦ ⟨htable, hfootnote⟩, fun ⟨htable, hfootnote⟩ ↦ ⟨(), htable, hfootnote⟩⟩

theorem hwpLocator_eq_ok {parser : ParserIdentity U} :
    D.hwpLocator parser.name parser.version fields = .ok () ↔ HwpLocator U parser fields := by
  rw [hwpLocator, check_bind_eq_ok, check_bind_eq_ok, HwpLocator]
  refine and_congr_right fun hhas ↦ and_congr_right fun _ ↦ ?_
  simp only [bind_eq_ok, D.identity_eq_ok (hhas "parser" (by simp)) (hhas "parser_version" (by simp)),
    indexItem_eq_ok (hhas "section" (by simp)), indexItem_eq_ok (hhas "paragraph" (by simp)),
    hwpPaths_eq_ok]
  constructor
  · rintro ⟨-, ⟨hname, hversion⟩, m, hm, n, hn, hpaths⟩
    exact ⟨hname, hversion, ⟨m, hm⟩, ⟨n, hn⟩, hpaths⟩
  · rintro ⟨hname, hversion, ⟨m, hm⟩, ⟨n, hn⟩, hpaths⟩
    exact ⟨(), ⟨hname, hversion⟩, m, hm, n, hn, hpaths⟩

theorem validateLocator_value {parser : ParserIdentity U} {kind : AnchorKind} {w : Unit} :
    D.validateLocator parser.name parser.version (lit kind.value) fields = .ok w ↔
      Locator U parser kind fields := by
  cases kind with
  | textLine => exact textLocator_eq_ok
  | pdfBlock => exact pdfLocator_eq_ok
  | imageBbox => exact imageLocator_eq_ok
  | docxParagraph => exact docxLocator_eq_ok
  | xlsxCell => exact xlsxLocator_eq_ok
  | hwpParagraph => exact hwpLocator_eq_ok

/-! ### What the checks raise

Every field is read after the check of the keys, so no `KeyError` arises. What is left is the box. -/

theorem not_raises_indexItem {label name : String} {minimum : ℤ} (h : Has fields name) :
    ¬Raises Exc.Uncaught (D.indexItem label minimum fields name) := by
  rw [indexItem, D.item_of_has h, ok_bind]
  exact not_raises_requireIndex

theorem not_raises_textItem {label name : String} (h : Has fields name) :
    ¬Raises Exc.Uncaught (D.textItem label fields name) := by
  rw [textItem, D.item_of_has h, ok_bind]
  exact D.not_raises_text

theorem raises_bboxItem (h : Has fields "bbox") :
    Raises Exc.Uncaught (D.validateBbox fields) ↔ BboxTrap (get fields "bbox") := by
  rw [validateBbox, D.item_of_has h, ok_bind, raises_validateBbox]

theorem not_raises_pathItem {label name : String} {names : List String} :
    ¬Raises Exc.Uncaught (D.pathItem label names fields name) := by
  rw [pathItem]
  by_cases h : Has fields name
  · rw [if_pos h, validatePath]
    refine not_raises_bind not_raises_asObject fun path _ ↦ ?_
    rw [requireExactKeys, raises_check_bind]
    rintro ⟨hkeys, hraises⟩
    refine not_raises_forM (fun key hkey ↦ ?_) hraises
    exact not_raises_bind (not_raises_indexItem (hkeys.2 key hkey)) fun _ _ ↦ not_raises_ok
  · rw [if_neg h]
    exact not_raises_ok

theorem not_raises_textLocator : ¬Raises Exc.Uncaught (D.textLocator fields) := by
  rw [textLocator, requireExactKeys, raises_check_bind]
  rintro ⟨hkeys, hraises⟩
  refine not_raises_bind (not_raises_indexItem (hkeys.2 "line" (by simp))) (fun _ _ ↦ ?_) hraises
  refine not_raises_bind (not_raises_indexItem (hkeys.2 "start" (by simp))) fun _ _ ↦ ?_
  exact not_raises_bind (not_raises_indexItem (hkeys.2 "end" (by simp))) fun _ _ ↦ not_raises_check

theorem not_raises_docxLocator : ¬Raises Exc.Uncaught (D.docxLocator fields) := by
  rw [docxLocator, raises_check_bind]
  rintro ⟨⟨hhas, -⟩, hraises⟩
  exact not_raises_bind (not_raises_indexItem hhas) (fun _ _ ↦ not_raises_pathItem) hraises

theorem not_raises_xlsxLocator : ¬Raises Exc.Uncaught (D.xlsxLocator fields) := by
  rw [xlsxLocator, requireExactKeys, raises_check_bind]
  rintro ⟨hkeys, hraises⟩
  refine not_raises_bind (not_raises_textItem (hkeys.2 "sheet" (by simp))) (fun _ _ ↦ ?_) hraises
  refine not_raises_bind (not_raises_textItem (hkeys.2 "cell" (by simp))) fun _ _ ↦ ?_
  refine not_raises_bind (not_raises_indexItem (hkeys.2 "row" (by simp))) fun _ _ ↦ ?_
  exact not_raises_bind (not_raises_indexItem (hkeys.2 "column" (by simp))) fun _ _ ↦ not_raises_ok

theorem not_raises_hwpLocator {name version : Str} :
    ¬Raises Exc.Uncaught (D.hwpLocator name version fields) := by
  rw [hwpLocator, raises_check_bind, raises_check_bind]
  rintro ⟨hhas, -, hraises⟩
  have hidentity : ¬Raises Exc.Uncaught (D.identity name version fields) :=
    D.not_raises_identity (hhas "parser" (by simp)) (hhas "parser_version" (by simp))
  refine not_raises_bind hidentity (fun _ _ ↦ ?_) hraises
  refine not_raises_bind (not_raises_indexItem (hhas "section" (by simp))) fun _ _ ↦ ?_
  refine not_raises_bind (not_raises_indexItem (hhas "paragraph" (by simp))) fun _ _ ↦ ?_
  refine not_raises_bind not_raises_check fun _ _ ↦ ?_
  exact not_raises_bind not_raises_pathItem fun _ _ ↦ not_raises_pathItem

theorem raises_pdfLocator :
    Raises Exc.Uncaught (D.pdfLocator fields) ↔
      PdfLocatorHead U fields ∧ BboxTrap (get fields "bbox") := by
  rw [pdfLocator, requireExactKeys, raises_check_bind, PdfLocatorHead, and_assoc]
  refine and_congr_right fun hkeys ↦ ?_
  have hpage : Has fields "page" := hkeys.2 "page" (by simp)
  have hblock : Has fields "block_id" := hkeys.2 "block_id" (by simp)
  rw [raises_bind_of_not (not_raises_indexItem hpage)]
  simp only [raises_bind_of_not (not_raises_textItem hblock), indexItem_eq_ok hpage,
    textItem_eq_ok hblock, raises_bboxItem (hkeys.2 "bbox" (by simp))]
  constructor
  · rintro ⟨page, hp, block, hb, htrap⟩
    exact ⟨⟨⟨page, hp⟩, block, hb⟩, htrap⟩
  · rintro ⟨⟨⟨page, hp⟩, block, hb⟩, htrap⟩
    exact ⟨page, hp, block, hb, htrap⟩

theorem raises_imageLocator :
    Raises Exc.Uncaught (D.imageLocator fields) ↔
      ImageLocatorHead U fields ∧ BboxTrap (get fields "bbox") := by
  rw [imageLocator, requireExactKeys, raises_check_bind, ImageLocatorHead, and_assoc]
  refine and_congr_right fun hkeys ↦ ?_
  have himage : Has fields "image_id" := hkeys.2 "image_id" (by simp)
  rw [raises_bind_of_not (not_raises_textItem himage)]
  simp only [textItem_eq_ok himage, raises_bboxItem (hkeys.2 "bbox" (by simp))]
  constructor
  · rintro ⟨image, hi, htrap⟩
    exact ⟨⟨image, hi⟩, htrap⟩
  · rintro ⟨⟨image, hi⟩, htrap⟩
    exact ⟨image, hi, htrap⟩

end Dialect

/-- The locator is right up to its box, and the box traps. -/
def LocatorTrap (U : Nfc) : AnchorKind → Fields → Prop
  | .pdfBlock, fields => PdfLocatorHead U fields ∧ BboxTrap (get fields "bbox")
  | .imageBbox, fields => ImageLocatorHead U fields ∧ BboxTrap (get fields "bbox")
  | _, _ => False

namespace Dialect

variable {U : Nfc} {D : Dialect U} {fields : Fields}

theorem raises_validateLocator_value {name version : Str} {kind : AnchorKind} :
    Raises Exc.Uncaught (D.validateLocator name version (lit kind.value) fields) ↔
      LocatorTrap U kind fields := by
  cases kind with
  | textLine => exact iff_of_false not_raises_textLocator not_false
  | pdfBlock => exact raises_pdfLocator
  | imageBbox => exact raises_imageLocator
  | docxParagraph => exact iff_of_false not_raises_docxLocator not_false
  | xlsxCell => exact iff_of_false not_raises_xlsxLocator not_false
  | hwpParagraph => exact iff_of_false not_raises_hwpLocator not_false

/-- A kind that no locator has is refused. -/
theorem validateLocator_of_unknown {name version kind : Str}
    (h : ∀ k : AnchorKind, kind ≠ lit k.value) :
    D.validateLocator name version kind fields = .error (.valueError D.unknownKind) := by
  calc D.validateLocator name version kind fields
      = _ := if_neg (h .textLine)
    _ = _ := if_neg (h .pdfBlock)
    _ = _ := if_neg (h .imageBbox)
    _ = _ := if_neg (h .docxParagraph)
    _ = _ := if_neg (h .xlsxCell)
    _ = _ := if_neg (h .hwpParagraph)

theorem validateLocator_eq_ok {parser : ParserIdentity U} {kind : Str} {w : Unit} :
    D.validateLocator parser.name parser.version kind fields = .ok w ↔
      ∃ k : AnchorKind, kind = lit k.value ∧ Locator U parser k fields := by
  by_cases h : ∃ k : AnchorKind, kind = lit k.value
  · obtain ⟨k, rfl⟩ := h
    rw [validateLocator_value]
    constructor
    · exact fun hlocator ↦ ⟨k, rfl, hlocator⟩
    · rintro ⟨k', heq, hlocator⟩
      cases AnchorKind.value_injective (lit_injective heq)
      exact hlocator
  · have hunknown : ∀ k : AnchorKind, kind ≠ lit k.value := fun k hk ↦ h ⟨k, hk⟩
    rw [validateLocator_of_unknown hunknown]
    refine iff_of_false (fun herror ↦ nomatch herror) ?_
    rintro ⟨k, hk, -⟩
    exact hunknown k hk

theorem raises_validateLocator {name version kind : Str} :
    Raises Exc.Uncaught (D.validateLocator name version kind fields) ↔
      ∃ k : AnchorKind, kind = lit k.value ∧ LocatorTrap U k fields := by
  by_cases h : ∃ k : AnchorKind, kind = lit k.value
  · obtain ⟨k, rfl⟩ := h
    rw [raises_validateLocator_value]
    constructor
    · exact fun htrap ↦ ⟨k, rfl, htrap⟩
    · rintro ⟨k', heq, htrap⟩
      cases AnchorKind.value_injective (lit_injective heq)
      exact htrap
  · have hunknown : ∀ k : AnchorKind, kind ≠ lit k.value := fun k hk ↦ h ⟨k, hk⟩
    rw [validateLocator_of_unknown hunknown, raises_error]
    refine iff_of_false (not_uncaught_valueError _) ?_
    rintro ⟨k, hk, -⟩
    exact hunknown k hk

end Dialect

end MeetingRag
