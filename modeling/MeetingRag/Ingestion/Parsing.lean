import MeetingRag.Ingestion.Canonical

/-!
# The output of a parser process

Two readers take the bytes that an untrusted process wrote: `_parse_json_object` for the result file of
the orchestrator, and `_safe_json_object` for the standard output that the runner collects. Both demand
one JSON object in UTF-8 with distinct keys, finite numbers and no lone surrogate, and both turn every
exception of the decoder into a `ValueError`, `RecursionError` included. Only the second one looks at
the header already.
-/

open Outcome Py Py.Json

namespace MeetingRag

/-! ## Strict JSON -/

/-- `reject_duplicate_keys`. -/
def rejectDuplicateKeys (message : String) (pairs : Fields) : Except Exc Fields :=
  pairs.foldlM (fun (result : Fields) (p : Str × Json) ↦ do
    check (p.1 ∉ result.map Prod.fst) message
    .ok (result ++ [p])) []

/-- The arguments of `json.loads` that refuse duplicate keys and the numbers that JSON does not have. -/
def strictHooks (duplicate nonFinite : String) : Hooks where
  object := rejectDuplicateKeys duplicate
  constant _ := .error (.valueError nonFinite)

/-- `json.loads(raw.decode("utf-8"), ...)`. -/
def loadsUtf8 (hooks : Hooks) (limit : ℕ) (data : List UInt8) : Except Exc Json :=
  match decodeUtf8 data with
  | some text => loads hooks limit text
  | none => .error .unicodeDecodeError

mutual

/-- `_reject_non_scalar_unicode`. -/
def rejectNonScalarUnicode (message : String) : Json → Except Exc Unit
  | .str s => check (Scalar s) message
  | .object fields => rejectNonScalarFields message fields
  | .array items => rejectNonScalarItems message items
  | _ => .ok ()

def rejectNonScalarItems (message : String) : List Json → Except Exc Unit
  | [] => .ok ()
  | v :: items => do
    rejectNonScalarUnicode message v
    rejectNonScalarItems message items

def rejectNonScalarFields (message : String) : Fields → Except Exc Unit
  | [] => .ok ()
  | (key, v) :: fields => do
    check (Scalar key) message
    rejectNonScalarUnicode message v
    rejectNonScalarFields message fields

end

/-- `except (UnicodeDecodeError, json.JSONDecodeError, RecursionError, ValueError)`. -/
def Undecodable (e : Exc) : Prop := e.IsValueError ∨ e = .recursionError

instance : DecidablePred Undecodable := fun e ↦
  inferInstanceAs (Decidable (e.IsValueError ∨ e = .recursionError))

/-- The texts of the exceptions of a reader. -/
structure ReaderTexts where
  duplicate : String
  nonFinite : String
  syntaxError : String
  notObject : String
  nonScalar : String

/-- What the two readers have in common. -/
def readObject (texts : ReaderTexts) (limit : ℕ) (data : List UInt8) : Except Exc Fields := do
  let value ← recast Undecodable (.valueError texts.syntaxError)
    (loadsUtf8 (strictHooks texts.duplicate texts.nonFinite) limit data)
  let fields ← asObject texts.notObject value
  rejectNonScalarUnicode texts.nonScalar value
  .ok fields

def Ipc.texts : ReaderTexts where
  duplicate := "parser result contains duplicate JSON keys"
  nonFinite := "parser result contains a non-finite number"
  syntaxError := "parser result must be one UTF-8 JSON object"
  notObject := "parser result must be an object"
  nonScalar := "parser result contains a non-scalar Unicode value"

/-- `_parse_json_object`. -/
def Ipc.parseJsonObject (limit : ℕ) (data : List UInt8) : Except Exc Fields :=
  readObject Ipc.texts limit data

def Runner.texts : ReaderTexts where
  duplicate := "parser output contains duplicate JSON keys"
  nonFinite := "parser output contains a non-finite number"
  syntaxError := "parser output must be one UTF-8 JSON value"
  notObject := "parser output must be a JSON object"
  nonScalar := "parser output contains a non-scalar Unicode value"

/-- `_safe_json_object`. -/
def Runner.safeJsonObject (limit : ℕ) (data : List UInt8) : Except Exc Fields := do
  let parsed ← readObject Runner.texts limit data
  check (EqInt 1 (get parsed "schema_version")) "unsupported parser output schema_version"
  check ((get parsed "ok").isBool = true) "parser output is missing boolean ok"
  .ok parsed

/-! ## What is read -/

/-- A leaf without a lone surrogate. -/
def ScalarLeaf : Json → Prop
  | .str s => Scalar s
  | _ => True

/-- A value without a lone surrogate. -/
def ScalarJson : Json → Prop := Each ScalarLeaf fun ks ↦ ∀ k ∈ ks, Scalar k

/-- The bytes are the UTF-8 text of a JSON object with these fields, whose keys are distinct, whose
numbers are finite and whose texts have no lone surrogate, nested as deeply as `limit` allows. -/
def Spells (limit : ℕ) (data : List UInt8) (fields : Fields) : Prop :=
  ∃ text, decodeUtf8 data = some text ∧ loads (strictHooks "" "") limit text = .ok (.object fields) ∧
    ScalarJson (.object fields)

theorem rejectDuplicateKeys_eq_ok {message : String} {pairs fields : Fields} :
    rejectDuplicateKeys message pairs = .ok fields ↔ fields = pairs ∧ (pairs.map Prod.fst).Nodup := by
  have hstep : ∀ before : Fields, (before.map Prod.fst).Nodup →
      (pairs.foldlM (fun (result : Fields) (p : Str × Json) ↦ do
        check (p.1 ∉ result.map Prod.fst) message
        .ok (result ++ [p])) before = .ok fields ↔
        fields = before ++ pairs ∧ ((before ++ pairs).map Prod.fst).Nodup) := by
    induction pairs with
    | nil =>
      intro before hbefore
      rw [List.foldlM_nil, pure_eq_ok, List.append_nil]
      exact ⟨fun h ↦ ⟨h.symm, hbefore⟩, fun h ↦ h.1.symm⟩
    | cons p pairs ih =>
      intro before hbefore
      rw [List.foldlM_cons, bind_eq_ok]
      simp only [check_bind_eq_ok, Except.ok.injEq]
      by_cases hfresh : p.1 ∉ before.map Prod.fst
      · have hnodup : ((before ++ [p]).map Prod.fst).Nodup := by
          rw [List.map_append, List.nodup_append_comm]
          exact List.nodup_cons.mpr ⟨hfresh, hbefore⟩
        have hrest := ih (before ++ [p]) hnodup
        rw [List.append_assoc, List.singleton_append] at hrest
        rw [← hrest]
        exact ⟨fun ⟨_, ⟨_, hu⟩, h⟩ ↦ hu ▸ h, fun h ↦ ⟨_, ⟨hfresh, rfl⟩, h⟩⟩
      · refine iff_of_false (fun ⟨_, ⟨h, _⟩, _⟩ ↦ hfresh h) fun ⟨_, hnodup⟩ ↦ hfresh fun hmem ↦ ?_
        rw [List.map_append, List.map_cons] at hnodup
        exact (List.disjoint_of_nodup_append hnodup) hmem List.mem_cons_self
  exact hstep [] List.nodup_nil

theorem not_raises_rejectDuplicateKeys {P : Exc → Prop} {message : String} (h : ¬P (.valueError message))
    (pairs : Fields) : ¬Raises P (rejectDuplicateKeys message pairs) := by
  rw [rejectDuplicateKeys, raises_foldlM]
  rintro ⟨_, _, _, _, -, -, hraises⟩
  rw [check, raises_require_bind h] at hraises
  exact not_raises_ok hraises.2

/-- The hook keeps an object with distinct keys as it is. -/
theorem strictHooks_object {duplicate nonFinite : String} {fields : Fields}
    (h : (fields.map Prod.fst).Nodup) : (strictHooks duplicate nonFinite).object fields = .ok fields :=
  rejectDuplicateKeys_eq_ok.mpr ⟨rfl, h⟩

theorem rejectNonScalarItems_eq_ok {message : String} {items : List Json}
    (h : ∀ v ∈ items, rejectNonScalarUnicode message v = .ok () ↔ ScalarJson v) :
    rejectNonScalarItems message items = .ok () ↔ ∀ v ∈ items, ScalarJson v := by
  induction items with
  | nil => exact ⟨fun _ ↦ List.forall_mem_nil _, fun _ ↦ rfl⟩
  | cons v items ih =>
    obtain ⟨hv, hitems⟩ := List.forall_mem_cons.mp h
    rw [rejectNonScalarItems, bind_eq_ok, List.forall_mem_cons, ← hv, ← ih hitems]
    exact ⟨fun ⟨_, h⟩ ↦ h, fun h ↦ ⟨_, h⟩⟩

theorem rejectNonScalarFields_eq_ok {message : String} {fields : Fields}
    (h : ∀ f ∈ fields, rejectNonScalarUnicode message f.2 = .ok () ↔ ScalarJson f.2) :
    rejectNonScalarFields message fields = .ok () ↔
      (∀ k ∈ fields.map Prod.fst, Scalar k) ∧ ∀ f ∈ fields, ScalarJson f.2 := by
  induction fields with
  | nil => exact ⟨fun _ ↦ ⟨List.forall_mem_nil _, List.forall_mem_nil _⟩, fun _ ↦ rfl⟩
  | cons f fields ih =>
    obtain ⟨key, v⟩ := f
    obtain ⟨hv, hfields⟩ := List.forall_mem_cons.mp h
    rw [rejectNonScalarFields, check_bind_eq_ok, bind_eq_ok, List.map_cons, List.forall_mem_cons,
      List.forall_mem_cons, ← hv]
    constructor
    · rintro ⟨hkey, _, hvalue, hrest⟩
      obtain ⟨hkeys, hrest⟩ := (ih hfields).mp hrest
      exact ⟨⟨hkey, hkeys⟩, hvalue, hrest⟩
    · rintro ⟨⟨hkey, hkeys⟩, hvalue, hrest⟩
      exact ⟨hkey, _, hvalue, (ih hfields).mpr ⟨hkeys, hrest⟩⟩

theorem rejectNonScalarUnicode_eq_ok {message : String} {v : Json} :
    rejectNonScalarUnicode message v = .ok () ↔ ScalarJson v := by
  induction v with
  | str s => rw [rejectNonScalarUnicode, check_eq_ok, ScalarJson, each_of_leaf (v := .str s) trivial, ScalarLeaf]
  | array items ih => rw [rejectNonScalarUnicode, rejectNonScalarItems_eq_ok ih, ScalarJson, each_array]
  | object fields ih =>
    rw [rejectNonScalarUnicode, rejectNonScalarFields_eq_ok ih, ScalarJson, each_object]
  | _ => exact ⟨fun _ ↦ Each.leaf trivial trivial, fun _ ↦ rfl⟩

theorem loadsUtf8_eq_ok {hooks : Hooks} {limit : ℕ} {data : List UInt8} {v : Json} :
    loadsUtf8 hooks limit data = .ok v ↔ ∃ text, decodeUtf8 data = some text ∧ loads hooks limit text = .ok v := by
  cases hdecode : decodeUtf8 data <;> simp [loadsUtf8, hdecode]

/-- **A reader returns exactly the objects that bytes can spell.** -/
theorem readObject_eq_ok {texts : ReaderTexts} {limit : ℕ} {data : List UInt8} {fields : Fields} :
    readObject texts limit data = .ok fields ↔ Spells limit data fields := by
  have hloads : ∀ text v, loads (strictHooks texts.duplicate texts.nonFinite) limit text = .ok v ↔
      loads (strictHooks "" "") limit text = .ok v := by
    intro text v
    apply loads_congr
    · exact fun _ _ ↦ rejectDuplicateKeys_eq_ok.trans rejectDuplicateKeys_eq_ok.symm
    · exact fun _ _ ↦ iff_of_false (fun h ↦ nomatch h) fun h ↦ nomatch h
  simp only [readObject, bind_eq_ok, recast_eq_ok, loadsUtf8_eq_ok, hloads, asObject_eq_ok,
    Except.ok.injEq]
  constructor
  · rintro ⟨_, ⟨text, hdecode, hloads⟩, fields, rfl, _, hscalar, rfl⟩
    exact ⟨text, hdecode, hloads, rejectNonScalarUnicode_eq_ok.mp hscalar⟩
  · rintro ⟨text, hdecode, hloads, hscalar⟩
    exact ⟨_, ⟨text, hdecode, hloads⟩, fields, rfl, _, rejectNonScalarUnicode_eq_ok.mpr hscalar, rfl⟩

theorem not_raises_rejectNonScalarUnicode {message : String} (v : Json) :
    ¬Raises Exc.Uncaught (rejectNonScalarUnicode message v) := by
  induction v with
  | str s => exact not_raises_check
  | array items ih =>
    rw [rejectNonScalarUnicode]
    induction items with
    | nil => exact not_raises_ok
    | cons v items hind =>
      obtain ⟨hv, hitems⟩ := List.forall_mem_cons.mp ih
      exact not_raises_bind hv fun _ _ ↦ hind hitems
  | object fields ih =>
    rw [rejectNonScalarUnicode]
    induction fields with
    | nil => exact not_raises_ok
    | cons f fields hind =>
      obtain ⟨hv, hfields⟩ := List.forall_mem_cons.mp ih
      exact not_raises_bind not_raises_check fun _ _ ↦ not_raises_bind hv fun _ _ ↦ hind hfields
  | _ => exact not_raises_ok

/-- A reader raises nothing but `ValueError`. -/
theorem not_raises_readObject (texts : ReaderTexts) (limit : ℕ) (data : List UInt8) :
    ¬Raises Exc.Uncaught (readObject texts limit data) := by
  refine not_raises_bind ?_ fun _ _ ↦ not_raises_bind not_raises_asObject fun _ _ ↦
    not_raises_bind (not_raises_rejectNonScalarUnicode _) fun _ _ ↦ not_raises_ok
  apply not_raises_recast (not_uncaught_valueError _)
  -- The decoder raises what the `except` clause lists.
  unfold loadsUtf8
  split
  · apply not_raises_loads
    case hdecode => exact fun h ↦ h (Or.inl trivial)
    case hrecursion => exact fun h ↦ h (Or.inr rfl)
    case hvalue => exact fun _ h ↦ h (Or.inl trivial)
    case hobject => exact not_raises_rejectDuplicateKeys fun h ↦ h (Or.inl trivial)
    case hconstant => exact fun _ ↦ raises_error.not.mpr fun h ↦ h (Or.inl trivial)
  · exact raises_error.not.mpr fun h ↦ h (Or.inl trivial)

theorem not_raises_safeJsonObject (limit : ℕ) (data : List UInt8) :
    ¬Raises Exc.Uncaught (Runner.safeJsonObject limit data) :=
  not_raises_bind (not_raises_readObject _ _ _) fun _ _ ↦ not_raises_bind not_raises_check fun _ _ ↦
    not_raises_bind not_raises_check fun _ _ ↦ not_raises_ok

end MeetingRag
