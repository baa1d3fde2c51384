import MeetingRag.Library.Jsonb
import MeetingRag.Library.Text
import MeetingRag.Library.Url

/-!
# The metadata of an event

`safe_audit_metadata` copies the metadata of an event. It refuses keys that name private content, at any
depth, values that JSON does not have, and objects that take more than 4096 bytes when they are written
without spaces. The ledger stores the copy in a column of type `jsonb`, which has to take at most 4096
bytes in its own text.

The two texts are not the same. The column writes a space for every comma and colon and has no
exponents, and it takes neither a number that is not finite nor a NUL.
-/

open Outcome Py Py.Json Py.Jsonb

namespace MeetingRag

/-- A value of Python, as far as the copy looks at it. A key that is no string is `none`. -/
inductive MetadataValue
  | mapping (items : List (Option Str × MetadataValue))
  | sequence (items : List MetadataValue)
  | null
  | bool (b : Bool)
  | int (n : ℤ)
  | float (x : PyFloat)
  | str (s : Str)
  | uuid (u : UUID)
  | unsupported

/-- What the copy raises. -/
inductive MetadataError
  | keyNotString
  | forbiddenKey (path : Str)
  | unsupportedValue
  | notMapping
  | hugeInteger
  | notEncodable
  | tooLarge
deriving DecidableEq

/-- `_FORBIDDEN_PARTS`. -/
def forbiddenParts : List String :=
  ["password", "token", "cookie", "email", "comment_body", "source_text", "extracted_text",
    "storage_key", "provider_payload", "secret", "credential"]

section Copy

variable (k : Url.Casing)

/-- A key names private content. -/
def ForbiddenKey (key : Str) : Prop := ∃ part ∈ forbiddenParts, lit part <:+: k.lower key

instance : DecidablePred (ForbiddenKey k) :=
  fun key ↦ inferInstanceAs (Decidable (∃ part ∈ forbiddenParts, lit part <:+: k.lower key))

mutual

/-- `validate`. -/
def validateMetadata (path : Str) : MetadataValue → Except MetadataError Json
  | .mapping items => do
    let result ← validateMembers path items
    .ok (.object result)
  | .sequence items => do
    let result ← validateItems path items
    .ok (.array result)
  | .null => .ok .null
  | .bool b => .ok (.bool b)
  | .int n => .ok (.int n)
  | .float x => .ok (.float x)
  | .str s => .ok (.str s)
  | .uuid u => .ok (.str (lit u.str))
  | .unsupported => .error .unsupportedValue

def validateMembers (path : Str) : List (Option Str × MetadataValue) → Except MetadataError Fields
  | [] => .ok []
  | (none, _) :: _ => .error .keyNotString
  | (some key, child) :: items => do
    require (¬ForbiddenKey k key) (.forbiddenKey (path ++ key))
    let v ← validateMetadata (path ++ key ++ [46]) child
    let rest ← validateMembers path items
    .ok ((key, v) :: rest)

def validateItems (path : Str) : List MetadataValue → Except MetadataError (List Json)
  | [] => .ok []
  | child :: items => do
    let v ← validateMetadata path child
    let rest ← validateItems path items
    .ok (v :: rest)

end

end Copy

/-! ## Parts of a value -/

mutual

/-- The keys of the objects in a value. -/
def keysOf : Json → List Str
  | .array items => itemKeys items
  | .object fields => memberKeys fields
  | _ => []

def itemKeys : List Json → List Str
  | [] => []
  | v :: items => keysOf v ++ itemKeys items

def memberKeys : Fields → List Str
  | [] => []
  | (key, v) :: fields => key :: keysOf v ++ memberKeys fields

end

mutual

/-- The values in a value that have no parts. -/
def leavesOf : Json → List Json
  | .array items => itemLeaves items
  | .object fields => memberLeaves fields
  | v => [v]

def itemLeaves : List Json → List Json
  | [] => []
  | v :: items => leavesOf v ++ itemLeaves items

def memberLeaves : Fields → List Json
  | [] => []
  | (_, v) :: fields => leavesOf v ++ memberLeaves fields

end

/-- An integer that `json.dumps` does not write. -/
def LongInteger : Json → Prop
  | .int n => 4300 < (decimalDigits n.natAbs).length
  | _ => False

instance : DecidablePred LongInteger
  | .int n => inferInstanceAs (Decidable (4300 < (decimalDigits n.natAbs).length))
  | .null | .bool _ | .float _ | .str _ | .array _ | .object _ => .isFalse id

/-- A leaf that a column of type `jsonb` takes. -/
def StorableLeaf : Json → Prop
  | .float x => x.isFinite = true
  | .str s => (0 : CodePoint) ∉ s
  | _ => True

instance : DecidablePred StorableLeaf
  | .float x => inferInstanceAs (Decidable (x.isFinite = true))
  | .str s => inferInstanceAs (Decidable ((0 : CodePoint) ∉ s))
  | .null | .bool _ | .int _ | .array _ | .object _ => .isTrue trivial

/-- A value that a column of type `jsonb` takes: its numbers are finite and no text holds a NUL. -/
def JsonbAccepts (v : Json) : Prop :=
  (∀ leaf ∈ leavesOf v, StorableLeaf leaf) ∧ ∀ key ∈ keysOf v, (0 : CodePoint) ∉ key

/-- The checks of `audit_events` on its metadata. -/
def MetadataCheck (v : Json) : Prop :=
  (∃ fields, v = .object fields) ∧ octetLength (jsonbText v) ≤ 4096

/-- `isinstance(result, dict)`. -/
def isObject : Json → Bool
  | .object _ => true
  | _ => false

theorem isObject_iff {v : Json} : isObject v = true ↔ ∃ fields, v = .object fields := by
  cases v <;> simp [isObject]

/-- `safe_audit_metadata`. -/
def safeAuditMetadata (k : Url.Casing) (value : MetadataValue) : Except MetadataError Json := do
  let result ← validateMetadata k [] value
  require (isObject result = true) .notMapping
  require (∀ leaf ∈ leavesOf result, ¬LongInteger leaf) .hugeInteger
  require (Scalar (compactText result)) .notEncodable
  require (octetLength (compactText result) ≤ 4096) .tooLarge
  .ok result

/-! ## What is returned -/

section Returned

variable {k : Url.Casing}

/-- Induction over a value of Python. -/
theorem MetadataValue.induct {motive : MetadataValue → Prop}
    (mapping : ∀ items, (∀ p ∈ items, motive p.2) → motive (.mapping items))
    (sequence : ∀ items, (∀ v ∈ items, motive v) → motive (.sequence items))
    (null : motive .null) (bool : ∀ b, motive (.bool b)) (int : ∀ n, motive (.int n))
    (float : ∀ x, motive (.float x)) (str : ∀ s, motive (.str s)) (uuid : ∀ u, motive (.uuid u))
    (unsupported : motive .unsupported) (v : MetadataValue) : motive v :=
  @MetadataValue.rec motive (fun items ↦ ∀ p ∈ items, motive p.2) (fun items ↦ ∀ v ∈ items, motive v)
    (fun p ↦ motive p.2) (fun items ih ↦ mapping items ih) (fun items ih ↦ sequence items ih) null bool
    int float str uuid unsupported (List.forall_mem_nil _)
    (fun _ _ hp hitems ↦ List.forall_mem_cons.mpr ⟨hp, hitems⟩) (List.forall_mem_nil _)
    (fun _ _ hv hitems ↦ List.forall_mem_cons.mpr ⟨hv, hitems⟩) (fun _ _ hv ↦ hv) v

/-- No key of a copy names private content. -/
theorem keysOf_validateMetadata (value : MetadataValue) : ∀ path v,
    validateMetadata k path value = .ok v → ∀ key ∈ keysOf v, ¬ForbiddenKey k key := by
  induction value using MetadataValue.induct with
  | mapping items ih =>
    have hmembers : ∀ path fields, validateMembers k path items = .ok fields →
        ∀ key ∈ memberKeys fields, ¬ForbiddenKey k key := by
      induction items with
      | nil =>
        rintro path fields h
        cases h
        exact List.forall_mem_nil _
      | cons p items hind =>
        obtain ⟨key, child⟩ := p
        obtain ⟨hchild, hitems⟩ := List.forall_mem_cons.mp ih
        intro path fields h
        cases key with
        | none => exact nomatch h
        | some key =>
          obtain ⟨hkey, h⟩ := require_bind_eq_ok.mp h
          obtain ⟨v, hv, h⟩ := bind_eq_ok.mp h
          obtain ⟨rest, hrest, h⟩ := bind_eq_ok.mp h
          cases h
          rw [memberKeys, List.forall_mem_append, List.forall_mem_cons]
          exact ⟨⟨hkey, hchild _ v hv⟩, hind hitems path rest hrest⟩
    intro path v h
    obtain ⟨fields, hfields, h⟩ := bind_eq_ok.mp h
    cases h
    exact hmembers path fields hfields
  | sequence items ih =>
    have hitems : ∀ path vs, validateItems k path items = .ok vs →
        ∀ key ∈ itemKeys vs, ¬ForbiddenKey k key := by
      induction items with
      | nil =>
        rintro path vs h
        cases h
        exact List.forall_mem_nil _
      | cons child items hind =>
        obtain ⟨hchild, hrest⟩ := List.forall_mem_cons.mp ih
        intro path vs h
        obtain ⟨v, hv, h⟩ := bind_eq_ok.mp h
        obtain ⟨rest, htail, h⟩ := bind_eq_ok.mp h
        cases h
        rw [itemKeys, List.forall_mem_append]
        exact ⟨hchild path v hv, hind hrest path rest htail⟩
    intro path v h
    obtain ⟨vs, hvs, h⟩ := bind_eq_ok.mp h
    cases h
    exact hitems path vs hvs
  | unsupported => exact fun _ _ h ↦ nomatch h
  | _ =>
    intro path v h
    cases h
    exact List.forall_mem_nil _

theorem safeAuditMetadata_eq_ok {value : MetadataValue} {v : Json} :
    safeAuditMetadata k value = .ok v ↔ validateMetadata k [] value = .ok v ∧
      (∃ fields, v = .object fields) ∧ (∀ leaf ∈ leavesOf v, ¬LongInteger leaf) ∧
        Scalar (compactText v) ∧ octetLength (compactText v) ≤ 4096 := by
  simp only [safeAuditMetadata, bind_eq_ok, require_eq_ok, Except.ok.injEq, isObject_iff]
  constructor
  · rintro ⟨v, hv, -, hfields, -, hints, -, hscalar, -, hsize, rfl⟩
    exact ⟨hv, hfields, hints, hscalar, hsize⟩
  · rintro ⟨hv, hfields, hints, hscalar, hsize⟩
    exact ⟨v, hv, ⟨⟩, hfields, ⟨⟩, hints, ⟨⟩, hscalar, ⟨⟩, hsize, rfl⟩

/-- **Metadata can be stored** exactly when its numbers are finite, no text holds a NUL, and there is room
for a space at every comma and colon and for the numbers written out. -/
theorem safeAuditMetadata_storable_iff (k : Url.Casing) (value : MetadataValue) (v : Json)
    (h : safeAuditMetadata k value = .ok v) :
    ((∀ key ∈ keysOf v, ¬ForbiddenKey k key) ∧ JsonbAccepts v ∧ MetadataCheck v) ↔
      ((∀ leaf ∈ leavesOf v, StorableLeaf leaf) ∧ (∀ key ∈ keysOf v, (0 : CodePoint) ∉ key)) ∧
        (octetLength (compactText v) : ℤ) + separators v + growth v ≤ 4096 := by
  obtain ⟨hvalid, hfields, -, -, -⟩ := safeAuditMetadata_eq_ok.mp h
  rw [and_iff_right (keysOf_validateMetadata value [] v hvalid), MetadataCheck, and_iff_right hfields,
    JsonbAccepts, ← octetLength_jsonbText, Nat.cast_le_ofNat]

end Returned

/-- An object without members can be stored. -/
theorem safeAuditMetadata_storable_empty :
    safeAuditMetadata .onlyAscii (.mapping []) = .ok (.object []) ∧
      (((∀ key ∈ keysOf (.object []), ¬ForbiddenKey .onlyAscii key) ∧ JsonbAccepts (.object []) ∧
          MetadataCheck (.object [])) ↔
        ((∀ leaf ∈ leavesOf (.object []), StorableLeaf leaf) ∧
            (∀ key ∈ keysOf (.object []), (0 : CodePoint) ∉ key)) ∧
          (octetLength (compactText (.object [])) : ℤ) + separators (.object []) +
            growth (.object []) ≤ 4096) := by
  have hreturned : safeAuditMetadata .onlyAscii (.mapping []) = .ok (.object []) := by
    refine safeAuditMetadata_eq_ok.mpr ⟨rfl, ⟨[], rfl⟩, List.forall_mem_nil _, ?_, ?_⟩
    · decide
    · decide
  exact ⟨hreturned, safeAuditMetadata_storable_iff _ _ _ hreturned⟩

/-! ### An object that fills the limit -/

/-- One member, with a text of `n` characters. -/
def padded (n : ℕ) : Json := .object [(lit "a", .str (List.replicate n 120))]

def paddedMetadata (n : ℕ) : MetadataValue := .mapping [(some (lit "a"), .str (List.replicate n 120))]

theorem quoted_replicate (n : ℕ) : quoted (List.replicate n 120) = 34 :: List.replicate n 120 ++ [34] := by
  have hplain : (List.replicate n (120 : CodePoint)).flatMap escaped = List.replicate n 120 := by
    induction n with
    | zero => rfl
    | succ n ih =>
      rw [List.replicate_succ, List.flatMap_cons, ih]
      rfl
  rw [quoted, hplain]

theorem octetLength_replicate (n : ℕ) : octetLength (List.replicate n 120) = n := by
  induction n with
  | zero => rfl
  | succ n ih =>
    rw [List.replicate_succ, octetLength_cons, ih, Nat.add_comm]
    rfl

theorem compactText_padded (n : ℕ) : compactText (padded n) =
    [123, 34, 97, 34, 58, 34] ++ (List.replicate n 120 ++ [34, 125]) := by
  have hkey : quoted (lit "a") = [34, 97, 34] := by decide
  rw [padded, compactText, compactMembers, compactMembers, joinText, compactText, quoted_replicate, hkey]
  simp

theorem octetLength_padded (n : ℕ) : octetLength (compactText (padded n)) = n + 8 := by
  have hfront : octetLength [123, 34, 97, 34, 58, 34] = 6 := by decide
  have hback : octetLength [34, 125] = 2 := by decide
  rw [compactText_padded, octetLength_append, octetLength_append, octetLength_replicate, hfront, hback]
  omega

theorem scalar_padded (n : ℕ) : Scalar (compactText (padded n)) := by
  have hplain : ∀ s ∈ [[123, 34, 97, 34, 58, 34], [34, 125]], s.all (!isSurrogate ·) = true := by
    decide
  have hscalar : ∀ s ∈ [[123, 34, 97, 34, 58, 34], [34, 125]], Scalar s := fun s hs c hc ↦ by
    simpa using List.all_eq_true.mp (hplain s hs) c hc
  intro c hc
  rw [compactText_padded, List.mem_append, List.mem_append] at hc
  rcases hc with hc | hc | hc
  · exact hscalar _ List.mem_cons_self c hc
  · rw [List.eq_of_mem_replicate hc]
    rfl
  · exact hscalar _ (List.mem_cons_of_mem _ List.mem_cons_self) c hc

theorem safeAuditMetadata_padded {n : ℕ} (h : n ≤ 4088) :
    safeAuditMetadata .onlyAscii (paddedMetadata n) = .ok (padded n) := by
  have hkey : ¬ForbiddenKey .onlyAscii (lit "a") := by decide
  refine safeAuditMetadata_eq_ok.mpr ⟨?_, ⟨_, rfl⟩, ?_, scalar_padded n, ?_⟩
  · rw [paddedMetadata, validateMetadata, validateMembers, require_of hkey]
    rfl
  · exact List.forall_mem_singleton.mpr id
  · rw [octetLength_padded]
    omega

/-- The copy is returned, and the ledger refuses it: the space behind the colon is too much. -/
theorem full_metadata_refused :
    safeAuditMetadata .onlyAscii (paddedMetadata 4088) = .ok (padded 4088) ∧
      ¬MetadataCheck (padded 4088) := by
  refine ⟨safeAuditMetadata_padded le_rfl, fun h ↦ absurd h.2 ?_⟩
  have hsize := octetLength_jsonbText (padded 4088)
  rw [octetLength_padded] at hsize
  have hspaces : separators (padded 4088) = 1 := rfl
  have hgrowth : growth (padded 4088) = 0 := rfl
  omega

end MeetingRag
