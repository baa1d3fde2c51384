import MeetingRag.Ingestion.Normalization
import MeetingRag.Library.JsonRoundTrip

/-!
# Canonical values

On a value whose keys are plain and whose leaves can be written, `canonicalize_json` is a map over the
leaves (`canonicalizeJson_eq`), and it is a projection: a canonical value is canonical. So the hash of
such a value exists, and it does not change when the value is written as canonical JSON and read back
(`canonicalSha256_canonical`).
-/

open Outcome Py Py.Json

namespace MeetingRag

variable (U : Nfc)

/-- The canonical form of a leaf. -/
def canonicalLeaf : Json → Json
  | .float (.finite q) =>
    match roundDigits q with
    | .finite r => if r.isInt then .int r.num else .float (.finite r)
    | x => .float x
  | .str s => .str (U.normalizeText s)
  | v => v

/-- The canonical form of a value. -/
def canonical : Json → Json := mapLeaves (canonicalLeaf U)

/-- A leaf whose canonical form can be written. -/
def ReadyLeaf : Json → Prop
  | .int n => (decimalDigits n.natAbs).length ≤ 4300
  | .float x => ∃ q, x = .finite q ∧ 0 ≤ q ∧ q ≤ 1
  | .str s => Scalar (U.normalizeText s)
  | _ => True

/-- Distinct keys of printable ASCII text. -/
def PlainKeys (ks : List Str) : Prop := ks.Nodup ∧ ∀ k ∈ ks, Printable k

/-- A value whose canonical form can be written. -/
def Ready : Json → Prop := Each (ReadyLeaf U) PlainKeys

theorem plainKeys_perm (ks ks' : List Str) (hperm : ks.Perm ks') (h : PlainKeys ks) : PlainKeys ks' :=
  ⟨hperm.nodup_iff.mp h.1, fun k hk ↦ h.2 k (hperm.mem_iff.mpr hk)⟩

theorem scalar_of_printable {s : Str} (h : Printable s) : Scalar s := scalar_of_lt fun c hc ↦ (h c hc).2

variable {U}

theorem normalizeText_of_printable {s : Str} (h : Printable s) : U.normalizeText s = s :=
  U.normalizeText_ascii h

theorem readyLeaf_of_printable {s : Str} (h : Printable s) : ReadyLeaf U (.str s) := by
  rw [ReadyLeaf, normalizeText_of_printable h]
  exact scalar_of_printable h

/-! ## Leaves -/

/-- The canonical form of a number of the unit interval: a whole number is an `int`. -/
theorem canonicalLeaf_float {q : ℚ} (h0 : 0 ≤ q) (h1 : q ≤ 1) :
    ∃ r, roundDigits q = .finite r ∧ 0 ≤ r ∧ r ≤ 1 ∧ nearest r = r ∧ roundDigits r = .finite r ∧
      canonicalLeaf U (.float (.finite q)) = if r.isInt then .int r.num else .float (.finite r) := by
  obtain ⟨r, hround, hr0, hr1, hnearest, hagain⟩ := exists_roundDigits h0 h1
  refine ⟨r, hround, hr0, hr1, hnearest, hagain, ?_⟩
  rw [canonicalLeaf, hround]

theorem isLeaf_canonicalLeaf {v : Json} (h : IsLeaf v) : IsLeaf (canonicalLeaf U v) := by
  unfold canonicalLeaf
  split
  · split
    · split <;> trivial
    · trivial
  · trivial
  · exact h

/-- What is said of the canonical form of a leaf, one kind of leaf at a time. -/
theorem canonicalLeaf_induct {motive : Json → Prop} {v : Json} (h : ReadyLeaf U v) (hleaf : IsLeaf v)
    (unit : ∀ r : ℚ, 0 ≤ r → r ≤ 1 → nearest r = r → roundDigits r = .finite r →
      motive (if r.isInt then .int r.num else .float (.finite r)))
    (text : ∀ s, Scalar (U.normalizeText s) → motive (.str (U.normalizeText s)))
    (null : motive .null) (bool : ∀ b, motive (.bool b))
    (int : ∀ n : ℤ, (decimalDigits n.natAbs).length ≤ 4300 → motive (.int n)) :
    motive (canonicalLeaf U v) := by
  cases v with
  | null => exact null
  | bool b => exact bool b
  | int n => exact int n h
  | float x =>
    obtain ⟨q, rfl, h0, h1⟩ := h
    obtain ⟨r, -, hr0, hr1, hnearest, hagain, hcanonical⟩ := canonicalLeaf_float (U := U) h0 h1
    rw [hcanonical]
    exact unit r hr0 hr1 hnearest hagain
  | str s => exact text s h
  | array items => exact hleaf.elim
  | object fields => exact hleaf.elim

/-- A whole number of the unit interval has one digit. -/
theorem digits_of_unit {r : ℚ} (h0 : 0 ≤ r) (h1 : r ≤ 1) (hint : r.isInt = true) :
    (decimalDigits r.num.natAbs).length ≤ 4300 := by
  have hr : (r.num : ℚ) = r := (Rat.den_eq_one_iff r).mp (by simpa [Rat.isInt] using hint)
  have hcases : r.num = 0 ∨ r.num = 1 := by
    have hlow : (0 : ℚ) ≤ r.num := hr ▸ h0
    have hhigh : (r.num : ℚ) ≤ 1 := hr ▸ h1
    have hlow' : 0 ≤ r.num := Int.cast_nonneg_iff.mp hlow
    have hhigh' : r.num ≤ 1 := by exact_mod_cast hhigh
    omega
  rcases hcases with h | h <;> rw [h] <;> decide

theorem readyLeaf_canonicalLeaf {v : Json} (h : ReadyLeaf U v) (hleaf : IsLeaf v) :
    ReadyLeaf U (canonicalLeaf U v) := by
  apply canonicalLeaf_induct h hleaf
  case unit =>
    intro r hr0 hr1 _ _
    split
    · next hint => exact digits_of_unit hr0 hr1 hint
    · exact ⟨r, rfl, hr0, hr1⟩
  case text =>
    intro s hs
    rwa [ReadyLeaf, U.normalizeText_normalizeText]
  case null => trivial
  case bool => exact fun _ ↦ trivial
  case int => exact fun _ hn ↦ hn

theorem canonicalLeaf_canonicalLeaf {v : Json} (h : ReadyLeaf U v) (hleaf : IsLeaf v) :
    canonicalLeaf U (canonicalLeaf U v) = canonicalLeaf U v := by
  apply canonicalLeaf_induct (motive := fun w ↦ canonicalLeaf U w = w) h hleaf
  case unit =>
    intro r _ _ _ hagain
    by_cases hint : r.isInt = true
    · rw [if_pos hint]
      rfl
    · rw [if_neg hint, canonicalLeaf, hagain]
      exact if_neg hint
  case text => exact fun s _ ↦ congrArg Json.str (U.normalizeText_normalizeText s)
  case null => rfl
  case bool => exact fun _ ↦ rfl
  case int => exact fun _ _ ↦ rfl

/-- The canonical form of a leaf is written, and read back. -/
theorem writable_canonicalLeaf {v : Json} (h : ReadyLeaf U v) (hleaf : IsLeaf v) :
    Writable (canonicalLeaf U v) ∧ Readable (canonicalLeaf U v) := by
  apply canonicalLeaf_induct (motive := fun w ↦ Writable w ∧ Readable w) h hleaf
  case unit =>
    intro r hr0 hr1 hnearest _
    by_cases hint : r.isInt = true
    · rw [if_pos hint]
      exact ⟨digits_of_unit hr0 hr1 hint, fun _ hq ↦ nomatch hq⟩
    · rw [if_neg hint]
      refine ⟨⟨r, rfl⟩, fun q hq ↦ ?_⟩
      obtain rfl : r = q := by simpa using hq
      have hne : r ≠ 0 := by
        rintro rfl
        exact hint rfl
      exact ofRat_floatRepr hne (isDouble_of_mem_unit hr0 hr1 hnearest)
  case text => exact fun s hs ↦ ⟨hs, fun _ hq ↦ nomatch hq⟩
  case null => exact ⟨trivial, fun _ hq ↦ nomatch hq⟩
  case bool => exact fun _ ↦ ⟨trivial, fun _ hq ↦ nomatch hq⟩
  case int => exact fun _ hn ↦ ⟨hn, fun _ hq ↦ nomatch hq⟩

/-! ## Values -/

theorem canonicalizeItems_eq {m : String} {items : List Json}
    (h : ∀ v ∈ items, canonicalizeJson U m v = .ok (canonical U v)) :
    canonicalizeItems U m items = .ok (items.map (canonical U)) := by
  induction items with
  | nil => rfl
  | cons v items ih =>
    obtain ⟨hv, hitems⟩ := List.forall_mem_cons.mp h
    rw [canonicalizeItems, hv, ok_bind, ih hitems, ok_bind, List.map_cons]

/-- Plain keys do not collide. -/
theorem canonicalizeFields_eq {m : String} {fields : Fields}
    (hkeys : PlainKeys (fields.map Prod.fst))
    (h : ∀ f ∈ fields, canonicalizeJson U m f.2 = .ok (canonical U f.2)) (before : Fields)
    (hbefore : ∀ k ∈ fields.map Prod.fst, k ∉ before.map Prod.fst) :
    canonicalizeFields U m fields before = .ok (before ++ mapValues (canonical U) fields) := by
  induction fields generalizing before with
  | nil =>
    rw [canonicalizeFields, mapValues, List.map_nil, List.append_nil]
  | cons f fields ih =>
    obtain ⟨key, v⟩ := f
    obtain ⟨hv, hfields⟩ := List.forall_mem_cons.mp h
    obtain ⟨hkey, hrest⟩ := List.forall_mem_cons.mp hbefore
    obtain ⟨hnodup, hplain⟩ := hkeys
    obtain ⟨hfresh, hnodup⟩ := List.nodup_cons.mp hnodup
    obtain ⟨hprintable, hplain⟩ := List.forall_mem_cons.mp hplain
    have hv' : canonicalizeJson U m v = .ok (canonical U v) := hv
    have hnormal : U.normalizeText key = key := normalizeText_of_printable hprintable
    rw [canonicalizeFields, hnormal, if_neg hkey, hv', ok_bind,
      ih ⟨hnodup, hplain⟩ hfields (before ++ [(key, canonical U v)]), List.append_assoc]
    · rfl
    · intro k hk hmem
      rw [List.map_append, List.mem_append] at hmem
      rcases hmem with hmem | hmem
      · exact hrest k hk hmem
      · rw [List.mem_singleton.mp hmem] at hk
        exact hfresh hk

/-- **Canonical form is a map over the leaves.** -/
theorem canonicalizeJson_eq (m : String) {v : Json} (h : Ready U v) :
    canonicalizeJson U m v = .ok (canonical U v) := by
  induction v using leafInduct with
  | leaf v hleaf =>
    rw [canonical, mapLeaves_leaf hleaf]
    have hready := (each_of_leaf hleaf).mp h
    cases v with
    | float x =>
      obtain ⟨q, rfl, h0, h1⟩ := hready
      obtain ⟨r, hround, -, -, -, -, hcanonical⟩ := canonicalLeaf_float (U := U) h0 h1
      rw [hcanonical, canonicalizeJson, normalizeFloat, hround]
    | array items => exact hleaf.elim
    | object fields => exact hleaf.elim
    | _ => rfl
  | array items ih =>
    rw [canonicalizeJson, canonicalizeItems_eq fun v hv ↦ ih v hv (each_array.mp h v hv), ok_bind,
      canonical, mapLeaves_array]
  | object fields ih =>
    obtain ⟨hkeys, hfields⟩ := each_object.mp h
    rw [canonicalizeJson, canonicalizeFields_eq hkeys (fun f hf ↦ ih f hf (hfields f hf)) []
      (fun _ _ ↦ List.not_mem_nil), ok_bind, canonical, mapLeaves_object]
    rfl

theorem ready_canonical {v : Json} (h : Ready U v) : Ready U (canonical U v) :=
  each_mapLeaves (fun _ hleaf hready ↦ ⟨isLeaf_canonicalLeaf hleaf, readyLeaf_canonicalLeaf hready hleaf⟩) h

theorem ready_sortKeys {v : Json} (h : Ready U v) : Ready U (sortKeys v) := each_sortKeys plainKeys_perm h

/-- A canonical value is canonical, in whatever order its keys are. -/
theorem canonical_sortKeys_canonical {v : Json} (h : Ready U v) :
    canonical U (sortKeys (canonical U v)) = sortKeys (canonical U v) := by
  have hfixed : Each (fun v ↦ canonicalLeaf U v = v) PlainKeys (canonical U v) :=
    each_mapLeaves (fun _ hleaf hready ↦
      ⟨isLeaf_canonicalLeaf hleaf, canonicalLeaf_canonicalLeaf hready hleaf⟩) h
  exact mapLeaves_eq_self (each_sortKeys plainKeys_perm hfixed)

theorem each_writable {v : Json} (h : Ready U v) :
    Each Writable (fun ks ↦ ∀ k ∈ ks, Scalar k) (canonical U v) := by
  have hwritable : Each Writable PlainKeys (canonical U v) :=
    each_mapLeaves (fun _ hleaf hready ↦
      ⟨isLeaf_canonicalLeaf hleaf, (writable_canonicalLeaf hready hleaf).1⟩) h
  exact hwritable.imp (fun _ hv ↦ hv) fun _ hks k hk ↦ scalar_of_printable (hks.2 k hk)

theorem each_readable {v : Json} (h : Ready U v) : Each Readable List.Nodup (canonical U v) := by
  have hreadable : Each Readable PlainKeys (canonical U v) :=
    each_mapLeaves (fun _ hleaf hready ↦
      ⟨isLeaf_canonicalLeaf hleaf, (writable_canonicalLeaf hready hleaf).2⟩) h
  exact hreadable.imp (fun _ hv ↦ hv) fun _ hks ↦ hks.1

/-- The canonical JSON of a value. -/
theorem exists_canonicalJson (m : String) {v : Json} (h : Ready U v) :
    ∃ text, canonicalJson U m v = .ok text ∧ dumps (canonical U v) = .ok text ∧ Scalar text := by
  obtain ⟨text, hdumps, hscalar⟩ := exists_dumps (each_writable h)
  refine ⟨text, ?_, hdumps, hscalar⟩
  rw [canonicalJson, canonicalizeJson_eq m h, ok_bind, hdumps]

/-- **A hash exists.** -/
theorem exists_canonicalSha256 (m : String) {v : Json} (h : Ready U v) :
    ∃ hash, canonicalSha256 U m v = .ok hash := by
  obtain ⟨text, htext, -, hscalar⟩ := exists_canonicalJson m h
  refine ⟨sha256Hex (encodeUtf8 text), ?_⟩
  rw [canonicalSha256, htext, ok_bind, encode_of_scalar hscalar, ok_bind]

/-- **The hash of a value is that of its canonical form**, in whatever order its keys are. -/
theorem canonicalSha256_canonical (m : String) {v : Json} (h : Ready U v) :
    canonicalSha256 U m (sortKeys (canonical U v)) = canonicalSha256 U m v := by
  have hready : Ready U (sortKeys (canonical U v)) := ready_sortKeys (ready_canonical h)
  have hsame : canonicalJson U m (sortKeys (canonical U v)) = canonicalJson U m v := by
    rw [canonicalJson, canonicalJson, canonicalizeJson_eq m hready, canonicalizeJson_eq m h, ok_bind,
      ok_bind, canonical_sortKeys_canonical h, dumps, dumps, sortKeys_sortKeys]
  rw [canonicalSha256, canonicalSha256, hsame]

/-- **Canonical JSON is read back as the canonical form**, with its keys in order. -/
theorem loads_canonicalJson {m : String} {v : Json} {text : Str} {hooks : Hooks} {limit : ℕ}
    (hobject : ∀ fields : Fields, (fields.map Prod.fst).Nodup → hooks.object fields = .ok fields)
    (h : Ready U v) (hdepth : Within limit (canonical U v)) (htext : canonicalJson U m v = .ok text) :
    loads hooks limit text = .ok (sortKeys (canonical U v)) := by
  rw [canonicalJson, canonicalizeJson_eq m h, ok_bind] at htext
  exact loads_dumps hobject htext (each_readable h) hdepth

end MeetingRag
