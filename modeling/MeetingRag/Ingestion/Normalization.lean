import MeetingRag.Library.Sha256

/-!
# Canonical text and canonical JSON

Texts are compared and hashed in one form: newlines as LF, characters in Unicode NFC. JSON values are
hashed in one form too: normalized texts and keys, numbers rounded to six decimals, sorted keys. The
parser adapters, the host's side of the parser protocol and the inline text submissions each have a
copy of these functions, and the copies differ in the text of one exception.

NFC itself is a table of the Unicode standard, so it is a parameter here, with the laws that the
programs rely on.
-/

open Outcome Py

namespace MeetingRag

/-- `unicodedata.normalize("NFC", ·)`. -/
structure Nfc where
  nfc : Str → Str
  /-- Normal forms are stable. -/
  nfc_nfc : ∀ s, nfc (nfc s) = nfc s
  /-- ASCII text is in normal form. -/
  nfc_ascii : ∀ s, (∀ c ∈ s, c.val < 0x80) → nfc s = s
  /-- Control characters neither compose nor come out of a composition. -/
  mem_nfc_control : ∀ s c, c.val < 0x20 → (c ∈ nfc s ↔ c ∈ s)
  /-- Nothing normalizes to the empty text but itself. -/
  nfc_eq_nil : ∀ s, nfc s = [] ↔ s = []

namespace Nfc

variable (U : Nfc)

/-- `normalize_text`. -/
def normalizeText (s : Str) : Str := U.nfc (toLf s)

theorem not_mem_normalizeText (s : Str) : (13 : CodePoint) ∉ U.normalizeText s := fun h ↦
  not_mem_toLf s ((U.mem_nfc_control _ _ (by decide)).mp h)

/-- A text is normalized when it has no carriage return and is in NFC. -/
theorem normalizeText_eq_self {s : Str} :
    U.normalizeText s = s ↔ (13 : CodePoint) ∉ s ∧ U.nfc s = s := by
  constructor
  · intro h
    have hcr : (13 : CodePoint) ∉ s := h ▸ U.not_mem_normalizeText s
    rw [normalizeText, toLf_of_not_mem hcr] at h
    exact ⟨hcr, h⟩
  · rintro ⟨hcr, h⟩
    rw [normalizeText, toLf_of_not_mem hcr, h]

theorem normalizeText_normalizeText (s : Str) :
    U.normalizeText (U.normalizeText s) = U.normalizeText s :=
  U.normalizeText_eq_self.mpr ⟨U.not_mem_normalizeText s, U.nfc_nfc _⟩

/-- Printable ASCII text is normalized. -/
theorem normalizeText_ascii {s : Str} (h : ∀ c ∈ s, 0x20 ≤ c.val ∧ c.val < 0x80) :
    U.normalizeText s = s := by
  refine U.normalizeText_eq_self.mpr ⟨fun hcr ↦ ?_, U.nfc_ascii s fun c hc ↦ (h c hc).2⟩
  exact absurd (h _ hcr).1 (by decide)

end Nfc

/-- NFC on ASCII text, where it changes nothing. -/
def Nfc.ascii : Nfc where
  nfc s := s
  nfc_nfc _ := rfl
  nfc_ascii _ _ := rfl
  mem_nfc_control _ _ _ := Iff.rfl
  nfc_eq_nil _ := Iff.rfl

/-- Printable ASCII text. -/
def Printable (s : Str) : Prop := ∀ c ∈ s, 0x20 ≤ c.val ∧ c.val < 0x80

instance (s : Str) : Decidable (Printable s) :=
  List.decidableBAll (fun c : CodePoint ↦ 0x20 ≤ c.val ∧ c.val < 0x80) s

theorem printable_of_isSha256 {s : Str} (h : IsSha256 s) : Printable s := by
  intro c hc
  have hhex := h.2 c hc
  simp only [isLowerHex, Bool.or_eq_true, Bool.and_eq_true, decide_eq_true_eq] at hhex
  omega

/-- `value.encode("utf-8")`. -/
def encode (s : Str) : Except Exc (List UInt8) :=
  if Scalar s then .ok (encodeUtf8 s) else .error .unicodeEncodeError

theorem encode_of_scalar {s : Str} (h : Scalar s) : encode s = .ok (encodeUtf8 s) := if_pos h

section

variable (U : Nfc)

/-- `text_fingerprint`. -/
def textFingerprint (s : Str) : Except Exc Str := do
  let data ← encode (U.normalizeText s)
  .ok (sha256Hex data)

/-- `_normalize_float`. -/
def normalizeFloat : PyFloat → Except Exc Json
  | .finite q =>
    match roundDigits q with
    | .finite r => .ok (if r.isInt then .int r.num else .float (.finite r))
    | x => .ok (.float x)
  | _ => .error (.valueError "canonical JSON numbers must be finite")

mutual

/-- `canonicalize_json`, where `collision` is the text about two keys that normalize to one. -/
def canonicalizeJson (collision : String) : Json → Except Exc Json
  | .null => .ok .null
  | .bool b => .ok (.bool b)
  | .int n => .ok (.int n)
  | .float x => normalizeFloat x
  | .str s => .ok (.str (U.normalizeText s))
  | .array items => do
    let items ← canonicalizeItems collision items
    .ok (.array items)
  | .object fields => do
    let fields ← canonicalizeFields collision fields []
    .ok (.object fields)

def canonicalizeItems (collision : String) : List Json → Except Exc (List Json)
  | [] => .ok []
  | v :: items => do
    let v ← canonicalizeJson collision v
    let items ← canonicalizeItems collision items
    .ok (v :: items)

/-- The fields so far are `done`. -/
def canonicalizeFields (collision : String) : Fields → Fields → Except Exc Fields
  | [], done => .ok done
  | (key, v) :: fields, done =>
    if U.normalizeText key ∈ done.map Prod.fst then .error (.valueError collision)
    else do
      let v ← canonicalizeJson collision v
      canonicalizeFields collision fields (done ++ [(U.normalizeText key, v)])

end

/-! ## What canonical JSON raises -/

variable {U} in
theorem canonicalizeItems_congr {m m' : String} {items : List Json}
    (h : ∀ v ∈ items, ∀ w, canonicalizeJson U m v = .ok w ↔ canonicalizeJson U m' v = .ok w) :
    ∀ ws, canonicalizeItems U m items = .ok ws ↔ canonicalizeItems U m' items = .ok ws := by
  induction items with
  | nil => exact fun _ ↦ Iff.rfl
  | cons v items ih =>
    obtain ⟨hv, hitems⟩ := List.forall_mem_cons.mp h
    intro ws
    simp only [canonicalizeItems, bind_eq_ok, hv, ih hitems]

variable {U} in
theorem canonicalizeFields_congr {m m' : String} {fields : Fields}
    (h : ∀ p ∈ fields, ∀ w, canonicalizeJson U m p.2 = .ok w ↔ canonicalizeJson U m' p.2 = .ok w) :
    ∀ done ws, canonicalizeFields U m fields done = .ok ws ↔
      canonicalizeFields U m' fields done = .ok ws := by
  induction fields with
  | nil => exact fun _ _ ↦ Iff.rfl
  | cons p fields ih =>
    obtain ⟨hp, hfields⟩ := List.forall_mem_cons.mp h
    intro done ws
    simp only [canonicalizeFields, ite_error_eq_ok, bind_eq_ok, hp, ih hfields]

/-- The text of the exception about colliding keys decides nothing. -/
theorem canonicalizeJson_congr (m m' : String) (v : Json) :
    ∀ w, canonicalizeJson U m v = .ok w ↔ canonicalizeJson U m' v = .ok w := by
  induction v with
  | array items ih =>
    intro w
    simp only [canonicalizeJson, bind_eq_ok, canonicalizeItems_congr ih]
  | object fields ih =>
    intro w
    simp only [canonicalizeJson, bind_eq_ok, canonicalizeFields_congr ih]
  | _ => exact fun _ ↦ by simp only [canonicalizeJson]

theorem not_raises_canonicalizeJson (collision : String) (v : Json) :
    ¬Raises Exc.Uncaught (canonicalizeJson U collision v) := by
  induction v with
  | null => exact not_raises_ok
  | bool b => exact not_raises_ok
  | int n => exact not_raises_ok
  | float x =>
    rw [canonicalizeJson, normalizeFloat.eq_def]
    split
    · split <;> exact not_raises_ok
    · exact raises_error.not.mpr (not_uncaught_valueError _)
  | str s => exact not_raises_ok
  | array items ih =>
    refine not_raises_bind ?_ fun _ _ ↦ not_raises_ok
    induction items with
    | nil => exact not_raises_ok
    | cons v items hind =>
      obtain ⟨hv, hitems⟩ := List.forall_mem_cons.mp ih
      exact not_raises_bind hv fun _ _ ↦ not_raises_bind (hind hitems) fun _ _ ↦ not_raises_ok
  | object fields ih =>
    refine not_raises_bind ?_ fun _ _ ↦ not_raises_ok
    generalize ([] : Fields) = done
    induction fields generalizing done with
    | nil => exact not_raises_ok
    | cons p fields hind =>
      obtain ⟨hp, hfields⟩ := List.forall_mem_cons.mp ih
      rw [canonicalizeFields]
      split
      · exact raises_error.not.mpr (not_uncaught_valueError _)
      · exact not_raises_bind hp fun _ _ ↦ hind hfields _

/-- `canonical_json`. -/
def canonicalJson (collision : String) (v : Json) : Except Exc Str := do
  let v ← canonicalizeJson U collision v
  dumps v

/-- `canonical_sha256`. -/
def canonicalSha256 (collision : String) (v : Json) : Except Exc Str := do
  let text ← canonicalJson U collision v
  let data ← encode text
  .ok (sha256Hex data)

theorem canonicalSha256_congr (m m' : String) {v : Json} {hash : Str} :
    canonicalSha256 U m v = .ok hash ↔ canonicalSha256 U m' v = .ok hash := by
  simp only [canonicalSha256, canonicalJson, bind_eq_ok, canonicalizeJson_congr U m m']

variable {U} in
theorem isSha256_of_canonicalSha256 {collision : String} {v : Json} {hash : Str}
    (h : canonicalSha256 U collision v = .ok hash) : IsSha256 hash := by
  obtain ⟨text, -, h⟩ := bind_eq_ok.mp h
  obtain ⟨data, -, h⟩ := bind_eq_ok.mp h
  rw [← Except.ok.inj h]
  exact isSha256_sha256Hex data

theorem not_raises_encode (s : Str) : ¬Raises Exc.Uncaught (encode s) := by
  rw [encode]
  split
  · exact not_raises_ok
  · exact raises_error.not.mpr fun h ↦ h trivial

theorem not_raises_textFingerprint (s : Str) : ¬Raises Exc.Uncaught (textFingerprint U s) :=
  not_raises_bind (not_raises_encode _) fun _ _ ↦ not_raises_ok

theorem not_raises_canonicalSha256 (collision : String) (v : Json) :
    ¬Raises Exc.Uncaught (canonicalSha256 U collision v) := by
  refine not_raises_bind ?_ fun _ _ ↦ not_raises_bind (not_raises_encode _) fun _ _ ↦ not_raises_ok
  exact not_raises_bind (not_raises_canonicalizeJson U _ _) fun _ _ ↦ not_raises_dumps _

end

end MeetingRag
