import MeetingRag.Ingestion.CanonicalForms
import MeetingRag.Ingestion.Ipc
import MeetingRag.Ingestion.Protocol

/-!
# The three canonicalisers

The hashes of anchors are computed in three programs, each with its own copy of the canonicaliser: the
parser (`canonicalizeJson`, with `Protocol.collision`), the host's side of the parser protocol, and
the inline text submissions. The copies dispatch on the type of a value in their own ways, round
numbers in place, and word two exceptions differently. They have the same values.
-/

open Outcome Py Py.Json

namespace MeetingRag

variable (U : Nfc)

/-! ## The host's copy -/

namespace Ipc

mutual

/-- `sandbox_ipc._canonicalize_json`. -/
def canonicalizeJson : Json → Except Exc Json
  | .null => .ok .null
  | .bool b => .ok (.bool b)
  | .int n => .ok (.int n)
  | .float (.finite q) =>
    let rounded := roundDigits q
    if rounded = .finite 0 then .ok (.int 0)
    else
      match rounded with
      | .finite r => if r.isInt then .ok (.int r.num) else .ok (.float (.finite r))
      | _ => .ok (.float rounded)
  | .float _ => .error (.valueError "canonical JSON numbers must be finite")
  | .str s => .ok (.str (U.normalizeText s))
  | .object fields => do
    let result ← canonicalizeFields fields []
    .ok (.object result)
  | .array items => do
    let items ← canonicalizeItems items
    .ok (.array items)

def canonicalizeFields : Fields → Fields → Except Exc Fields
  | [], result => .ok result
  | (key, child) :: fields, result =>
    if U.normalizeText key ∈ result.map Prod.fst then
      .error (.valueError "canonical JSON has colliding normalized keys")
    else do
      let child ← canonicalizeJson child
      canonicalizeFields fields (result ++ [(U.normalizeText key, child)])

def canonicalizeItems : List Json → Except Exc (List Json)
  | [] => .ok []
  | child :: items => do
    let child ← canonicalizeJson child
    let items ← canonicalizeItems items
    .ok (child :: items)

end

/-- `serialized` in `sandbox_ipc.canonical_sha256`. -/
def canonicalJson (v : Json) : Except Exc Str := do
  let v ← canonicalizeJson U v
  dumps v

/-- `sandbox_ipc.canonical_sha256`. -/
def canonicalSha256 (v : Json) : Except Exc Str := do
  let serialized ← canonicalJson U v
  let data ← encode serialized
  .ok (sha256Hex data)

end Ipc

/-! ## The copy of the text submissions -/

namespace TextSubmission

/-- The branch for a `float`. -/
def canonicalizeFloat : PyFloat → Except Exc Json
  | .finite q =>
    match roundDigits q with
    | .finite r =>
      if r = 0 then .ok (.int 0)
      else if r.isInt then .ok (.int r.num)
      else .ok (.float (.finite r))
    | rounded => .ok (.float rounded)
  | .inf | .negInf | .nan => .error (.valueError "canonical JSON numbers must be finite")

mutual

/-- `text_submission_service._canonicalize_json`. -/
def canonicalizeJson : Json → Except Exc Json
  | .null => .ok .null
  | .bool b => .ok (.bool b)
  | .int n => .ok (.int n)
  | .float x => canonicalizeFloat x
  | .str s => .ok (.str (U.normalizeText s))
  | .object fields => do
    let normalized ← canonicalizeFields fields []
    .ok (.object normalized)
  | .array items => do
    let items ← canonicalizeItems items
    .ok (.array items)

def canonicalizeFields : Fields → Fields → Except Exc Fields
  | [], normalized => .ok normalized
  | (key, child) :: fields, normalized =>
    if U.normalizeText key ∈ normalized.map Prod.fst then
      .error (.valueError "canonical JSON contains colliding normalized keys")
    else do
      let child ← canonicalizeJson child
      canonicalizeFields fields (normalized ++ [(U.normalizeText key, child)])

def canonicalizeItems : List Json → Except Exc (List Json)
  | [] => .ok []
  | child :: items => do
    let child ← canonicalizeJson child
    let items ← canonicalizeItems items
    .ok (child :: items)

end

/-- `text_submission_service.canonical_json`. -/
def canonicalJson (v : Json) : Except Exc Str := do
  let v ← canonicalizeJson U v
  dumps v

/-- `text_submission_service.canonical_sha256`. -/
def canonicalSha256 (v : Json) : Except Exc Str := do
  let text ← canonicalJson U v
  let data ← encode text
  .ok (sha256Hex data)

end TextSubmission

/-! ## Agreement -/

variable {U}

/-- A whole number is zero or not. -/
theorem intLeaf_zero {r : ℚ} (h : r = 0) : r.isInt = true ∧ r.num = 0 := by
  rw [h]
  exact ⟨rfl, rfl⟩

theorem Ipc.canonicalizeFloat_eq (m : String) (x : PyFloat) :
    Ipc.canonicalizeJson U (.float x) = MeetingRag.canonicalizeJson U m (.float x) := by
  rw [MeetingRag.canonicalizeJson]
  cases x with
  | inf | negInf | nan => simp only [Ipc.canonicalizeJson, normalizeFloat]
  | finite q =>
    rw [Ipc.canonicalizeJson, normalizeFloat]
    cases roundDigits q with
    | inf | negInf | nan => rfl
    | finite r =>
      dsimp only
      by_cases hzero : r = 0
      · obtain ⟨hint, hnum⟩ := intLeaf_zero hzero
        rw [if_pos (congrArg PyFloat.finite hzero), if_pos hint, hnum]
      · rw [if_neg fun heq ↦ hzero (PyFloat.finite.inj heq)]
        split <;> rfl

theorem TextSubmission.canonicalizeFloat_eq (m : String) (x : PyFloat) :
    TextSubmission.canonicalizeJson U (.float x) = MeetingRag.canonicalizeJson U m (.float x) := by
  rw [MeetingRag.canonicalizeJson, TextSubmission.canonicalizeJson]
  cases x with
  | inf | negInf | nan => rfl
  | finite q =>
    rw [TextSubmission.canonicalizeFloat, normalizeFloat]
    cases roundDigits q with
    | inf | negInf | nan => rfl
    | finite r =>
      dsimp only
      by_cases hzero : r = 0
      · obtain ⟨hint, hnum⟩ := intLeaf_zero hzero
        rw [if_pos hzero, if_pos hint, hnum]
      · rw [if_neg hzero]
        split <;> rfl

/-- The host's copy is the parser's, with its own word for colliding keys. -/
theorem Ipc.canonicalizeJson_eq (v : Json) :
    Ipc.canonicalizeJson U v = MeetingRag.canonicalizeJson U Ipc.collision v := by
  induction v using leafInduct with
  | leaf v hleaf =>
    cases v with
    | array items => exact hleaf.elim
    | object fields => exact hleaf.elim
    | float x => exact Ipc.canonicalizeFloat_eq _ x
    | null | bool | int | str => simp only [Ipc.canonicalizeJson, MeetingRag.canonicalizeJson]
  | array items ih =>
    have hitems : Ipc.canonicalizeItems U items
        = MeetingRag.canonicalizeItems U Ipc.collision items := by
      induction items with
      | nil => simp only [Ipc.canonicalizeItems, MeetingRag.canonicalizeItems]
      | cons v items hind =>
        obtain ⟨hv, hrest⟩ := List.forall_mem_cons.mp ih
        rw [Ipc.canonicalizeItems, MeetingRag.canonicalizeItems, hv, hind hrest]
    rw [Ipc.canonicalizeJson, MeetingRag.canonicalizeJson, hitems]
  | object fields ih =>
    have hfields : ∀ done, Ipc.canonicalizeFields U fields done
        = MeetingRag.canonicalizeFields U Ipc.collision fields done := by
      induction fields with
      | nil => exact fun _ ↦ by simp only [Ipc.canonicalizeFields, MeetingRag.canonicalizeFields]
      | cons f fields hind =>
        obtain ⟨hf, hrest⟩ := List.forall_mem_cons.mp ih
        intro done
        have hvalue : Ipc.canonicalizeJson U f.2 = MeetingRag.canonicalizeJson U Ipc.collision f.2 := hf
        rw [Ipc.canonicalizeFields, MeetingRag.canonicalizeFields, hvalue]
        simp only [hind hrest, Ipc.collision]
    rw [Ipc.canonicalizeJson, MeetingRag.canonicalizeJson, hfields]

/-- The copy of the text submissions is the parser's. -/
theorem TextSubmission.canonicalizeJson_eq (v : Json) :
    TextSubmission.canonicalizeJson U v = MeetingRag.canonicalizeJson U Protocol.collision v := by
  induction v using leafInduct with
  | leaf v hleaf =>
    cases v with
    | array items => exact hleaf.elim
    | object fields => exact hleaf.elim
    | float x => exact TextSubmission.canonicalizeFloat_eq _ x
    | null | bool | int | str =>
      simp only [TextSubmission.canonicalizeJson, MeetingRag.canonicalizeJson]
  | array items ih =>
    have hitems : TextSubmission.canonicalizeItems U items
        = MeetingRag.canonicalizeItems U Protocol.collision items := by
      induction items with
      | nil => simp only [TextSubmission.canonicalizeItems, MeetingRag.canonicalizeItems]
      | cons v items hind =>
        obtain ⟨hv, hrest⟩ := List.forall_mem_cons.mp ih
        rw [TextSubmission.canonicalizeItems, MeetingRag.canonicalizeItems, hv, hind hrest]
    rw [TextSubmission.canonicalizeJson, MeetingRag.canonicalizeJson, hitems]
  | object fields ih =>
    have hfields : ∀ done, TextSubmission.canonicalizeFields U fields done
        = MeetingRag.canonicalizeFields U Protocol.collision fields done := by
      induction fields with
      | nil =>
        exact fun _ ↦ by
          simp only [TextSubmission.canonicalizeFields, MeetingRag.canonicalizeFields]
      | cons f fields hind =>
        obtain ⟨hf, hrest⟩ := List.forall_mem_cons.mp ih
        intro done
        have hvalue : TextSubmission.canonicalizeJson U f.2
            = MeetingRag.canonicalizeJson U Protocol.collision f.2 := hf
        rw [TextSubmission.canonicalizeFields, MeetingRag.canonicalizeFields, hvalue]
        simp only [hind hrest, Protocol.collision]
    rw [TextSubmission.canonicalizeJson, MeetingRag.canonicalizeJson, hfields]

/-- The same value, or an exception each. -/
def Agree {α : Type} (x y : Except Exc α) : Prop := ∀ a, x = .ok a ↔ y = .ok a

theorem Agree.bind {α β : Type} {x y : Except Exc α} (h : Agree x y) (f : α → Except Exc β) :
    Agree (x >>= f) (y >>= f) := by
  intro b
  rw [bind_eq_ok, bind_eq_ok]
  exact exists_congr fun a ↦ and_congr_left fun _ ↦ h a

theorem Ipc.canonicalizeJson_agree (v : Json) :
    Agree (Ipc.canonicalizeJson U v) (MeetingRag.canonicalizeJson U Protocol.collision v) := by
  rw [Ipc.canonicalizeJson_eq]
  exact canonicalizeJson_congr U _ _ v

theorem TextSubmission.canonicalizeJson_agree (v : Json) :
    Agree (TextSubmission.canonicalizeJson U v)
      (MeetingRag.canonicalizeJson U Protocol.collision v) := by
  rw [TextSubmission.canonicalizeJson_eq]
  exact fun _ ↦ Iff.rfl

/-- **The three canonicalisers agree** on the canonical form, the text and the hash of every value. What
they compute is a projection, does not see the order of keys, newlines or the composition of
characters, and gives values with different canonical forms different texts. -/
theorem canonicalizers_agree (U : Nfc) :
    (∀ v,
      (Agree (Ipc.canonicalizeJson U v) (canonicalizeJson U Protocol.collision v) ∧
        Agree (TextSubmission.canonicalizeJson U v) (canonicalizeJson U Protocol.collision v)) ∧
      (Agree (Ipc.canonicalJson U v) (canonicalJson U Protocol.collision v) ∧
        Agree (TextSubmission.canonicalJson U v) (canonicalJson U Protocol.collision v)) ∧
      Agree (Ipc.canonicalSha256 U v) (canonicalSha256 U Protocol.collision v) ∧
        Agree (TextSubmission.canonicalSha256 U v) (canonicalSha256 U Protocol.collision v)) ∧
    (∀ v c, Doubles v → canonicalizeJson U Protocol.collision v = .ok c →
      canonicalizeJson U Protocol.collision c = .ok c) ∧
    (∀ v w, Variant U v w →
      Agree (canonicalJson U Protocol.collision v) (canonicalJson U Protocol.collision w) ∧
      Agree (canonicalSha256 U Protocol.collision v) (canonicalSha256 U Protocol.collision w)) ∧
    ∀ v v' c c' t t', Doubles v → Doubles v' →
      canonicalizeJson U Protocol.collision v = .ok c →
      canonicalizeJson U Protocol.collision v' = .ok c' →
      canonicalJson U Protocol.collision v = .ok t →
      canonicalJson U Protocol.collision v' = .ok t' → sortKeys c ≠ sortKeys c' → t ≠ t' := by
  refine ⟨fun v ↦ ?_, ?_, ?_, ?_⟩
  · have hipc := Ipc.canonicalizeJson_agree (U := U) v
    have htext := TextSubmission.canonicalizeJson_agree (U := U) v
    have hipcJson := hipc.bind dumps
    have htextJson := htext.bind dumps
    exact ⟨⟨hipc, htext⟩, ⟨hipcJson, htextJson⟩, hipcJson.bind _, htextJson.bind _⟩
  · exact fun v c ↦ canonicalizeJson_canonicalForm _
  · intro v w h
    have hjson : Agree (canonicalJson U Protocol.collision v) (canonicalJson U Protocol.collision w) :=
      canonicalJson_eq_of_variant _ h
    exact ⟨hjson, hjson.bind _⟩
  · rintro v v' c c' t t' hv hv' hc hc' ht ht' hne rfl
    obtain ⟨hcan, rfl⟩ := (canonicalizeJson_eq_ok c).mp hc
    obtain ⟨hcan', rfl⟩ := (canonicalizeJson_eq_ok c').mp hc'
    have hreadable : ∀ {x}, Canonicalizable U x → Doubles x →
        Each Readable List.Nodup (canonicalForm U x) :=
      fun hx hdoubles ↦ (each_canonicalForm hx hdoubles).imp (fun _ h ↦ h.2.2) fun _ h ↦ h.1
    exact hne (sortKeys_eq_of_dumps (hreadable hcan hv) (hreadable hcan' hv')
      (canonicalJson_eq_ok.mp ht).2 (canonicalJson_eq_ok.mp ht').2)

/-- A half, and two texts in one order and in the other. -/
theorem canonicalizers_agree_half :
    canonicalizeJson Nfc.ascii Protocol.collision (.float (.finite (1 / 2)))
      = .ok (.float (.finite (1 / 2))) ∧
    Agree (canonicalJson Nfc.ascii Protocol.collision
        (.object [(lit "b", .null), (lit "a", .str (lit "x\r\n"))]))
      (canonicalJson Nfc.ascii Protocol.collision
        (.object [(lit "a", .str (lit "x\n")), (lit "b", .null)])) ∧
    (lit "true") ≠ lit "null" := by
  obtain ⟨-, hprojection, hvariant, hinjective⟩ := canonicalizers_agree Nfc.ascii
  have hround : roundDigits (1 / 2) = .finite (1 / 2) := by decide +kernel
  have hform : canonicalizeJson Nfc.ascii Protocol.collision (.float (.finite (1 / 2)))
      = .ok (.float (.finite (1 / 2))) := by
    have hint : (1 / 2 : ℚ).isInt = false := by decide +kernel
    rw [canonicalizeJson, normalizeFloat, hround]
    dsimp only
    rw [hint]
    rfl
  have hhalf : IsDouble (1 / 2) := ⟨by decide +kernel, by decide +kernel⟩
  have hdoubles : Doubles (.float (.finite (1 / 2))) := by
    refine Each.leaf trivial fun q hq ↦ ?_
    cases hq
    exact hhalf
  refine ⟨hprojection _ _ hdoubles hform, (hvariant _ _ ?_).1, ?_⟩
  · refine .trans _ (.object [(lit "a", .str (lit "x\r\n")), (lit "b", .null)]) _
      (.rel _ _ (.order (.swap _ _ _))) (.rel _ _ ?_)
    exact @VariantStep.value _ [] _ _ _ _ (.text (.newlines (by decide)))
  · exact hinjective (.bool true) .null _ _ _ _ (Each.leaf trivial (by rintro _ ⟨⟩))
      (Each.leaf trivial (by rintro _ ⟨⟩)) rfl rfl rfl rfl (by rintro ⟨⟩)

end MeetingRag
