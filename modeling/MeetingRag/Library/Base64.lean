import MeetingRag.Library.Str

/-!
# Base 64 without padding

Three bytes are four digits of six bits. A text of bytes whose number is no multiple of three ends in
two or three digits, and the padding that would fill the last group of four is left out when a text is
written and put back before it is read.

The strict reader takes the digits up to the first `=`, and wants the rest to be the padding that the
number of digits asks for. After complete groups it lets any padding pass.
-/

namespace Py

namespace Base64

/-- The digits of `base64.urlsafe_b64encode`. -/
def symbol (d : ℕ) : CodePoint :=
  Fin.ofNat 0x110000
    (if d < 26 then 65 + d else if d < 52 then 71 + d else if d < 62 then d - 4
      else if d = 62 then 45 else 95)

/-- The value of a digit of either alphabet. -/
def value? (c : CodePoint) : Option ℕ :=
  if 65 ≤ c.val ∧ c.val ≤ 90 then some (c.val - 65)
  else if 97 ≤ c.val ∧ c.val ≤ 122 then some (c.val - 71)
  else if 48 ≤ c.val ∧ c.val ≤ 57 then some (c.val + 4)
  else if c = 43 ∨ c = 45 then some 62
  else if c = 47 ∨ c = 95 then some 63
  else none

theorem value?_symbol : ∀ d < 64, value? (symbol d) = some d := by decide

theorem symbol_ne_pad : ∀ d < 64, symbol d ≠ 61 := by decide

/-- The digits of bytes. -/
def digitsOf : List UInt8 → List ℕ
  | [] => []
  | [a] => [a.toNat / 4, a.toNat % 4 * 16]
  | [a, b] => [a.toNat / 4, a.toNat % 4 * 16 + b.toNat / 16, b.toNat % 16 * 4]
  | a :: b :: c :: data =>
    a.toNat / 4 :: (a.toNat % 4 * 16 + b.toNat / 16) :: (b.toNat % 16 * 4 + c.toNat / 64) ::
      c.toNat % 64 :: digitsOf data

/-- `base64.urlsafe_b64encode(data).rstrip(b"=").decode("ascii")` -/
def encode (data : List UInt8) : Str := (digitsOf data).map symbol

/-- The bytes of digits. -/
def bytesOf : List ℕ → Option (List UInt8)
  | [] => some []
  | [_] => none
  | [p, q] => some [.ofNat (p * 4 + q / 16)]
  | [p, q, r] => some [.ofNat (p * 4 + q / 16), .ofNat (q % 16 * 16 + r / 4)]
  | p :: q :: r :: s :: digits => do
    let data ← bytesOf digits
    some (.ofNat (p * 4 + q / 16) :: .ofNat (q % 16 * 16 + r / 4) :: .ofNat (r % 4 * 64 + s) :: data)

/-- `cursor + "=" * (-len(cursor) % 4)` -/
def pad (s : Str) : Str := s ++ List.replicate ((4 - s.length % 4) % 4) 61

/-- `base64.b64decode(padded, altchars=b"-_", validate=True)` -/
def b64decode (padded : Str) : Option (List UInt8) := do
  let digits ← (padded.takeWhile (· ≠ 61)).mapM value?
  let pads := padded.dropWhile (· ≠ 61)
  if pads.all (· = 61) ∧
      (if digits.length % 4 = 0 then digits ≠ [] ∨ pads = []
        else pads.length = 4 - digits.length % 4) then
    bytesOf digits
  else none

theorem digitsOf_lt (data : List UInt8) : ∀ d ∈ digitsOf data, d < 64 := by
  induction data using digitsOf.induct with
  | case1 => exact List.forall_mem_nil _
  | case2 a =>
    have ha := a.toNat_lt
    exact List.forall_mem_cons.mpr ⟨by omega, List.forall_mem_singleton.mpr (by omega)⟩
  | case3 a b =>
    have ha := a.toNat_lt
    have hb := b.toNat_lt
    exact List.forall_mem_cons.mpr ⟨by omega, List.forall_mem_cons.mpr
      ⟨by omega, List.forall_mem_singleton.mpr (by omega)⟩⟩
  | case4 a b c data ih =>
    have ha := a.toNat_lt
    have hb := b.toNat_lt
    have hc := c.toNat_lt
    simp only [digitsOf, List.forall_mem_cons]
    exact ⟨by omega, by omega, by omega, by omega, ih⟩

theorem ofNat_eq {a : UInt8} {n : ℕ} (h : n = a.toNat) : UInt8.ofNat n = a := by
  rw [h, UInt8.ofNat_toNat]

theorem bytesOf_digitsOf (data : List UInt8) : bytesOf (digitsOf data) = some data := by
  induction data using digitsOf.induct with
  | case1 => rfl
  | case2 a =>
    have ha := a.toNat_lt
    rw [digitsOf, bytesOf, ofNat_eq (a := a) (by omega)]
  | case3 a b =>
    have ha := a.toNat_lt
    have hb := b.toNat_lt
    rw [digitsOf, bytesOf, ofNat_eq (a := a) (by omega), ofNat_eq (a := b) (by omega)]
  | case4 a b c data ih =>
    have ha := a.toNat_lt
    have hb := b.toNat_lt
    have hc := c.toNat_lt
    rw [digitsOf, bytesOf, ih, ofNat_eq (a := a) (by omega), ofNat_eq (a := b) (by omega),
      ofNat_eq (a := c) (by omega)]
    rfl

theorem mapM_value?_symbol {digits : List ℕ} (h : ∀ d ∈ digits, d < 64) :
    (digits.map symbol).mapM value? = some digits := by
  induction digits with
  | nil => rfl
  | cons d digits ih =>
    obtain ⟨hd, hdigits⟩ := List.forall_mem_cons.mp h
    rw [List.map_cons, List.mapM_cons, value?_symbol d hd, ih hdigits]
    rfl

/-- **What is written is read back.** -/
theorem b64decode_encode (data : List UInt8) : b64decode (pad (encode data)) = some data := by
  have hlt := digitsOf_lt data
  have hsymbol : ∀ c ∈ encode data, decide (c ≠ 61) = true := by
    refine List.forall_mem_map.mpr fun d hd ↦ decide_eq_true (symbol_ne_pad d (hlt d hd))
  have hlength : (encode data).length = (digitsOf data).length := List.length_map ..
  have hdigits : (pad (encode data)).takeWhile (· ≠ 61) = encode data := by
    rw [pad, List.takeWhile_append_of_pos hsymbol]
    cases (4 - (encode data).length % 4) % 4 <;> simp [List.replicate_succ]
  have hpads : (pad (encode data)).dropWhile (· ≠ 61) =
      List.replicate ((4 - (digitsOf data).length % 4) % 4) 61 := by
    rw [pad, List.dropWhile_append_of_pos hsymbol, hlength]
    cases (4 - (digitsOf data).length % 4) % 4 <;> simp [List.replicate_succ]
  rw [b64decode, hdigits, hpads, encode, mapM_value?_symbol hlt]
  change (if _ then bytesOf (digitsOf data) else none) = _
  rw [bytesOf_digitsOf, if_pos]
  refine ⟨by simp, ?_⟩
  split
  · next hgroups => exact Or.inr (by rw [hgroups]; rfl)
  · next hgroups =>
    rw [List.length_replicate]
    omega

end Base64

end Py
