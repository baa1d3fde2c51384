import MeetingRag.Library.JsonText

/-!
# SHA-256

The hash of `hashlib.sha256`, and its hexadecimal digest. Of the digest, programs lean on its shape:
sixty-four lower-case hexadecimal digits.
-/

namespace Py

namespace Sha256

abbrev Word := BitVec 32

/-- The constants of the rounds. -/
def roundConstants : List Word :=
  [
    0x428a2f98, 0x71374491, 0xb5c0fbcf, 0xe9b5dba5, 0x3956c25b, 0x59f111f1,
    0x923f82a4, 0xab1c5ed5, 0xd807aa98, 0x12835b01, 0x243185be, 0x550c7dc3,
    0x72be5d74, 0x80deb1fe, 0x9bdc06a7, 0xc19bf174, 0xe49b69c1, 0xefbe4786,
    0x0fc19dc6, 0x240ca1cc, 0x2de92c6f, 0x4a7484aa, 0x5cb0a9dc, 0x76f988da,
    0x983e5152, 0xa831c66d, 0xb00327c8, 0xbf597fc7, 0xc6e00bf3, 0xd5a79147,
    0x06ca6351, 0x14292967, 0x27b70a85, 0x2e1b2138, 0x4d2c6dfc, 0x53380d13,
    0x650a7354, 0x766a0abb, 0x81c2c92e, 0x92722c85, 0xa2bfe8a1, 0xa81a664b,
    0xc24b8b70, 0xc76c51a3, 0xd192e819, 0xd6990624, 0xf40e3585, 0x106aa070,
    0x19a4c116, 0x1e376c08, 0x2748774c, 0x34b0bcb5, 0x391c0cb3, 0x4ed8aa4a,
    0x5b9cca4f, 0x682e6ff3, 0x748f82ee, 0x78a5636f, 0x84c87814, 0x8cc70208,
    0x90befffa, 0xa4506ceb, 0xbef9a3f7, 0xc67178f2
  ]

/-- The eight words that a block transforms. -/
structure Chain where
  (a b c d e f g h : Word)
deriving DecidableEq

def initial : Chain :=
  ⟨0x6a09e667, 0xbb67ae85, 0x3c6ef372, 0xa54ff53a, 0x510e527f, 0x9b05688c, 0x1f83d9ab, 0x5be0cd19⟩

/-- The data, a one bit, zeros, and the length in bits. -/
def pad (data : List UInt8) : List UInt8 :=
  data ++ 0x80 :: List.replicate ((119 - data.length % 64) % 64) 0 ++
    [7, 6, 5, 4, 3, 2, 1, 0].map fun i ↦ .ofNat (8 * data.length / 256 ^ i)

/-- The words of a block, each of four bytes. -/
def blockWords (block : List UInt8) : List Word :=
  (List.range 16).map fun i ↦ ((block.drop (4 * i)).take 4).foldl
    (fun w b ↦ w * 256 + BitVec.ofNat 32 b.toNat) 0

/-- The next word of the schedule. -/
def extend (ws : List Word) : List Word :=
  let word (i : ℕ) : Word := ws.getD (ws.length - i) 0
  let x := word 15
  let y := word 2
  ws ++ [word 16 + (x.rotateRight 7 ^^^ x.rotateRight 18 ^^^ x >>> 3) + word 7 +
    (y.rotateRight 17 ^^^ y.rotateRight 19 ^^^ y >>> 10)]

/-- The sixty-four words of a block. -/
def schedule (block : List UInt8) : List Word := extend^[48] (blockWords block)

/-- One round. -/
def round (s : Chain) (k w : Word) : Chain :=
  let t := s.h + (s.e.rotateRight 6 ^^^ s.e.rotateRight 11 ^^^ s.e.rotateRight 25) +
    ((s.e &&& s.f) ^^^ (~~~s.e &&& s.g)) + k + w
  let u := (s.a.rotateRight 2 ^^^ s.a.rotateRight 13 ^^^ s.a.rotateRight 22) +
    ((s.a &&& s.b) ^^^ (s.a &&& s.c) ^^^ (s.b &&& s.c))
  ⟨t + u, s.a, s.b, s.c, s.d + t, s.e, s.f, s.g⟩

/-- One block. -/
def compress (s : Chain) (block : List UInt8) : Chain :=
  let r := (roundConstants.zip (schedule block)).foldl (fun s kw ↦ round s kw.1 kw.2) s
  ⟨s.a + r.a, s.b + r.b, s.c + r.c, s.d + r.d, s.e + r.e, s.f + r.f, s.g + r.g, s.h + r.h⟩

def hash (data : List UInt8) : Chain :=
  let padded := pad data
  (List.range (padded.length / 64)).foldl
    (fun s i ↦ compress s ((padded.drop (64 * i)).take 64)) initial

/-- The digits of a word. -/
def hexWord (w : Word) : Str := [7, 6, 5, 4, 3, 2, 1, 0].map fun i ↦ hexChar (w.toNat / 16 ^ i % 16)

end Sha256

/-- `hashlib.sha256(data).hexdigest()`. -/
def sha256Hex (data : List UInt8) : Str :=
  let s := Sha256.hash data
  [s.a, s.b, s.c, s.d, s.e, s.f, s.g, s.h].flatMap Sha256.hexWord

/-- A lower-case hexadecimal digit. -/
def isLowerHex (c : CodePoint) : Bool :=
  (48 ≤ c.val && c.val ≤ 57) || (97 ≤ c.val && c.val ≤ 102)

/-- `^[0-9a-f]{64}$`. -/
def IsSha256 (s : Str) : Prop := s.length = 64 ∧ ∀ c ∈ s, isLowerHex c = true

instance (s : Str) : Decidable (IsSha256 s) :=
  have : Decidable (∀ c ∈ s, isLowerHex c = true) :=
    List.decidableBAll (fun c ↦ isLowerHex c = true) s
  inferInstanceAs (Decidable (s.length = 64 ∧ ∀ c ∈ s, isLowerHex c = true))

theorem isLowerHex_hexChar : ∀ n < 16, isLowerHex (hexChar n) = true := by decide

/-- **The shape of a digest.** -/
theorem isSha256_sha256Hex (data : List UInt8) : IsSha256 (sha256Hex data) := by
  constructor
  · rfl
  · intro c hc
    obtain ⟨w, -, hc⟩ := List.mem_flatMap.mp hc
    obtain ⟨i, -, rfl⟩ := List.mem_map.mp hc
    exact isLowerHex_hexChar _ (Nat.mod_lt _ (by decide))

/-- A digest can be encoded. -/
theorem scalar_of_isSha256 {s : Str} (h : IsSha256 s) : Scalar s := by
  intro c hc
  have hhex := h.2 c hc
  simp only [isLowerHex, Bool.or_eq_true, Bool.and_eq_true, decide_eq_true_eq] at hhex
  simp only [isSurrogate, Bool.and_eq_false_iff, decide_eq_false_iff_not]
  omega

example : sha256Hex (encodeUtf8 (lit "abc")) =
    lit "ba7816bf8f01cfea414140de5dae2223b00361a396177a9cb410ff61f20015ad" := by decide +kernel

end Py
