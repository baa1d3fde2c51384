import Mathlib.Algebra.Ring.Nat
import Mathlib.Data.List.Basic
import Mathlib.Data.List.DropRight
import Mathlib.Tactic.Common

/-!
# Python strings

A `str` is a sequence of code points, and a lone surrogate is a code point like any other: a JSON
escape can produce one, and only encoding to UTF-8 refuses it. `Str` is that type, with the operations
that treat space, newlines and bytes.

`lit` embeds the text that a program spells out.
-/

namespace Py

/-- A code point, surrogates included. -/
abbrev CodePoint := Fin 0x110000

instance neZeroCodePoint : NeZero 0x110000 := ⟨by decide⟩

instance lawfulBEqCodePoint : LawfulBEq CodePoint := inferInstance

/-- A Python `str`. -/
abbrev Str := List CodePoint

instance lawfulBEqStr : LawfulBEq Str := inferInstance

/-- The code point of a character. -/
def codePoint (c : Char) : CodePoint :=
  ⟨c.toNat, by
    rcases c.valid with h | h
    · exact lt_trans h (by decide)
    · exact h.2⟩

/-- A text that the program spells out. -/
def lit (s : String) : Str := s.toList.map codePoint

theorem codePoint_injective : Function.Injective codePoint := by
  intro a b h
  have hval : (codePoint a).val = (codePoint b).val := congrArg Fin.val h
  exact Char.toNat_inj.mp hval

theorem lit_injective : Function.Injective lit := by
  intro a b h
  exact String.toList_inj.mp (List.map_injective_iff.mpr codePoint_injective h)

@[simp] theorem lit_inj {a b : String} : lit a = lit b ↔ a = b := lit_injective.eq_iff

/-! ## Space -/

/-- `str.isspace` for one code point. -/
def isSpace (c : CodePoint) : Bool :=
  (9 ≤ c.val && c.val ≤ 13) || (28 ≤ c.val && c.val ≤ 32) || c.val == 0x85 || c.val == 0xA0 ||
    c.val == 0x1680 || (0x2000 ≤ c.val && c.val ≤ 0x200A) || c.val == 0x2028 || c.val == 0x2029 ||
    c.val == 0x202F || c.val == 0x205F || c.val == 0x3000

/-- `not value.strip()`. -/
def Blank (s : Str) : Prop := ∀ c ∈ s, isSpace c = true

instance (s : Str) : Decidable (Blank s) := List.decidableBAll (fun c ↦ isSpace c = true) s

/-- `value.strip()`. -/
def strip (s : Str) : Str := (s.dropWhile isSpace).rdropWhile isSpace

theorem strip_eq_nil {s : Str} : strip s = [] ↔ Blank s := by
  rw [strip, List.rdropWhile_eq_nil_iff]
  constructor
  · intro h
    have hempty : s.dropWhile isSpace = [] := by
      by_contra hne
      have hhead := List.dropWhile_get_zero_not isSpace s (List.length_pos_of_ne_nil hne)
      exact hhead (h _ (List.get_mem _ _))
    exact List.dropWhile_eq_nil_iff.mp hempty
  · exact fun h c hc ↦ h c ((List.dropWhile_sublist isSpace).subset hc)

/-- The `White_Space` property, which the separators U+001C to U+001F do not have. -/
def isWhiteSpace (c : CodePoint) : Bool := isSpace c && !(28 ≤ c.val && c.val ≤ 31)

/-- The text without white space at its ends. -/
def trim (s : Str) : Str := (s.dropWhile isWhiteSpace).rdropWhile isWhiteSpace

theorem length_trim_le (s : Str) : (trim s).length ≤ s.length :=
  ((List.rdropWhile_prefix _ _).length_le).trans (List.dropWhile_suffix _).length_le

theorem trim_ne_nil {s : Str} (h : ¬Blank s) : trim s ≠ [] := by
  intro hnil
  refine h fun c hc ↦ ?_
  have hall := List.rdropWhile_eq_nil_iff.mp hnil
  rw [← List.takeWhile_append_dropWhile (p := isWhiteSpace) (l := s)] at hc
  have hspace : isWhiteSpace c = true := by
    rcases List.mem_append.mp hc with hc | hc
    · exact List.mem_takeWhile_imp hc
    · exact hall c hc
  exact (Bool.and_eq_true_iff.mp hspace).1

/-! ## Parts -/

/-- `text.find(part)`, where `none` is -1. -/
def find (part : Str) : Str → Option ℕ
  | [] => if part = [] then some 0 else none
  | c :: rest => if part.isPrefixOf (c :: rest) then some 0 else (find part rest).map (· + 1)

/-- `text[start:end]`. -/
def slice (start stop : ℕ) (s : Str) : Str := (s.take stop).drop start

/-- What is found is there. -/
theorem slice_of_find {part s : Str} {i : ℕ} (h : find part s = some i) :
    slice i (i + part.length) s = part := by
  induction s generalizing i with
  | nil =>
    rw [find] at h
    split at h
    · next hnil => rw [hnil, slice, List.take_nil, List.drop_nil]
    · exact nomatch h
  | cons c rest ih =>
    rw [find] at h
    split at h
    · next hprefix =>
      obtain ⟨tail, htail⟩ := List.isPrefixOf_iff_prefix.mp hprefix
      rw [← Option.some.inj h, slice, Nat.zero_add, ← htail, List.take_left, List.drop_zero]
    · obtain ⟨j, hj, rfl⟩ := Option.map_eq_some_iff.mp h
      rw [show j + 1 + part.length = (j + part.length) + 1 by omega, slice, List.take_succ_cons,
        List.drop_succ_cons]
      exact ih hj

/-- A part of a text is found. -/
theorem find_isSome {part s : Str} : (find part s).isSome = true ↔ part <:+: s := by
  induction s with
  | nil =>
    rw [find, List.infix_nil]
    split <;> simp_all
  | cons c rest ih =>
    rw [find, List.infix_cons_iff]
    split
    · next h => exact iff_of_true rfl (Or.inl (List.isPrefixOf_iff_prefix.mp h))
    · next h =>
      rw [Option.isSome_map, ih]
      exact (or_iff_right fun hprefix ↦ h (List.isPrefixOf_iff_prefix.mpr hprefix)).symm

/-! ## Newlines -/

/-- `value.replace("\r\n", "\n")`. -/
def joinCrLf : Str → Str
  | [] => []
  | [c] => [c]
  | c :: d :: rest => if c = 13 ∧ d = 10 then 10 :: joinCrLf rest else c :: joinCrLf (d :: rest)

/-- `value.replace("\r\n", "\n").replace("\r", "\n")`. -/
def toLf (s : Str) : Str := (joinCrLf s).map fun c ↦ if c = 13 then 10 else c

theorem joinCrLf_of_not_mem {s : Str} (h : (13 : CodePoint) ∉ s) : joinCrLf s = s := by
  induction s using joinCrLf.induct with
  | case1 => rfl
  | case2 c => rfl
  | case3 c d rest hpair ih => exact absurd (by rw [hpair.1]; exact List.mem_cons_self) h
  | case4 c d rest hpair ih =>
    rw [joinCrLf, if_neg hpair, ih (List.not_mem_of_not_mem_cons h)]

/-- Text in LF form is left alone. -/
theorem toLf_of_not_mem {s : Str} (h : (13 : CodePoint) ∉ s) : toLf s = s := by
  rw [toLf, joinCrLf_of_not_mem h]
  have hkept : ∀ c ∈ s, (if c = 13 then 10 else c) = c := by
    intro c hc
    exact if_neg fun heq : c = 13 ↦ h (heq ▸ hc)
  exact (List.map_congr_left hkept).trans (List.map_id' s)

theorem not_mem_toLf (s : Str) : (13 : CodePoint) ∉ toLf s := by
  intro h
  obtain ⟨c, -, hc⟩ := List.mem_map.mp h
  split at hc
  · exact absurd hc (by decide)
  · next hne => exact hne hc

/-! ## Bytes -/

/-- A surrogate, which UTF-8 does not encode. -/
def isSurrogate (c : CodePoint) : Bool := 0xD800 ≤ c.val && c.val ≤ 0xDFFF

/-- `value.encode("utf-8", errors="strict")` returns. -/
def Scalar (s : Str) : Prop := ∀ c ∈ s, isSurrogate c = false

instance (s : Str) : Decidable (Scalar s) := List.decidableBAll (fun c ↦ isSurrogate c = false) s

theorem scalar_append {s t : Str} : Scalar (s ++ t) ↔ Scalar s ∧ Scalar t := List.forall_mem_append

/-- Spelled-out text can be encoded. -/
theorem scalar_lit (s : String) : Scalar (lit s) := by
  intro c hc
  obtain ⟨d, -, rfl⟩ := List.mem_map.mp hc
  rcases d.valid with h | h
  · have : (codePoint d).val < 0xD800 := h
    simp only [isSurrogate, Bool.and_eq_false_iff, decide_eq_false_iff_not]
    omega
  · have : 0xDFFF < (codePoint d).val := h.1
    simp only [isSurrogate, Bool.and_eq_false_iff, decide_eq_false_iff_not]
    omega

/-- The UTF-8 bytes of one code point. -/
def utf8Bytes (c : CodePoint) : List UInt8 :=
  let n := c.val
  if n < 0x80 then [.ofNat n]
  else if n < 0x800 then [.ofNat (0xC0 + n / 0x40), .ofNat (0x80 + n % 0x40)]
  else if n < 0x10000 then
    [.ofNat (0xE0 + n / 0x1000), .ofNat (0x80 + n / 0x40 % 0x40), .ofNat (0x80 + n % 0x40)]
  else
    [.ofNat (0xF0 + n / 0x40000), .ofNat (0x80 + n / 0x1000 % 0x40), .ofNat (0x80 + n / 0x40 % 0x40),
      .ofNat (0x80 + n % 0x40)]

/-- `value.encode("utf-8")`, of text that can be encoded. -/
def encodeUtf8 (s : Str) : List UInt8 := s.flatMap utf8Bytes

/-- The six bits of a continuation byte. -/
def tailBits (b : UInt8) : Option ℕ :=
  if 0x80 ≤ b.toNat ∧ b.toNat < 0xC0 then some (b.toNat - 0x80) else none

/-- The code point `n`, when it is at least `least` and not a surrogate. -/
def scalarValue (least n : ℕ) : Option CodePoint :=
  if h : n < 0x110000 then
    if least ≤ n ∧ isSurrogate ⟨n, h⟩ = false then some ⟨n, h⟩ else none
  else none

/-- The code point of a two-byte sequence. -/
def twoBytes (a b : UInt8) : Option CodePoint := do
  let y ← tailBits b
  if 0xC0 ≤ a.toNat then scalarValue 0x80 ((a.toNat - 0xC0) * 0x40 + y) else none

/-- The code point of a three-byte sequence. -/
def threeBytes (a b d : UInt8) : Option CodePoint := do
  let y ← tailBits b
  let z ← tailBits d
  scalarValue 0x800 ((a.toNat - 0xE0) * 0x1000 + y * 0x40 + z)

/-- The code point of a four-byte sequence. -/
def fourBytes (a b d e : UInt8) : Option CodePoint := do
  let y ← tailBits b
  let z ← tailBits d
  let w ← tailBits e
  scalarValue 0x10000 ((a.toNat - 0xF0) * 0x40000 + y * 0x1000 + z * 0x40 + w)

/-- One code point before the rest of a text. -/
def prepend (c : Option CodePoint) (tail : Option Str) : Option Str := do
  let c ← c
  let tail ← tail
  some (c :: tail)

/-- `data.decode("utf-8")`. -/
def decodeUtf8 : List UInt8 → Option Str
  | [] => some []
  | a :: rest =>
    if a.toNat < 0x80 then prepend (scalarValue 0 a.toNat) (decodeUtf8 rest)
    else match rest with
      | [] => none
      | b :: rest =>
        if a.toNat < 0xE0 then prepend (twoBytes a b) (decodeUtf8 rest)
        else match rest with
          | [] => none
          | d :: rest =>
            if a.toNat < 0xF0 then prepend (threeBytes a b d) (decodeUtf8 rest)
            else match rest with
              | [] => none
              | e :: rest => prepend (fourBytes a b d e) (decodeUtf8 rest)

/-- The byte order mark that `utf-8-sig` skips. -/
def dropBom : List UInt8 → List UInt8
  | 0xEF :: 0xBB :: 0xBF :: rest => rest
  | data => data

/-- `data.decode("utf-8-sig")`. -/
def decodeUtf8Sig (data : List UInt8) : Option Str := decodeUtf8 (dropBom data)

end Py
