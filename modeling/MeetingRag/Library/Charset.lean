import Mathlib.Data.List.Forall2
import MeetingRag.Library.Utf8

/-!
# Encodings and ASCII

A decoder splits its data into one chunk for each character. Where the chunk of every ASCII character is
its code in the encoding, an ASCII word in the text is that word spelled in the data. UTF-8 spells ASCII
characters as single bytes, and UTF-16 as a byte and a zero.
-/

namespace Py

def IsAscii (c : CodePoint) : Prop := c.val < 0x80

instance : DecidablePred IsAscii := fun c ↦ inferInstanceAs (Decidable (c.val < 0x80))

/-- The data falls into one chunk for each character, and the chunk of an ASCII character is its code. -/
def SplitsInto (code : CodePoint → List UInt8) (data : List UInt8) (s : Str) : Prop :=
  ∃ chunks : List (List UInt8), chunks.flatten = data ∧
    List.Forall₂ (fun chunk c ↦ IsAscii c → chunk = code c) chunks s

section Splits

variable {code : CodePoint → List UInt8} {data : List UInt8} {s : Str}

theorem SplitsInto.nil : SplitsInto code [] [] := ⟨[], rfl, .nil⟩

theorem SplitsInto.cons {chunk : List UInt8} {c : CodePoint} (hchunk : IsAscii c → chunk = code c)
    (h : SplitsInto code data s) : SplitsInto code (chunk ++ data) (c :: s) := by
  obtain ⟨chunks, rfl, hall⟩ := h
  exact ⟨chunk :: chunks, rfl, .cons hchunk hall⟩

theorem SplitsInto.append_inv {p q : Str} (h : SplitsInto code data (p ++ q)) :
    ∃ dp dq, data = dp ++ dq ∧ SplitsInto code dp p ∧ SplitsInto code dq q := by
  obtain ⟨chunks, rfl, hall⟩ := h
  refine ⟨(chunks.take p.length).flatten, (chunks.drop p.length).flatten, ?_,
    ⟨_, rfl, List.forall₂_take_append chunks p q hall⟩, ⟨_, rfl, List.forall₂_drop_append chunks p q hall⟩⟩
  rw [← List.flatten_append, List.take_append_drop]

/-- Text in ASCII is spelled character by character. -/
theorem SplitsInto.eq_flatMap (h : SplitsInto code data s) (hs : ∀ c ∈ s, IsAscii c) :
    data = s.flatMap code := by
  obtain ⟨chunks, rfl, hall⟩ := h
  induction hall with
  | nil => rfl
  | cons hchunk _ ih =>
    obtain ⟨hc, hs⟩ := List.forall_mem_cons.mp hs
    rw [List.flatten_cons, List.flatMap_cons, hchunk hc, ih hs]

/-- **An ASCII word of the text is spelled in the data.** -/
theorem SplitsInto.word {word : Str} (h : SplitsInto code data s) (hword : ∀ c ∈ word, IsAscii c)
    (hoccurs : word <:+: s) : word.flatMap code <:+: data := by
  obtain ⟨p, q, rfl⟩ := hoccurs
  obtain ⟨dpw, dq, rfl, hpw, -⟩ := h.append_inv
  obtain ⟨dp, dw, rfl, -, hw⟩ := hpw.append_inv
  exact ⟨dp, dq, by rw [hw.eq_flatMap hword]⟩

end Splits

/-! ## Decoding from the front -/

/-- The decoder reads one chunk for each character, and reads it alike whatever follows. -/
structure Prefixwise (decode : List UInt8 → Option Str) (code : CodePoint → List UInt8) : Prop where
  nil : decode [] = some []
  eq_nil : ∀ {data}, decode data = some [] → data = []
  cons : ∀ {data c t}, decode data = some (c :: t) → ∃ chunk rest, data = chunk ++ rest ∧
    decode rest = some t ∧ (∀ more, decode (chunk ++ more) = prepend (some c) (decode more)) ∧
    (IsAscii c → chunk = code c)

section Prefixwise

variable {decode : List UInt8 → Option Str} {code : CodePoint → List UInt8} {data rest : List UInt8}
  {s t : Str}

theorem Prefixwise.splitsInto (hdecode : Prefixwise decode code) (h : decode data = some s) :
    SplitsInto code data s := by
  induction s generalizing data with
  | nil => exact hdecode.eq_nil h ▸ SplitsInto.nil
  | cons c s ih =>
    obtain ⟨chunk, rest, rfl, hrest, -, hascii⟩ := hdecode.cons h
    exact SplitsInto.cons hascii (ih hrest)

/-- What was decoded stays what it is when more follows. -/
theorem Prefixwise.append (hdecode : Prefixwise decode code) (h : decode data = some s)
    (rest : List UInt8) : decode (data ++ rest) = (decode rest).map (s ++ ·) := by
  induction s generalizing data with
  | nil =>
    rw [hdecode.eq_nil h, List.nil_append]
    exact (congrFun Option.map_id _).symm
  | cons c s ih =>
    obtain ⟨chunk, more, rfl, hmore, hread, -⟩ := hdecode.cons h
    rw [List.append_assoc, hread, ih hmore]
    cases decode rest <;> rfl

/-- A decoded text begins with what one of the prefixes is decoded to. -/
theorem Prefixwise.append_inv (hdecode : Prefixwise decode code) (h : decode data = some (s ++ t)) :
    ∃ front back, data = front ++ back ∧ decode front = some s ∧ decode back = some t := by
  induction s generalizing data with
  | nil => exact ⟨[], data, rfl, hdecode.nil, h⟩
  | cons c s ih =>
    obtain ⟨chunk, more, rfl, hmore, hread, -⟩ := hdecode.cons h
    obtain ⟨front, back, rfl, hfront, hback⟩ := ih hmore
    refine ⟨chunk ++ front, back, (List.append_assoc ..).symm, ?_, hback⟩
    rw [hread, hfront]
    rfl

end Prefixwise

/-! ## UTF-8 -/

/-- The code of an ASCII character in UTF-8 and in the encodings that extend ASCII. -/
def asciiByte (c : CodePoint) : List UInt8 := [.ofNat c.val]

/-- The decoder reads ASCII characters from single bytes, the ones they have in ASCII. -/
def AsciiTransparent (decode : List UInt8 → Option Str) : Prop :=
  ∀ data s, decode data = some s → SplitsInto asciiByte data s

theorem le_of_scalarValue {least n : ℕ} {c : CodePoint} (h : scalarValue least n = some c) :
    least ≤ c.val ∧ c.val = n := by
  rw [scalarValue] at h
  split at h
  · split at h
    · next hleast =>
      rw [← Option.some.inj h]
      exact ⟨hleast.1, rfl⟩
    · cases h
  · cases h

theorem prepend_eq_some {c : Option CodePoint} {tail : Option Str} {s : Str} (h : prepend c tail = some s) :
    ∃ d t, c = some d ∧ tail = some t ∧ s = d :: t := by
  obtain ⟨d, hd, h⟩ := Option.bind_eq_some_iff.mp h
  obtain ⟨t, ht, h⟩ := Option.bind_eq_some_iff.mp h
  exact ⟨d, t, hd, ht, (Option.some.inj h).symm⟩

theorem not_ascii_of_twoBytes {a b : UInt8} {c : CodePoint} (h : twoBytes a b = some c) : ¬IsAscii c := by
  obtain ⟨y, -, h⟩ := Option.bind_eq_some_iff.mp h
  split at h
  · exact Nat.not_lt.mpr (le_of_scalarValue h).1
  · exact nomatch h

theorem not_ascii_of_threeBytes {a b d : UInt8} {c : CodePoint} (h : threeBytes a b d = some c) :
    ¬IsAscii c := by
  obtain ⟨y, -, h⟩ := Option.bind_eq_some_iff.mp h
  obtain ⟨z, -, h⟩ := Option.bind_eq_some_iff.mp h
  exact Nat.not_lt.mpr ((by decide : 0x80 ≤ 0x800).trans (le_of_scalarValue h).1)

theorem not_ascii_of_fourBytes {a b d e : UInt8} {c : CodePoint} (h : fourBytes a b d e = some c) :
    ¬IsAscii c := by
  obtain ⟨y, -, h⟩ := Option.bind_eq_some_iff.mp h
  obtain ⟨z, -, h⟩ := Option.bind_eq_some_iff.mp h
  obtain ⟨w, -, h⟩ := Option.bind_eq_some_iff.mp h
  exact Nat.not_lt.mpr ((by decide : 0x80 ≤ 0x10000).trans (le_of_scalarValue h).1)

section Utf8

variable {data : List UInt8} {s t : Str} {a b d e : UInt8} {c : CodePoint}

theorem not_lt_of_tailBits {y : ℕ} (h : tailBits b = some y) : ¬b.toNat < 0x80 := by
  rw [tailBits] at h
  split at h
  · next hb => exact Nat.not_lt.mpr hb.1
  · cases h

/-- A chunk of which no byte is an ASCII byte. -/
theorem forall_chunk_of_not {chunk : List UInt8} (h : ∀ x ∈ chunk, ¬x.toNat < 0x80) :
    ∀ x ∈ chunk, x.toNat < 0x80 → chunk = [x] ∧ c.val = x.toNat :=
  fun x hx hlt ↦ absurd hlt (h x hx)

/-- A text that was decoded has the chunk of its first character in front, by the number of its bytes. -/
theorem decodeUtf8_eq_prepend (h : decodeUtf8 data = some s) (hdata : data ≠ []) :
    ∃ chunk rest c t, data = chunk ++ rest ∧ s = c :: t ∧ decodeUtf8 rest = some t ∧
      (∀ more, decodeUtf8 (chunk ++ more) = prepend (some c) (decodeUtf8 more)) ∧
      (IsAscii c → chunk = asciiByte c) ∧ chunk ≠ [] ∧
      ∀ x ∈ chunk, x.toNat < 0x80 → chunk = [x] ∧ c.val = x.toNat := by
  obtain _ | ⟨a, rest⟩ := data
  · exact absurd rfl hdata
  by_cases hone : a.toNat < 0x80
  · rw [decodeUtf8_one hone] at h
    obtain ⟨c, t, hc, ht, rfl⟩ := prepend_eq_some h
    have hvalue := (le_of_scalarValue hc).2
    refine ⟨[a], rest, c, t, rfl, rfl, ht, fun more ↦ ?_, fun _ ↦ ?_, List.cons_ne_nil _ _,
      fun x hx _ ↦ ?_⟩
    · exact (decodeUtf8_one hone more).trans (by rw [hc])
    · rw [asciiByte, hvalue, UInt8.ofNat_toNat]
    · rw [List.mem_singleton.mp hx]
      exact ⟨rfl, hvalue⟩
  by_cases htwo : a.toNat < 0xE0
  · obtain _ | ⟨b, rest⟩ := rest
    · rw [decodeUtf8.eq_def] at h
      simp only [if_neg hone] at h
      cases h
    · rw [decodeUtf8_two hone htwo] at h
      obtain ⟨c, t, hc, ht, rfl⟩ := prepend_eq_some h
      obtain ⟨y, hb, -⟩ := Option.bind_eq_some_iff.mp hc
      refine ⟨[a, b], rest, c, t, rfl, rfl, ht, fun more ↦ ?_, (absurd · (not_ascii_of_twoBytes hc)),
        List.cons_ne_nil _ _, forall_chunk_of_not ?_⟩
      · exact (decodeUtf8_two hone htwo more).trans (by rw [hc])
      · exact List.forall_mem_cons.mpr ⟨hone, List.forall_mem_singleton.mpr (not_lt_of_tailBits hb)⟩
  by_cases hthree : a.toNat < 0xF0
  · obtain _ | ⟨b, _ | ⟨d, rest⟩⟩ := rest
    · rw [decodeUtf8.eq_def] at h
      simp only [if_neg hone] at h
      cases h
    · rw [decodeUtf8.eq_def] at h
      simp only [if_neg hone, if_neg htwo] at h
      cases h
    · rw [decodeUtf8_three hone htwo hthree] at h
      obtain ⟨c, t, hc, ht, rfl⟩ := prepend_eq_some h
      obtain ⟨y, hb, hd⟩ := Option.bind_eq_some_iff.mp hc
      obtain ⟨z, hd, -⟩ := Option.bind_eq_some_iff.mp hd
      refine ⟨[a, b, d], rest, c, t, rfl, rfl, ht, fun more ↦ ?_,
        (absurd · (not_ascii_of_threeBytes hc)), List.cons_ne_nil _ _, forall_chunk_of_not ?_⟩
      · exact (decodeUtf8_three hone htwo hthree more).trans (by rw [hc])
      · exact List.forall_mem_cons.mpr ⟨hone, List.forall_mem_cons.mpr
          ⟨not_lt_of_tailBits hb, List.forall_mem_singleton.mpr (not_lt_of_tailBits hd)⟩⟩
  obtain _ | ⟨b, _ | ⟨d, _ | ⟨e, rest⟩⟩⟩ := rest
  · rw [decodeUtf8.eq_def] at h
    simp only [if_neg hone] at h
    cases h
  · rw [decodeUtf8.eq_def] at h
    simp only [if_neg hone, if_neg htwo] at h
    cases h
  · rw [decodeUtf8.eq_def] at h
    simp only [if_neg hone, if_neg htwo, if_neg hthree] at h
    cases h
  · rw [decodeUtf8_four hone htwo hthree] at h
    obtain ⟨c, t, hc, ht, rfl⟩ := prepend_eq_some h
    obtain ⟨y, hb, hd⟩ := Option.bind_eq_some_iff.mp hc
    obtain ⟨z, hd, he⟩ := Option.bind_eq_some_iff.mp hd
    obtain ⟨w, he, -⟩ := Option.bind_eq_some_iff.mp he
    refine ⟨[a, b, d, e], rest, c, t, rfl, rfl, ht, fun more ↦ ?_,
      (absurd · (not_ascii_of_fourBytes hc)), List.cons_ne_nil _ _, forall_chunk_of_not ?_⟩
    · exact (decodeUtf8_four hone htwo hthree more).trans (by rw [hc])
    · exact List.forall_mem_cons.mpr ⟨hone, List.forall_mem_cons.mpr ⟨not_lt_of_tailBits hb,
        List.forall_mem_cons.mpr ⟨not_lt_of_tailBits hd,
          List.forall_mem_singleton.mpr (not_lt_of_tailBits he)⟩⟩⟩

theorem prefixwise_decodeUtf8 : Prefixwise decodeUtf8 asciiByte where
  nil := rfl
  eq_nil := by
    intro data h
    by_contra hdata
    obtain ⟨_, _, _, _, -, heq, -⟩ := decodeUtf8_eq_prepend h hdata
    exact nomatch heq
  cons := by
    intro data c t h
    have hdata : data ≠ [] := by
      rintro rfl
      exact nomatch h
    obtain ⟨chunk, rest, _, _, hsplit, heq, hrest, hread, hascii, -⟩ := decodeUtf8_eq_prepend h hdata
    obtain ⟨rfl, rfl⟩ := List.cons.inj heq
    exact ⟨chunk, rest, hsplit, hrest, hread, hascii⟩

theorem asciiTransparent_decodeUtf8 : AsciiTransparent decodeUtf8 :=
  fun _ _ h ↦ prefixwise_decodeUtf8.splitsInto h

/-- **An ASCII byte is a character.** The text has a boundary on both sides of it. -/
theorem decodeUtf8_asciiByte {front back : List UInt8} (h : decodeUtf8 (front ++ b :: back) = some s)
    (hb : b.toNat < 0x80) : ∃ s₁ c s₂, decodeUtf8 front = some s₁ ∧ c.val = b.toNat ∧
      decodeUtf8 back = some s₂ ∧ s = s₁ ++ c :: s₂ := by
  induction s generalizing front with
  | nil => exact absurd (prefixwise_decodeUtf8.eq_nil h) (List.append_ne_nil_of_right_ne_nil _ (by simp))
  | cons c s ih =>
    obtain ⟨chunk, rest, _, _, hsplit, heq, hrest, hread, -, hne, hchunk⟩ :=
      decodeUtf8_eq_prepend h (List.append_ne_nil_of_right_ne_nil _ (by simp))
    obtain ⟨rfl, rfl⟩ := List.cons.inj heq
    rcases List.append_eq_append_iff.mp hsplit with ⟨inner, rfl, hback⟩ | ⟨inner, rfl, hfront⟩
    · cases inner with
      | nil =>
        -- the chunk ends where the byte begins, so the byte is the next one
        rw [List.append_nil] at hread
        rw [List.nil_append] at hback
        obtain ⟨s₁, c', s₂, hs₁, hc', hs₂, rfl⟩ := ih (by rw [List.nil_append, hback]; exact hrest)
        obtain rfl := Option.some.inj hs₁
        refine ⟨[c], c', s₂, ?_, hc', hs₂, rfl⟩
        have hfront := hread []
        rw [List.append_nil] at hfront
        exact hfront
      | cons b' inner =>
        obtain ⟨rfl, rfl⟩ := List.cons.inj hback
        obtain ⟨hone, hvalue⟩ := hchunk b (List.mem_append_right _ List.mem_cons_self) hb
        obtain ⟨rfl, hrest'⟩ | ⟨-, hnone⟩ := List.append_eq_singleton_iff.mp hone
        · obtain ⟨-, rfl⟩ := List.cons.inj hrest'
          exact ⟨[], c, s, rfl, hvalue, hrest, rfl⟩
        · exact nomatch hnone
    · obtain ⟨s₁, c', s₂, hs₁, hc', hs₂, rfl⟩ := ih (hfront ▸ hrest)
      exact ⟨c :: s₁, c', s₂, by rw [hread, hs₁, prepend_some], hc', hs₂, rfl⟩

theorem toNat_asciiByte (hc : IsAscii c) : (UInt8.ofNat c.val).toNat = c.val :=
  toNat_ofNat_of_lt (hc.trans (by decide))

theorem prefix_of_asciiBytes {word : Str} {back : List UInt8} (hword : ∀ c ∈ word, IsAscii c)
    (h : decodeUtf8 (word.flatMap asciiByte ++ back) = some s) : word <+: s := by
  induction word generalizing s with
  | nil => exact List.nil_prefix
  | cons c word ih =>
    obtain ⟨hc, hrest⟩ := List.forall_mem_cons.mp hword
    have hb := toNat_asciiByte hc
    have hlt : (UInt8.ofNat c.val).toNat < 0x80 := by
      rw [hb]
      exact hc
    obtain ⟨s₁, c', s₂, hs₁, hc', hs₂, rfl⟩ : ∃ s₁ c' s₂, decodeUtf8 [] = some s₁ ∧
      c'.val = (UInt8.ofNat c.val).toNat ∧ decodeUtf8 (word.flatMap asciiByte ++ back) = some s₂ ∧
        s = s₁ ++ c' :: s₂ := decodeUtf8_asciiByte h hlt
    obtain rfl := Option.some.inj hs₁
    obtain rfl : c' = c := Fin.ext (hc'.trans hb)
    exact List.cons_prefix_cons.mpr ⟨rfl, ih hrest hs₂⟩

/-- **An ASCII word that the data spells is in the text.** -/
theorem infix_of_asciiBytes {word : Str} (h : decodeUtf8 data = some s) (hword : ∀ c ∈ word, IsAscii c)
    (hoccurs : word.flatMap asciiByte <:+: data) : word <:+: s := by
  obtain ⟨front, back, rfl⟩ := hoccurs
  cases word with
  | nil => exact List.nil_infix
  | cons c word =>
    obtain ⟨hc, hrest⟩ := List.forall_mem_cons.mp hword
    have hb := toNat_asciiByte hc
    have hlt : (UInt8.ofNat c.val).toNat < 0x80 := by
      rw [hb]
      exact hc
    have hsplit : front ++ (c :: word).flatMap asciiByte ++ back =
        front ++ UInt8.ofNat c.val :: (word.flatMap asciiByte ++ back) := by
      rw [List.flatMap_cons, asciiByte, List.append_assoc, List.append_assoc, List.singleton_append]
    obtain ⟨s₁, c', s₂, -, hc', hs₂, rfl⟩ := decodeUtf8_asciiByte (hsplit ▸ h) hlt
    obtain rfl : c' = c := Fin.ext (hc'.trans hb)
    exact ((List.cons_prefix_cons.mpr ⟨rfl, prefix_of_asciiBytes hrest hs₂⟩).isInfix).trans
      (List.suffix_append s₁ _).isInfix

/-- A zero byte is a zero character. -/
theorem zero_mem_of_decodeUtf8 (h : decodeUtf8 data = some s) (hzero : 0 ∈ data) : 0 ∈ s := by
  obtain ⟨front, back, rfl⟩ := List.append_of_mem hzero
  obtain ⟨s₁, c, s₂, -, hc, -, rfl⟩ := decodeUtf8_asciiByte h (by decide)
  obtain rfl : c = 0 := Fin.ext hc
  exact List.mem_append_right _ List.mem_cons_self

end Utf8

/-! ## UTF-16 -/

inductive ByteOrder
  | big | little
deriving DecidableEq, Repr

/-- The two bytes of a code unit, the first one first. -/
def ByteOrder.unit (order : ByteOrder) (a b : UInt8) : ℕ :=
  match order with
  | .big => a.toNat * 0x100 + b.toNat
  | .little => b.toNat * 0x100 + a.toNat

/-- The code of an ASCII character in UTF-16. -/
def asciiUnit (order : ByteOrder) (c : CodePoint) : List UInt8 :=
  match order with
  | .big => [0, .ofNat c.val]
  | .little => [.ofNat c.val, 0]

def isHighSurrogate (u : ℕ) : Bool := 0xD800 ≤ u && u < 0xDC00

def isLowSurrogate (u : ℕ) : Bool := 0xDC00 ≤ u && u < 0xE000

/-- `data.decode("utf-16-be")` and `data.decode("utf-16-le")`. -/
def decodeUtf16 (order : ByteOrder) : List UInt8 → Option Str
  | [] => some []
  | [_] => none
  | a :: b :: rest =>
    let u := order.unit a b
    if isHighSurrogate u then
      match rest with
      | d :: e :: rest =>
        let v := order.unit d e
        if isLowSurrogate v then
          prepend (scalarValue 0x10000 (0x10000 + (u - 0xD800) * 0x400 + (v - 0xDC00)))
            (decodeUtf16 order rest)
        else none
      | _ => none
    -- a low surrogate on its own is no scalar value
    else prepend (scalarValue 0 u) (decodeUtf16 order rest)

section Utf16

variable {order : ByteOrder} {data rest : List UInt8} {s t : Str} {a b d e : UInt8} {c : CodePoint}

theorem decodeUtf16_pair (hu : isHighSurrogate (order.unit a b) = true)
    (hv : isLowSurrogate (order.unit d e) = true) (rest : List UInt8) :
    decodeUtf16 order (a :: b :: d :: e :: rest) =
      prepend (scalarValue 0x10000 (0x10000 + (order.unit a b - 0xD800) * 0x400 +
        (order.unit d e - 0xDC00))) (decodeUtf16 order rest) := by
  rw [decodeUtf16.eq_def]
  simp only [hu, hv, if_true]

theorem decodeUtf16_unit (hu : ¬isHighSurrogate (order.unit a b) = true) (rest : List UInt8) :
    decodeUtf16 order (a :: b :: rest) =
      prepend (scalarValue 0 (order.unit a b)) (decodeUtf16 order rest) := by
  rw [decodeUtf16.eq_def]
  simp only [hu]
  rfl

/-- A code unit below 128 is an ASCII character and a zero. -/
theorem asciiUnit_of_unit (h : order.unit a b < 0x80) (hc : c.val = order.unit a b) :
    [a, b] = asciiUnit order c := by
  have ha := a.toNat_lt
  have hb := b.toNat_lt
  cases order with
  | big =>
    rw [ByteOrder.unit] at h hc
    have hzero : a = 0 := UInt8.toNat_inj.mp (by change a.toNat = 0; omega)
    have hcode : UInt8.ofNat c.val = b := by
      rw [hc, show a.toNat * 0x100 + b.toNat = b.toNat by omega, UInt8.ofNat_toNat]
    rw [asciiUnit, hcode, hzero]
  | little =>
    rw [ByteOrder.unit] at h hc
    have hzero : b = 0 := UInt8.toNat_inj.mp (by change b.toNat = 0; omega)
    have hcode : UInt8.ofNat c.val = a := by
      rw [hc, show b.toNat * 0x100 + a.toNat = a.toNat by omega, UInt8.ofNat_toNat]
    rw [asciiUnit, hcode, hzero]

/-- What was decoded to nothing is nothing. -/
theorem eq_nil_of_decodeUtf16 (h : decodeUtf16 order data = some []) : data = [] := by
  match data with
  | [] => rfl
  | [_] => exact nomatch h
  | a :: b :: rest =>
    rw [decodeUtf16.eq_def] at h
    dsimp only at h
    split at h
    · split at h
      · split at h
        · obtain ⟨_, _, -, -, heq⟩ := prepend_eq_some h
          exact nomatch heq
        · exact nomatch h
      · exact nomatch h
    · obtain ⟨_, _, -, -, heq⟩ := prepend_eq_some h
      exact nomatch heq

/-- **The first character has a chunk of its own**, which is read alike whatever follows. -/
theorem decodeUtf16_eq_cons (h : decodeUtf16 order data = some (c :: t)) :
    ∃ chunk rest, data = chunk ++ rest ∧ decodeUtf16 order rest = some t ∧
      (∀ rest', decodeUtf16 order (chunk ++ rest') = prepend (some c) (decodeUtf16 order rest')) ∧
      (IsAscii c → chunk = asciiUnit order c) := by
  match data with
  | [] => exact nomatch h
  | [_] => exact nomatch h
  | a :: b :: rest =>
    by_cases hu : isHighSurrogate (order.unit a b) = true
    · match rest with
      | d :: e :: rest =>
        by_cases hv : isLowSurrogate (order.unit d e) = true
        · rw [decodeUtf16_pair hu hv] at h
          obtain ⟨c', t', hc, ht, heq⟩ := prepend_eq_some h
          obtain ⟨rfl, rfl⟩ := List.cons.inj heq
          refine ⟨[a, b, d, e], rest, rfl, ht, fun rest' ↦ ?_, fun hascii ↦ ?_⟩
          · exact (decodeUtf16_pair hu hv rest').trans (by rw [hc])
          · have hleast := (le_of_scalarValue hc).1
            exact absurd hascii (Nat.not_lt.mpr ((by decide : 0x80 ≤ 0x10000).trans hleast))
        · rw [decodeUtf16.eq_def] at h
          simp only [hu, hv, if_true] at h
          exact nomatch h
      | [_] =>
        rw [decodeUtf16.eq_def] at h
        simp only [hu, if_true] at h
        exact nomatch h
      | [] =>
        rw [decodeUtf16.eq_def] at h
        simp only [hu, if_true] at h
        exact nomatch h
    · rw [decodeUtf16_unit hu] at h
      obtain ⟨c', t', hc, ht, heq⟩ := prepend_eq_some h
      obtain ⟨rfl, rfl⟩ := List.cons.inj heq
      have hvalue := (le_of_scalarValue hc).2
      refine ⟨[a, b], rest, rfl, ht, fun rest' ↦ ?_, fun hascii ↦ ?_⟩
      · exact (decodeUtf16_unit hu rest').trans (by rw [hc])
      · exact asciiUnit_of_unit (hvalue ▸ hascii) hvalue

theorem prefixwise_decodeUtf16 (order : ByteOrder) :
    Prefixwise (decodeUtf16 order) (asciiUnit order) where
  nil := rfl
  eq_nil := eq_nil_of_decodeUtf16
  cons := decodeUtf16_eq_cons

theorem unit_asciiUnit (hc : IsAscii c) :
    ∃ a b, asciiUnit order c = [a, b] ∧ order.unit a b = c.val := by
  have hc : c.val < 0x80 := hc
  have hcode : (UInt8.ofNat c.val).toNat = c.val := toNat_ofNat_of_lt (by omega)
  cases order with
  | big =>
    refine ⟨0, .ofNat c.val, rfl, ?_⟩
    change 0 * 0x100 + _ = _
    rw [hcode, Nat.zero_mul, Nat.zero_add]
  | little =>
    refine ⟨.ofNat c.val, 0, rfl, ?_⟩
    change 0 * 0x100 + _ = _
    rw [hcode, Nat.zero_mul, Nat.zero_add]

/-- ASCII text is read back from UTF-16. -/
theorem decodeUtf16_flatMap (hs : ∀ c ∈ s, IsAscii c) :
    decodeUtf16 order (s.flatMap (asciiUnit order)) = some s := by
  induction s with
  | nil => rfl
  | cons c s ih =>
    obtain ⟨hc, hs⟩ := List.forall_mem_cons.mp hs
    obtain ⟨a, b, hab, hunit⟩ := @unit_asciiUnit order c hc
    have hlt : c.val < 0x80 := hc
    have hscalar : isSurrogate c = false :=
      Bool.and_eq_false_iff.mpr (Or.inl (decide_eq_false (by omega)))
    have hhigh : ¬isHighSurrogate (order.unit a b) = true := by
      rw [hunit, isHighSurrogate]
      simp only [Bool.and_eq_true, decide_eq_true_eq]
      omega
    rw [List.flatMap_cons, hab, List.cons_append, List.cons_append, List.nil_append,
      decodeUtf16_unit hhigh, ih hs, hunit, scalarValue_self (Nat.zero_le _) hscalar, prepend_some]

end Utf16

end Py
