import MeetingRag.Library.Str

namespace Py

theorem scalarValue_self {least : ℕ} {c : CodePoint} (hleast : least ≤ c.val)
    (hscalar : isSurrogate c = false) : scalarValue least c.val = some c := by
  rw [scalarValue, dif_pos c.isLt, if_pos ⟨hleast, hscalar⟩]

theorem prepend_some (c : CodePoint) (s : Str) : prepend (some c) (some s) = some (c :: s) := rfl

theorem toNat_ofNat_of_lt {n : ℕ} (h : n < 256) : (UInt8.ofNat n).toNat = n := by
  rw [UInt8.toNat_ofNat']
  exact Nat.mod_eq_of_lt h

theorem tailBits_ofNat {n : ℕ} (h : n < 0x40) : tailBits (.ofNat (0x80 + n)) = some n := by
  rw [tailBits, toNat_ofNat_of_lt (by omega), if_pos (by omega), Nat.add_sub_cancel_left]

section Lead

variable {a b d e : UInt8} {y z w : ℕ}

theorem twoBytes_of (hy : tailBits b = some y) : twoBytes a b =
    if 0xC0 ≤ a.toNat then scalarValue 0x80 ((a.toNat - 0xC0) * 0x40 + y) else none := by
  rw [twoBytes, hy, Option.bind_eq_bind, Option.bind_some]

theorem threeBytes_of (hy : tailBits b = some y) (hz : tailBits d = some z) :
    threeBytes a b d = scalarValue 0x800 ((a.toNat - 0xE0) * 0x1000 + y * 0x40 + z) := by
  rw [threeBytes, hy, hz, Option.bind_eq_bind, Option.bind_some, Option.bind_some]

theorem fourBytes_of (hy : tailBits b = some y) (hz : tailBits d = some z)
    (hw : tailBits e = some w) : fourBytes a b d e =
      scalarValue 0x10000 ((a.toNat - 0xF0) * 0x40000 + y * 0x1000 + z * 0x40 + w) := by
  rw [fourBytes, hy, hz, hw, Option.bind_eq_bind, Option.bind_some, Option.bind_some,
    Option.bind_some]

theorem decodeUtf8_one (hone : a.toNat < 0x80) (rest : List UInt8) :
    decodeUtf8 (a :: rest) = prepend (scalarValue 0 a.toNat) (decodeUtf8 rest) := by
  rw [decodeUtf8.eq_def]
  simp only [if_pos hone]

theorem decodeUtf8_two (hone : ¬a.toNat < 0x80) (htwo : a.toNat < 0xE0) (rest : List UInt8) :
    decodeUtf8 (a :: b :: rest) = prepend (twoBytes a b) (decodeUtf8 rest) := by
  rw [decodeUtf8.eq_def]
  simp only [if_neg hone, if_pos htwo]

theorem decodeUtf8_three (hone : ¬a.toNat < 0x80) (htwo : ¬a.toNat < 0xE0) (hthree : a.toNat < 0xF0)
    (rest : List UInt8) :
    decodeUtf8 (a :: b :: d :: rest) = prepend (threeBytes a b d) (decodeUtf8 rest) := by
  rw [decodeUtf8.eq_def]
  simp only [if_neg hone, if_neg htwo, if_pos hthree]

theorem decodeUtf8_four (hone : ¬a.toNat < 0x80) (htwo : ¬a.toNat < 0xE0) (hthree : ¬a.toNat < 0xF0)
    (rest : List UInt8) :
    decodeUtf8 (a :: b :: d :: e :: rest) = prepend (fourBytes a b d e) (decodeUtf8 rest) := by
  rw [decodeUtf8.eq_def]
  simp only [if_neg hone, if_neg htwo, if_neg hthree]

end Lead

/-- The bytes of one code point are read as that code point. -/
theorem decodeUtf8_utf8Bytes {c : CodePoint} (hscalar : isSurrogate c = false) {rest : List UInt8}
    {s : Str} (hrest : decodeUtf8 rest = some s) :
    decodeUtf8 (utf8Bytes c ++ rest) = some (c :: s) := by
  have hmax := c.isLt
  rw [utf8Bytes]
  split
  · next h =>
    have ha := toNat_ofNat_of_lt (n := c.val) (by omega)
    rw [List.singleton_append, decodeUtf8_one (by rw [ha]; exact h), ha,
      scalarValue_self (Nat.zero_le _) hscalar, hrest, prepend_some]
  · split
    · next h h' =>
      have ha := toNat_ofNat_of_lt (n := 0xC0 + c.val / 0x40) (by omega)
      have hy := tailBits_ofNat (n := c.val % 0x40) (Nat.mod_lt _ (by decide))
      have hvalue : (0xC0 + c.val / 0x40 - 0xC0) * 0x40 + c.val % 0x40 = c.val := by omega
      have htwo : twoBytes (.ofNat (0xC0 + c.val / 0x40)) (.ofNat (0x80 + c.val % 0x40)) = some c := by
        rw [twoBytes_of hy, ha, if_pos (Nat.le_add_right _ _), hvalue,
          scalarValue_self (by omega) hscalar]
      rw [List.cons_append, List.singleton_append,
        decodeUtf8_two (by omega) (by omega), htwo, hrest, prepend_some]
    · split
      · next h h' h'' =>
        have ha := toNat_ofNat_of_lt (n := 0xE0 + c.val / 0x1000) (by omega)
        have hy := tailBits_ofNat (n := c.val / 0x40 % 0x40) (Nat.mod_lt _ (by decide))
        have hz := tailBits_ofNat (n := c.val % 0x40) (Nat.mod_lt _ (by decide))
        have hvalue : (0xE0 + c.val / 0x1000 - 0xE0) * 0x1000 + c.val / 0x40 % 0x40 * 0x40 +
            c.val % 0x40 = c.val := by omega
        have hthree : threeBytes (.ofNat (0xE0 + c.val / 0x1000))
            (.ofNat (0x80 + c.val / 0x40 % 0x40)) (.ofNat (0x80 + c.val % 0x40)) = some c := by
          rw [threeBytes_of hy hz, ha, hvalue, scalarValue_self (by omega) hscalar]
        rw [List.cons_append, List.cons_append, List.singleton_append,
          decodeUtf8_three (by omega) (by omega) (by omega), hthree, hrest, prepend_some]
      · next h h' h'' =>
        have ha := toNat_ofNat_of_lt (n := 0xF0 + c.val / 0x40000) (by omega)
        have hy := tailBits_ofNat (n := c.val / 0x1000 % 0x40) (Nat.mod_lt _ (by decide))
        have hz := tailBits_ofNat (n := c.val / 0x40 % 0x40) (Nat.mod_lt _ (by decide))
        have hw := tailBits_ofNat (n := c.val % 0x40) (Nat.mod_lt _ (by decide))
        have hvalue : (0xF0 + c.val / 0x40000 - 0xF0) * 0x40000 + c.val / 0x1000 % 0x40 * 0x1000 +
            c.val / 0x40 % 0x40 * 0x40 + c.val % 0x40 = c.val := by omega
        have hfour : fourBytes (.ofNat (0xF0 + c.val / 0x40000))
            (.ofNat (0x80 + c.val / 0x1000 % 0x40)) (.ofNat (0x80 + c.val / 0x40 % 0x40))
            (.ofNat (0x80 + c.val % 0x40)) = some c := by
          rw [fourBytes_of hy hz hw, ha, hvalue, scalarValue_self (by omega) hscalar]
        rw [List.cons_append, List.cons_append, List.cons_append, List.singleton_append,
          decodeUtf8_four (by omega) (by omega) (by omega), hfour, hrest, prepend_some]

/-- **Text that can be encoded is read back.** -/
theorem decodeUtf8_encodeUtf8 {s : Str} (h : Scalar s) : decodeUtf8 (encodeUtf8 s) = some s := by
  induction s with
  | nil => rfl
  | cons c s ih =>
    obtain ⟨hc, hs⟩ := List.forall_mem_cons.mp h
    exact decodeUtf8_utf8Bytes hc (ih hs)

end Py
