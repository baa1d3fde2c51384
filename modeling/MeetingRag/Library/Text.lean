import Mathlib.Algebra.Ring.Nat
import Mathlib.Data.Nat.Basic
import Mathlib.Data.List.Sort

/-!
# Text values

The text operations a program of this kind leans on: the blank test `not value.strip()`, the
sorting of identifiers, and the canonical spelling of a UUID. A `String` stands for text that the
database can store, so the NUL character and lone surrogates are outside the model.
-/

namespace Text

/-- `str.isspace` for one character. -/
def isSpace (c : Char) : Bool :=
  (9 ≤ c.toNat && c.toNat ≤ 13) || (28 ≤ c.toNat && c.toNat ≤ 32) || c.toNat == 0x85 ||
    c.toNat == 0xA0 || c.toNat == 0x1680 || (0x2000 ≤ c.toNat && c.toNat ≤ 0x200A) ||
    c.toNat == 0x2028 || c.toNat == 0x2029 || c.toNat == 0x202F || c.toNat == 0x205F ||
    c.toNat == 0x3000

/-- `not value.strip()`: nothing is left once the surrounding space is removed. -/
def Blank (s : String) : Prop := ∀ c ∈ s.toList, isSpace c = true

instance (s : String) : Decidable (Blank s) :=
  List.decidableBAll (fun c ↦ isSpace c = true) s.toList

theorem blank_empty : Blank "" := nofun

theorem not_blank_of_mem {s : String} {c : Char} (hc : c ∈ s.toList) (h : isSpace c = false) :
    ¬Blank s := fun hb ↦ by
  rw [hb c hc] at h
  exact nomatch h

theorem ne_empty_of_not_blank {s : String} (h : ¬Blank s) : s ≠ "" :=
  fun hs ↦ h (hs ▸ blank_empty)

/-- `value.strip()`. -/
def strip (s : String) : String :=
  String.ofList (((s.toList.dropWhile isSpace).reverse.dropWhile isSpace).reverse)

/-- Seven-bit text, the only text `hmac.compare_digest` accepts. -/
def Ascii (s : String) : Prop := ∀ c ∈ s.toList, c.toNat < 128

instance (s : String) : Decidable (Ascii s) :=
  List.decidableBAll (fun c : Char ↦ c.toNat < 128) s.toList

/-- `sorted` on text: by code point. -/
def sorted (l : List String) : List String := l.insertionSort (· ≤ ·)

@[simp] theorem mem_sorted {l : List String} {s : String} : s ∈ sorted l ↔ s ∈ l :=
  (List.perm_insertionSort _ l).mem_iff

theorem sorted_perm (l : List String) : (sorted l).Perm l := List.perm_insertionSort _ l

/-- `sep.join(values)`. -/
def join (sep : String) (l : List String) : String := sep.intercalate l

/-- Texts that start with different characters differ. -/
theorem append_ne_append {a b s t : String} {c d : Char} (ha : a.toList.head? = some c)
    (hb : b.toList.head? = some d) (hne : c ≠ d) : a ++ s ≠ b ++ t := by
  intro h
  have hhead : (a.toList ++ s.toList).head? = (b.toList ++ t.toList).head? := by
    rw [← String.toList_append, ← String.toList_append, h]
  rw [List.head?_append, List.head?_append, ha, hb] at hhead
  exact hne (Option.some.inj hhead)

/-- **Framing.** Texts without the separator are recovered from their join. -/
theorem eq_of_join_eq {c : Char} {l l' : List String} (hl : ∀ s ∈ l, c ∉ s.toList)
    (hl' : ∀ s ∈ l', c ∉ s.toList) (hne : l ≠ []) (hne' : l' ≠ [])
    (h : join (String.ofList [c]) l = join (String.ofList [c]) l') : l = l' := by
  have hsplit : ∀ k : List String, (∀ s ∈ k, c ∉ s.toList) → k ≠ [] →
      (join (String.ofList [c]) k).toList.splitOn c = k.map String.toList := by
    intro k hk hkne
    rw [join, String.toList_intercalate, String.toList_ofList]
    refine List.splitOn_intercalate c (fun t ht ↦ ?_) (by simpa using hkne)
    obtain ⟨s, hs, rfl⟩ := List.mem_map.mp ht
    exact hk s hs
  have hfields : l.map String.toList = l'.map String.toList := by
    rw [← hsplit l hl hne, ← hsplit l' hl' hne', h]
  exact List.map_injective_iff.mpr (fun _ _ ↦ String.toList_inj.mp) hfields

/-- The decimal numeral of a counter. -/
def decimal (n : ℕ) : String := n.repr

theorem decimal_injective {m n : ℕ} (h : decimal m = decimal n) : m = n := by
  have hdigits : Nat.toDigits 10 m = Nat.toDigits 10 n := by
    rw [← Nat.toList_repr, ← Nat.toList_repr]
    exact congrArg String.toList h
  rw [← Nat.ofDigitChars_ten_toDigits (n := m), hdigits, Nat.ofDigitChars_ten_toDigits]

theorem isDigit_of_mem_decimal {n : ℕ} {c : Char} (h : c ∈ (decimal n).toList) :
    c.isDigit = true := by
  rw [decimal, Nat.toList_repr] at h
  exact Nat.isDigit_of_mem_toDigits (by decide) (by decide) h

theorem mem_decimal {n : ℕ} {c : Char} (h : c ∈ (decimal n).toList) : c ≠ ':' := by
  rintro rfl
  exact absurd (isDigit_of_mem_decimal h) (by decide)

/-! ## Hexadecimal digits -/

/-- The lower-case hexadecimal digit of a number below sixteen. -/
def hexDigit (d : ℕ) : Char := Char.ofNat (if d < 10 then 48 + d else 87 + d)

/-- The last `k` hexadecimal digits of `n`, most significant first. -/
def hexDigits : ℕ → ℕ → List Char
  | 0, _ => []
  | k + 1, n => hexDigits k (n / 16) ++ [hexDigit (n % 16)]

theorem hexDigit_injective : ∀ a < 16, ∀ b < 16, hexDigit a = hexDigit b → a = b := by decide

theorem hexDigit_spec : ∀ d < 16, hexDigit d ≠ '-' ∧ hexDigit d ≠ ':' ∧
    isSpace (hexDigit d) = false ∧ (hexDigit d).toNat < 128 := by decide

theorem mem_hexDigits {k n : ℕ} {c : Char} (h : c ∈ hexDigits k n) :
    ∃ d < 16, c = hexDigit d := by
  induction k generalizing n with
  | zero => exact nomatch h
  | succ k ih =>
    rcases List.mem_append.mp h with h | h
    · exact ih h
    · exact ⟨n % 16, Nat.mod_lt n (by decide), List.mem_singleton.mp h⟩

@[simp] theorem length_hexDigits (k n : ℕ) : (hexDigits k n).length = k := by
  induction k generalizing n with
  | zero => rfl
  | succ k ih => rw [hexDigits, List.length_append, ih, List.length_singleton]

theorem hexDigits_injective {k m n : ℕ} (hm : m < 16 ^ k) (hn : n < 16 ^ k)
    (h : hexDigits k m = hexDigits k n) : m = n := by
  induction k generalizing m n with
  | zero => omega
  | succ k ih =>
    obtain ⟨hhigh, hlow⟩ := List.append_inj' h rfl
    have hdiv : m / 16 = n / 16 := ih (by omega) (by omega) hhigh
    have hmod : m % 16 = n % 16 :=
      hexDigit_injective _ (Nat.mod_lt m (by decide)) _ (Nat.mod_lt n (by decide))
        (List.singleton_inj.mp hlow)
    omega

end Text

/-! ## UUIDs -/

/-- A 128-bit identifier. -/
structure UUID where
  bits : BitVec 128
deriving DecidableEq, Repr

namespace UUID

open Text

instance (n : ℕ) : OfNat UUID n := ⟨⟨BitVec.ofNat 128 n⟩⟩

/-- The order of UUID values, as a number. -/
def toNat (u : UUID) : ℕ := u.bits.toNat

theorem toNat_injective {u v : UUID} (h : u.toNat = v.toNat) : u = v := by
  obtain ⟨u⟩ := u
  obtain ⟨v⟩ := v
  exact congrArg mk (BitVec.eq_of_toNat_eq h)

theorem toNat_lt (u : UUID) : u.toNat < 16 ^ 32 := u.bits.isLt

/-- The characters of the canonical spelling: thirty-two hexadecimal digits in groups of
8, 4, 4, 4 and 12. -/
def chars (u : UUID) : List Char :=
  let d := hexDigits 32 u.toNat
  d.take 8 ++ '-' :: ((d.drop 8).take 4 ++ '-' :: ((d.drop 12).take 4 ++ '-' ::
    ((d.drop 16).take 4 ++ '-' :: d.drop 20)))

/-- `str(uuid)`. -/
def str (u : UUID) : String := String.ofList u.chars

private theorem mem_chars {u : UUID} {c : Char} (h : c ∈ u.chars) :
    c = '-' ∨ c ∈ hexDigits 32 u.toNat := by
  simp only [chars, List.mem_append, List.mem_cons] at h
  rcases h with h | h | h | h | h | h | h | h | h
  · exact Or.inr (List.mem_of_mem_take h)
  · exact Or.inl h
  · exact Or.inr (List.mem_of_mem_drop (List.mem_of_mem_take h))
  · exact Or.inl h
  · exact Or.inr (List.mem_of_mem_drop (List.mem_of_mem_take h))
  · exact Or.inl h
  · exact Or.inr (List.mem_of_mem_drop (List.mem_of_mem_take h))
  · exact Or.inl h
  · exact Or.inr (List.mem_of_mem_drop h)

/-- Dropping the hyphens gives the digits back. -/
theorem filter_chars (u : UUID) :
    u.chars.filter (· ≠ '-') = hexDigits 32 u.toNat := by
  have hall : ∀ c ∈ hexDigits 32 u.toNat, decide (c ≠ '-') = true := by
    intro c hc
    obtain ⟨d, hd, rfl⟩ := mem_hexDigits hc
    exact decide_eq_true (hexDigit_spec d hd).1
  have hsub : ∀ l : List Char, l.Sublist (hexDigits 32 u.toNat) →
      l.filter (· ≠ '-') = l :=
    fun l hl ↦ List.filter_eq_self.mpr fun c hc ↦ hall c (hl.subset hc)
  set d := hexDigits 32 u.toNat with hd
  simp only [chars, ← hd, List.filter_append, List.filter_cons_of_neg, decide_not, ne_eq,
    decide_true, Bool.not_true, Bool.false_eq_true, not_false_eq_true]
  simp only [ne_eq, decide_not] at hsub
  rw [hsub _ (List.take_sublist _ _), hsub _ ((List.take_sublist _ _).trans (List.drop_sublist _ _)),
    hsub _ ((List.take_sublist _ _).trans (List.drop_sublist _ _)),
    hsub _ ((List.take_sublist _ _).trans (List.drop_sublist _ _)), hsub _ (List.drop_sublist _ _)]
  have h16 : (d.drop 16).take 4 ++ d.drop 20 = d.drop 16 := by
    rw [show d.drop 20 = (d.drop 16).drop 4 by rw [List.drop_drop]]
    exact List.take_append_drop 4 _
  have h12 : (d.drop 12).take 4 ++ d.drop 16 = d.drop 12 := by
    rw [show d.drop 16 = (d.drop 12).drop 4 by rw [List.drop_drop]]
    exact List.take_append_drop 4 _
  have h8 : (d.drop 8).take 4 ++ d.drop 12 = d.drop 8 := by
    rw [show d.drop 12 = (d.drop 8).drop 4 by rw [List.drop_drop]]
    exact List.take_append_drop 4 _
  rw [h16, h12, h8, List.take_append_drop]

/-- **Distinct UUIDs are spelled differently.** -/
theorem str_injective {u v : UUID} (h : u.str = v.str) : u = v := by
  have hchars : u.chars = v.chars := by
    have := congrArg String.toList h
    rwa [str, str, String.toList_ofList, String.toList_ofList] at this
  have hdigits := congrArg (List.filter (· ≠ '-')) hchars
  rw [filter_chars, filter_chars] at hdigits
  exact toNat_injective (hexDigits_injective u.toNat_lt v.toNat_lt hdigits)

/-- The canonical spelling has thirty-six characters. -/
theorem length_str (u : UUID) : u.str.toList.length = 36 := by
  rw [str, String.toList_ofList]
  simp [chars]

theorem str_inj {u v : UUID} : u.str = v.str ↔ u = v := ⟨str_injective, congrArg str⟩

theorem mem_str {u : UUID} {c : Char} (h : c ∈ u.str.toList) :
    c ≠ ':' ∧ isSpace c = false ∧ c.toNat < 128 := by
  rw [str, String.toList_ofList] at h
  rcases mem_chars h with rfl | h
  · decide
  · obtain ⟨d, hd, rfl⟩ := mem_hexDigits h
    exact (hexDigit_spec d hd).2

theorem str_ascii (u : UUID) : Ascii u.str := fun _ h ↦ (mem_str h).2.2

theorem str_not_blank (u : UUID) : ¬Blank u.str := by
  have hmem : '-' ∈ u.str.toList := by
    rw [str, String.toList_ofList]
    simp [chars]
  exact not_blank_of_mem hmem (mem_str hmem).2.1

end UUID
