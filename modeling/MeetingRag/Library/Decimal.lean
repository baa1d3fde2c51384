import Mathlib.Data.List.TakeWhile
import Mathlib.Data.Nat.Digits.Defs
import MeetingRag.Library.Binary64

/-!
# Decimal numerals of floats

A numeral stands for a rational number, which `ofRat` reads as a `float`. `floatRepr` is the numeral
with the fewest digits that reads as a given `float`, laid out as `repr` does, and it does read as that
`float` (`ofRat_floatRepr`).
-/

namespace Py

/-! ## Numerals -/

/-- The number that a list of decimal digits spells, the most significant first. -/
def digitsValue (ds : List ℕ) : ℕ := Nat.ofDigits 10 ds.reverse

/-- The decimal digits of a number. -/
def decimalDigits (n : ℕ) : List ℕ := if n = 0 then [0] else (Nat.digits 10 n).reverse

/-- A decimal numeral: a sign, digits before and after the point, and the digits of an exponent with
its sign. Without digits after the point there is no point. -/
structure Numeral where
  negative : Bool
  whole : List ℕ
  fraction : List ℕ
  exponent : Option (Bool × List ℕ)
deriving DecidableEq

/-- The number in front of the power of ten. -/
def Numeral.magnitude (x : Numeral) : ℕ := digitsValue (x.whole ++ x.fraction)

def Numeral.power (x : Numeral) : ℤ :=
  (match x.exponent with
    | none => 0
    | some (true, ds) => -(digitsValue ds : ℤ)
    | some (false, ds) => digitsValue ds) - x.fraction.length

/-- The number that a numeral stands for. -/
def Numeral.value (x : Numeral) : ℚ :=
  (if x.negative then -1 else 1) * (x.magnitude * 10 ^ x.power)

theorem digitsValue_append (a b : List ℕ) :
    digitsValue (a ++ b) = digitsValue a * 10 ^ b.length + digitsValue b := by
  rw [digitsValue, List.reverse_append, Nat.ofDigits_append, List.length_reverse, digitsValue,
    digitsValue]
  ring

theorem digitsValue_replicate (n : ℕ) : digitsValue (List.replicate n 0) = 0 := by
  rw [digitsValue, List.reverse_replicate]
  induction n with
  | zero => rfl
  | succ n ih => rw [List.replicate_succ, Nat.ofDigits_cons, ih]

theorem digitsValue_decimalDigits (n : ℕ) : digitsValue (decimalDigits n) = n := by
  rw [decimalDigits]
  split
  · next h => rw [h]; rfl
  · rw [digitsValue, List.reverse_reverse, Nat.ofDigits_digits]

/-! ## The shortest numeral -/

/-- An exponent has two digits at least. -/
def exponentDigits (n : ℕ) : List ℕ :=
  if n < 10 then 0 :: decimalDigits n else decimalDigits n

/-- How `repr` lays out the digits `ds` with the value `ds * 10 ^ e`. -/
def layout (negative : Bool) (ds : List ℕ) (e : ℤ) : Numeral :=
  let point := ds.length + e
  if -4 < point ∧ point ≤ 0 then
    ⟨negative, [0], List.replicate (-point).toNat 0 ++ ds, none⟩
  else if 0 < point ∧ point < ds.length then
    ⟨negative, ds.take point.toNat, ds.drop point.toNat, none⟩
  else if ds.length ≤ point ∧ point ≤ 16 then
    ⟨negative, ds ++ List.replicate (point - ds.length).toNat 0, [0], none⟩
  else
    ⟨negative, ds.take 1, ds.drop 1, some (decide (point - 1 < 0), exponentDigits (point - 1).natAbs)⟩

/-- The decimal `c * 10 ^ e` reads as `q`. -/
def Reads (q : ℚ) (c : ℕ) (e : ℤ) : Prop := ofRat (c * 10 ^ e) = .finite q

instance (q : ℚ) (c : ℕ) (e : ℤ) : Decidable (Reads q c e) :=
  inferInstanceAs (Decidable (ofRat (c * 10 ^ e) = .finite q))

/-- The decimals of `k + 1` digits next to `q` that read as `q`, the nearer one if both do. -/
def neighbour (q : ℚ) (k : ℕ) : Option (ℕ × ℤ) :=
  let e := Int.log 10 q - k
  let c := ⌊q / 10 ^ e⌋.toNat
  if Reads q c e ∧ (Reads q (c + 1) e → q / 10 ^ e - c ≤ 1 / 2) then some (c, e)
  else if Reads q (c + 1) e then some (c + 1, e)
  else none

/-- No binary64 value has more decimal digits. -/
def maxDigits : ℕ := 1400

/-- The decimal with the fewest digits that reads as `q`. -/
def shortest (q : ℚ) : Option (ℕ × ℤ) := (List.range maxDigits).findSome? (neighbour q)

/-- The numeral of `c * 10 ^ e`, without the zeros at the end of the digits of `c`. -/
def stripped (negative : Bool) (c : ℕ) (e : ℤ) : Numeral :=
  let zeros := ((Nat.digits 10 c).takeWhile (· = 0)).length
  layout negative ((Nat.digits 10 c).drop zeros).reverse (e + zeros)

/-- `repr` of a finite `float`. -/
def floatRepr (q : ℚ) : Numeral :=
  match shortest |q| with
  | none | some (0, _) => ⟨false, [0], [0], none⟩
  | some (c + 1, e) => stripped (decide (q < 0)) (c + 1) e

/-- The sign of a numeral. -/
def signOf (negative : Bool) : ℚ := if negative then -1 else 1

theorem layout_value (negative : Bool) {ds : List ℕ} (hne : ds ≠ []) (e : ℤ) :
    (layout negative ds e).value = signOf negative * (digitsValue ds * 10 ^ e) := by
  have hpos : 0 < ds.length := List.length_pos_of_ne_nil hne
  have hvalue : ∀ x : Numeral, x.negative = negative →
      (x.magnitude : ℚ) * 10 ^ x.power = digitsValue ds * 10 ^ e →
      x.value = signOf negative * (digitsValue ds * 10 ^ e) := by
    intro x hsign hx
    rw [Numeral.value, hsign, hx, signOf]
  rw [layout]
  split
  · next h =>
    refine hvalue _ rfl ?_
    rw [Numeral.magnitude, Numeral.power]
    simp only [digitsValue_append, digitsValue_replicate, zero_mul, zero_add, List.length_append,
      List.length_replicate]
    have hzero : digitsValue [0] = 0 := rfl
    rw [hzero, zero_mul, zero_add]
    congr 2
    omega
  split
  · next h =>
    refine hvalue _ rfl ?_
    rw [Numeral.magnitude, Numeral.power, List.take_append_drop, List.length_drop]
    congr 2
    simp only
    omega
  split
  · next h =>
    refine hvalue _ rfl ?_
    rw [Numeral.magnitude, Numeral.power]
    simp only [digitsValue_append, digitsValue_replicate, add_zero, List.length_replicate,
      List.length_singleton]
    have hzero : digitsValue [0] = 0 := rfl
    rw [hzero, add_zero]
    obtain ⟨n, hn⟩ := Int.eq_ofNat_of_zero_le (show 0 ≤ e by omega)
    have hcount : (ds.length + e - ds.length : ℤ).toNat = n := by omega
    rw [hcount, hn]
    push_cast
    rw [zpow_neg, zpow_one, zpow_natCast]
    field_simp
  · refine hvalue _ rfl ?_
    rw [Numeral.magnitude, Numeral.power, List.take_append_drop, List.length_drop]
    congr 2
    have hexp : ∀ n : ℕ, digitsValue (exponentDigits n) = n := by
      intro n
      rw [exponentDigits]
      split
      · rw [← List.singleton_append, digitsValue_append, digitsValue_decimalDigits]
        simp [digitsValue]
      · exact digitsValue_decimalDigits n
    simp only
    split
    · next heq => exact nomatch heq
    · next ds' heq =>
      obtain ⟨hneg, rfl⟩ := Prod.mk.inj (Option.some.inj heq)
      rw [hexp]
      have := of_decide_eq_true hneg
      omega
    · next ds' heq =>
      obtain ⟨hneg, rfl⟩ := Prod.mk.inj (Option.some.inj heq)
      rw [hexp]
      have := of_decide_eq_false hneg
      omega

/-- Zeros at the end of the digits count as powers of ten. -/
theorem stripped_value (negative : Bool) {c : ℕ} (hc : c ≠ 0) (e : ℤ) :
    (stripped negative c e).value = signOf negative * (c * 10 ^ e) := by
  rw [stripped]
  set zeros := (Nat.digits 10 c).takeWhile (· = 0) with hzeros
  have hsplit : zeros ++ (Nat.digits 10 c).drop zeros.length = Nat.digits 10 c := by
    have hprefix : zeros <+: Nat.digits 10 c := List.takeWhile_prefix _
    obtain ⟨rest, hrest⟩ := hprefix
    rw [← hrest, List.drop_left]
  have hzero : Nat.ofDigits 10 zeros = 0 := by
    have hall : ∀ d ∈ zeros, d = 0 := by
      intro d hd
      simpa using List.mem_takeWhile_imp hd
    rw [List.eq_replicate_of_mem hall, ← List.reverse_replicate]
    exact digitsValue_replicate _
  have hvalue := congrArg (Nat.ofDigits 10) hsplit
  rw [Nat.ofDigits_append, hzero, zero_add, Nat.ofDigits_digits] at hvalue
  have hne : ((Nat.digits 10 c).drop zeros.length).reverse ≠ [] := by
    intro hnil
    rw [List.reverse_eq_nil_iff.mp hnil, Nat.ofDigits_nil, mul_zero] at hvalue
    exact hc hvalue.symm
  have hcast : (c : ℚ) = 10 ^ zeros.length * digitsValue ((Nat.digits 10 c).drop zeros.length).reverse := by
    rw [digitsValue, List.reverse_reverse]
    exact_mod_cast hvalue.symm
  rw [layout_value negative hne, hcast, zpow_add₀ (by norm_num), zpow_natCast]
  ring

theorem neighbour_reads {q : ℚ} {k c : ℕ} {e : ℤ} (h : neighbour q k = some (c, e)) : Reads q c e := by
  rw [neighbour] at h
  split at h
  · next hreads =>
    cases h
    exact hreads.1
  · split at h
    · next hreads =>
      cases h
      exact hreads
    · exact nomatch h

/-- A positive binary64 value has less than 320 digits before the point. -/
theorem log_lt_of_isDouble {q : ℚ} (h0 : 0 < q) (hq : IsDouble q) : Int.log 10 q < 320 := by
  have hbound : (2 : ℚ) ^ 1024 ≤ 10 ^ 320 := by
    calc (2 : ℚ) ^ 1024 = (2 ^ 16) ^ 64 := (pow_mul 2 16 64)
      _ ≤ (10 ^ 5) ^ 64 := pow_le_pow_left₀ (by norm_num) (by norm_num) 64
      _ = 10 ^ 320 := (pow_mul 10 5 64).symm
  refine (Int.lt_zpow_iff_log_lt (by decide) h0).mp ?_
  have hlt := (abs_of_pos h0 ▸ hq.2).trans_le hbound
  exact_mod_cast hlt

/-- A positive binary64 value is a decimal. -/
theorem exists_neighbour {q : ℚ} (h0 : 0 < q) (hq : IsDouble q) :
    ∃ k ∈ List.range maxDigits, (neighbour q k).isSome = true := by
  obtain ⟨N, hN⟩ : ∃ N : ℕ, N = 1074 := ⟨_, rfl⟩
  -- the last bit is a multiple of `2 ^ (-N)`, so the decimal ends there too
  obtain ⟨m₀, hm₀⟩ := exists_dyadic hq.1 hN.ge
  set m := m₀ * 5 ^ N with hm
  have hint : q / 10 ^ (-(N : ℤ)) = m := by
    have hten : (10 : ℚ) ^ N = 2 ^ N * 5 ^ N := by
      rw [← mul_pow]
      norm_num
    have htwo : (0 : ℚ) < 2 ^ N := by positivity
    rw [zpow_neg, div_inv_eq_mul, zpow_natCast, hten, hm, Int.cast_mul, hm₀, zpow_neg, zpow_natCast]
    field_simp
    push_cast
    ring
  have hpos : 0 < m := by
    have : (0 : ℚ) < m := by
      rw [← hint]
      positivity
    exact_mod_cast this
  have hlow : -(N : ℤ) ≤ Int.log 10 q := by
    refine (Int.zpow_le_iff_le_log (by decide) h0).mp ?_
    have hle : (1 : ℚ) ≤ q / 10 ^ (-(N : ℤ)) := by
      rw [hint]
      exact_mod_cast hpos
    rw [le_div_iff₀ (by positivity), one_mul] at hle
    exact_mod_cast hle
  have hhigh := log_lt_of_isDouble h0 hq
  refine ⟨(Int.log 10 q + N).toNat, List.mem_range.mpr (by rw [maxDigits]; omega), ?_⟩
  have he : Int.log 10 q - (Int.log 10 q + N).toNat = -(N : ℤ) := by omega
  have hreads : Reads q ⌊q / 10 ^ (-(N : ℤ))⌋.toNat (-(N : ℤ)) := by
    have hcast : ((m.toNat : ℕ) : ℚ) = m := by exact_mod_cast Int.toNat_of_nonneg hpos.le
    have hback : (m : ℚ) * 10 ^ (-(N : ℤ)) = q := by
      rw [← hint]
      exact div_mul_cancel₀ q (zpow_ne_zero _ (by norm_num))
    rw [Reads, hint, Int.floor_intCast, hcast, hback, ofRat_of_isDouble hq]
  rw [neighbour, he]
  split
  · rfl
  · next hnot =>
    split
    · rfl
    · next hnext => exact absurd ⟨hreads, fun h ↦ absurd h hnext⟩ hnot

theorem exists_shortest {q : ℚ} (h0 : 0 < q) (hq : IsDouble q) :
    ∃ c e, shortest q = some (c, e) ∧ Reads q c e := by
  rw [shortest]
  generalize hl : List.range maxDigits = l
  have hexists := exists_neighbour h0 hq
  rw [hl] at hexists
  obtain ⟨⟨c, e⟩, hfound⟩ :=
    Option.isSome_iff_exists.mp (List.findSome?_isSome_iff.mpr hexists)
  obtain ⟨k, -, hk⟩ := List.exists_of_findSome?_eq_some hfound
  exact ⟨c, e, hfound, neighbour_reads hk⟩

theorem ofRat_zero : ofRat 0 = .finite 0 := by
  rw [ofRat_of_mem_unit le_rfl zero_le_one, nearest, zero_div, ← Int.cast_zero,
    roundHalfEven_intCast, Int.cast_zero, zero_mul]

/-- **The text of a `float` reads as that `float`.** -/
theorem ofRat_floatRepr {q : ℚ} (hne : q ≠ 0) (hq : IsDouble q) :
    ofRat (floatRepr q).value = .finite q := by
  obtain ⟨c, e, hshortest, hreads⟩ := exists_shortest (abs_pos.mpr hne) hq.abs
  have hc : c ≠ 0 := by
    intro hzero
    rw [Reads, hzero, Nat.cast_zero, zero_mul, ofRat_zero, PyFloat.finite.injEq] at hreads
    exact (abs_pos.mpr hne).ne hreads
  have hrepr : floatRepr q = stripped (decide (q < 0)) c e := by
    unfold floatRepr
    split
    · next hnone => exact nomatch hnone.symm.trans hshortest
    · next e' hsome =>
      cases hsome.symm.trans hshortest
      exact absurd rfl hc
    · next c' e' hsome =>
      cases hsome.symm.trans hshortest
      rfl
  rw [hrepr, stripped_value _ hc]
  by_cases hsign : q < 0
  · rw [decide_eq_true hsign, signOf, if_pos rfl, neg_one_mul, ofRat_neg hreads, abs_of_neg hsign,
      neg_neg]
  · rw [decide_eq_false hsign, signOf, if_neg Bool.false_ne_true, one_mul]
    rw [abs_of_nonneg (not_lt.mp hsign)] at hreads
    exact hreads

end Py
