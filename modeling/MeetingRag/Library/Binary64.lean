import Mathlib.Algebra.Order.Floor.Ring
import Mathlib.Algebra.Order.Field.Power
import Mathlib.Data.Int.Log
import Mathlib.Data.Nat.Prime.Basic
import Mathlib.Data.Rat.Floor
import Mathlib.Tactic.FieldSimp
import Mathlib.Tactic.Linarith
import Mathlib.Tactic.NormNum
import Mathlib.Tactic.NormNum.Prime
import Mathlib.Tactic.Positivity
import Mathlib.Tactic.Ring

/-!
# Binary floating point

A Python `float` is a binary64 value: a rational number with at most 53 significant bits, an infinity
or a NaN. `ofRat` rounds a rational number to the nearest one, a tie to the even significand, and
overflows beyond `2 ^ 1024`. `roundDigits` is the built-in `round(value, 6)`.

No value is closer to a number than the one it is rounded to, and rounding a value to six digits twice
is rounding it once (`exists_roundDigits_of_isDouble`).

The sign of zero is left out: nothing here tells `-0.0` from `0.0`.
-/

namespace Py

/-- A Python `float`. -/
inductive PyFloat
  | finite (q : ℚ)
  | inf
  | negInf
  | nan
deriving DecidableEq, Repr

/-- `math.isfinite`. -/
def PyFloat.isFinite : PyFloat → Bool
  | .finite _ => true
  | .inf | .negInf | .nan => false

/-! ## Rounding -/

/-- The nearest integer, a tie to the even one. -/
def roundHalfEven (x : ℚ) : ℤ :=
  if Int.fract x < 1 / 2 ∨ (Int.fract x = 1 / 2 ∧ Even ⌊x⌋) then ⌊x⌋ else ⌊x⌋ + 1

/-- The exponent of the last bit that a binary64 value near `q` has. -/
def ulpExponent (q : ℚ) : ℤ := max (Int.log 2 |q| - 52) (-1074)

/-- The nearest value of 53 bits, the exponent unbounded above. -/
def nearest (q : ℚ) : ℚ := roundHalfEven (q / 2 ^ ulpExponent q) * 2 ^ ulpExponent q

/-- The nearest `float`. -/
def ofRat (q : ℚ) : PyFloat :=
  if |nearest q| < 2 ^ 1024 then .finite (nearest q) else if 0 < q then .inf else .negInf

/-- `round(value, 6)`: the decimal nearest to the exact value, a tie to the even digit, read as a
`float`. -/
def roundDigits (q : ℚ) : PyFloat := ofRat (roundHalfEven (q * 10 ^ 6) / 10 ^ 6)

theorem roundHalfEven_intCast (n : ℤ) : roundHalfEven n = n := by
  rw [roundHalfEven, Int.fract_intCast, Int.floor_intCast, if_pos (Or.inl (by norm_num))]

/-- Rounding does not cross an integer from above. -/
theorem le_roundHalfEven {x : ℚ} {n : ℤ} (h : n ≤ x) : n ≤ roundHalfEven x := by
  have hfloor : n ≤ ⌊x⌋ := Int.le_floor.mpr h
  rw [roundHalfEven]
  split <;> omega

/-- Rounding does not cross an integer from below. -/
theorem roundHalfEven_le {x : ℚ} {n : ℤ} (h : x ≤ n) : roundHalfEven x ≤ n := by
  rcases h.lt_or_eq with h | rfl
  · have hfloor : ⌊x⌋ < n := Int.floor_lt.mpr h
    rw [roundHalfEven]
    split <;> omega
  · exact (roundHalfEven_intCast n).le

theorem nearest_of_integer {q : ℚ} {m : ℤ} (h : q = m * 2 ^ ulpExponent q) : nearest q = q := by
  have hdiv : q / 2 ^ ulpExponent q = m := by
    rw [div_eq_iff (zpow_ne_zero _ two_ne_zero)]
    exact h
  rw [nearest, hdiv, roundHalfEven_intCast]
  exact h.symm

/-- A power of two is an integer from exponent zero on. -/
theorem exists_int_zpow {k : ℤ} (h : 0 ≤ k) : ∃ n : ℤ, (n : ℚ) = 2 ^ k := by
  obtain ⟨n, rfl⟩ := Int.eq_ofNat_of_zero_le h
  exact ⟨2 ^ n, by rw [Int.cast_pow, Int.cast_ofNat, zpow_natCast]⟩

/-- The significand has at most 53 bits. -/
theorem abs_significand_le (q : ℚ) : |q / 2 ^ ulpExponent q| ≤ 2 ^ (53 : ℤ) := by
  have hpos : (0 : ℚ) < 2 ^ ulpExponent q := zpow_pos two_pos _
  rw [abs_div, abs_of_pos hpos, div_le_iff₀ hpos, ← zpow_add₀ two_ne_zero]
  refine (Int.lt_zpow_succ_log_self one_lt_two |q|).le.trans ?_
  refine zpow_le_zpow_right₀ one_le_two ?_
  have := le_max_left (Int.log 2 |q| - 52) (-1074)
  rw [ulpExponent]
  omega

/-- **A rounded value is a binary64 value.** -/
theorem nearest_nearest (q : ℚ) : nearest (nearest q) = nearest q := by
  set e := ulpExponent q with he
  set m := roundHalfEven (q / 2 ^ e) with hm
  have hv : nearest q = m * 2 ^ e := rfl
  have hlower : -1074 ≤ e := he ▸ le_max_right _ _
  by_cases hne : nearest q = 0
  · rw [hne, nearest, zero_div, ← Int.cast_zero, roundHalfEven_intCast, Int.cast_zero, zero_mul]
  by_cases hle : ulpExponent (nearest q) ≤ e
  · -- The value is a multiple of its last bit, since that bit is no longer than before.
    obtain ⟨n, hn⟩ := exists_int_zpow (sub_nonneg.mpr hle)
    refine nearest_of_integer (m := m * n) ?_
    rw [Int.cast_mul, hn, mul_assoc, ← zpow_add₀ two_ne_zero, sub_add_cancel]
    exact hv
  · -- Rounding went up to the next power of two.
    have hlog : e + 53 ≤ Int.log 2 |nearest q| := by
      rw [ulpExponent] at hle
      rcases le_total (Int.log 2 |nearest q| - 52) (-1074) with h | h
      · rw [max_eq_right h] at hle
        omega
      · rw [max_eq_left h] at hle
        omega
    have hbig : (2 : ℚ) ^ (e + 53) ≤ |nearest q| :=
      (Int.zpow_le_iff_le_log one_lt_two (abs_pos.mpr hne)).mpr hlog
    have hsmall : |nearest q| ≤ 2 ^ (e + 53) := by
      have habs := abs_le.mp (abs_significand_le q)
      obtain ⟨n, hn⟩ := exists_int_zpow (show (0 : ℤ) ≤ 53 by decide)
      have hupper : m ≤ n := roundHalfEven_le (by rw [hn]; exact habs.2)
      have hlow : -n ≤ m := le_roundHalfEven (by rw [Int.cast_neg, hn]; exact habs.1)
      have hmabs : |(m : ℚ)| ≤ 2 ^ (53 : ℤ) := by
        rw [← hn, ← Int.cast_abs]
        exact_mod_cast abs_le.mpr ⟨hlow, hupper⟩
      rw [hv, abs_mul, abs_of_pos (zpow_pos (two_pos : (0 : ℚ) < 2) e), add_comm,
        zpow_add₀ two_ne_zero]
      exact mul_le_mul_of_nonneg_right hmabs (zpow_pos two_pos e).le
    have heq : |nearest q| = 2 ^ (e + 53) := le_antisymm hsmall hbig
    have hexp : ulpExponent (nearest q) = e + 1 := by
      have hl : Int.log 2 |nearest q| = e + 53 := by
        rw [heq]
        exact Int.log_zpow one_lt_two (e + 53)
      rw [ulpExponent, hl]
      omega
    obtain ⟨n, hn⟩ := exists_int_zpow (show (0 : ℤ) ≤ 52 by decide)
    have hsplit : (2 : ℚ) ^ (e + 53) = n * 2 ^ (e + 1) := by
      rw [hn, ← zpow_add₀ two_ne_zero]
      congr 1
      omega
    rcases abs_eq (zpow_pos two_pos (e + 53)).le |>.mp heq with h | h
    · refine nearest_of_integer (m := n) ?_
      rw [hexp, ← hsplit]
      exact h
    · refine nearest_of_integer (m := -n) ?_
      rw [hexp, Int.cast_neg, neg_mul, ← hsplit]
      exact h

/-- A finite binary64 value. -/
def IsDouble (q : ℚ) : Prop := nearest q = q ∧ |q| < 2 ^ 1024

theorem ofRat_of_isDouble {q : ℚ} (h : IsDouble q) : ofRat q = .finite q := by
  rw [ofRat, h.1, if_pos h.2]

/-! ### The closest value -/

theorem abs_roundHalfEven_sub_le (x : ℚ) : |(roundHalfEven x : ℚ) - x| ≤ 1 / 2 := by
  have hfract := Int.self_sub_floor x
  have h0 := Int.fract_nonneg x
  have h1 := Int.fract_lt_one x
  rw [roundHalfEven]
  split
  · next hlow =>
    have hhalf : Int.fract x ≤ 1 / 2 := by
      rcases hlow with h | h
      · exact h.le
      · exact h.1.le
    rw [abs_le]
    constructor <;> linarith
  · next hhigh =>
    have hhalf : 1 / 2 ≤ Int.fract x := by
      by_contra h
      exact hhigh (Or.inl (not_le.mp h))
    rw [Int.cast_add, Int.cast_one, abs_le]
    constructor <;> linarith

/-- Less than a half away from an integer, rounding goes there. -/
theorem roundHalfEven_eq {x : ℚ} {n : ℤ} (h : |x - n| < 1 / 2) : roundHalfEven x = n := by
  have hround := abs_roundHalfEven_sub_le x
  have hdist : |(roundHalfEven x : ℚ) - n| < 1 := by
    calc |(roundHalfEven x : ℚ) - n| ≤ |(roundHalfEven x : ℚ) - x| + |x - n| := abs_sub_le _ _ _
      _ < 1 := by linarith
  have hint : |roundHalfEven x - n| < 1 := by exact_mod_cast hdist
  exact sub_eq_zero.mp (Int.abs_lt_one_iff.mp hint)

/-- Rounding to the nearest integer does not depend on the sign. -/
theorem roundHalfEven_neg (x : ℚ) : roundHalfEven (-x) = -roundHalfEven x := by
  by_cases hint : Int.fract x = 0
  · have hx : x = (⌊x⌋ : ℤ) := by
      have := Int.self_sub_floor x
      linarith
    rw [hx, ← Int.cast_neg, roundHalfEven_intCast, roundHalfEven_intCast]
  · have hfract : Int.fract (-x) = 1 - Int.fract x := Int.fract_neg hint
    have hfloor : ⌊-x⌋ = -⌊x⌋ - 1 := by
      have hneg := Int.self_sub_floor (-x)
      have hpos := Int.self_sub_floor x
      rw [hfract] at hneg
      have hcast : ((⌊-x⌋ : ℤ) : ℚ) = ((-⌊x⌋ - 1 : ℤ) : ℚ) := by
        push_cast
        linarith
      exact_mod_cast hcast
    rw [roundHalfEven, roundHalfEven, hfract, hfloor]
    rcases lt_trichotomy (Int.fract x) (1 / 2) with hlt | heq | hgt
    · rw [if_neg, if_pos (Or.inl hlt)]
      · ring
      · rintro (h | ⟨h, -⟩) <;> linarith
    · rw [heq]
      by_cases heven : Even ⌊x⌋
      · rw [if_neg, if_pos (Or.inr ⟨rfl, heven⟩)]
        · ring
        · rintro (h | ⟨-, h⟩)
          · linarith
          · exact absurd (heven.neg.sub_odd odd_one) (Int.not_odd_iff_even.mpr h)
      · rw [if_pos, if_neg]
        · ring
        · rintro (h | ⟨-, h⟩)
          · linarith
          · exact heven h
        · refine Or.inr ⟨by norm_num, ?_⟩
          exact (Int.not_even_iff_odd.mp heven).neg.sub_odd odd_one
    · rw [if_pos (Or.inl (by linarith)), if_neg]
      · ring
      · rintro (h | ⟨h, -⟩) <;> linarith

theorem nearest_neg (q : ℚ) : nearest (-q) = -nearest q := by
  have hexp : ulpExponent (-q) = ulpExponent q := by rw [ulpExponent, abs_neg, ulpExponent]
  rw [nearest, nearest, hexp, neg_div, roundHalfEven_neg, Int.cast_neg, neg_mul]

theorem IsDouble.abs {q : ℚ} (h : IsDouble q) : IsDouble |q| := by
  refine ⟨?_, by rw [abs_abs]; exact h.2⟩
  rcases abs_choice q with heq | heq
  · rw [heq, h.1]
  · rw [heq, nearest_neg, h.1]

theorem ofRat_neg {q r : ℚ} (h : ofRat q = .finite r) : ofRat (-q) = .finite (-r) := by
  rw [ofRat] at h
  split at h
  · next hlt =>
    rw [ofRat, nearest_neg, abs_neg, if_pos hlt, ← PyFloat.finite.inj h]
  · split at h <;> exact nomatch h

/-- No integer is closer than the rounded one. -/
theorem abs_roundHalfEven_sub_le_abs (x : ℚ) (n : ℤ) : |(roundHalfEven x : ℚ) - x| ≤ |n - x| := by
  by_cases h : |x - n| < 1 / 2
  · rw [roundHalfEven_eq h]
  · rw [abs_sub_comm (n : ℚ)]
    exact (abs_roundHalfEven_sub_le x).trans (not_lt.mp h)

/-- **No binary64 value is closer than the rounded one.** -/
theorem abs_nearest_sub_le_abs (q : ℚ) {y : ℚ} (hy : nearest y = y) :
    |nearest q - q| ≤ |y - q| := by
  by_cases hq : q = 0
  · rw [hq, nearest, zero_div, ← Int.cast_zero, roundHalfEven_intCast, Int.cast_zero, zero_mul,
      sub_zero, abs_zero]
    exact abs_nonneg _
  set e := ulpExponent q with he
  have hpos : (0 : ℚ) < 2 ^ e := zpow_pos two_pos _
  -- no multiple of the last bit is closer
  have hgrid : ∀ n : ℤ, |nearest q - q| ≤ |n * 2 ^ e - q| := by
    intro n
    have hscale : ∀ m : ℤ, (m : ℚ) * 2 ^ e - q = (m - q / 2 ^ e) * 2 ^ e := by
      intro m
      rw [sub_mul, div_mul_cancel₀ q hpos.ne']
    rw [nearest, ← he, hscale, hscale, abs_mul, abs_mul]
    exact mul_le_mul_of_nonneg_right (abs_roundHalfEven_sub_le_abs _ n) (abs_nonneg _)
  by_cases hle : e ≤ ulpExponent y
  · obtain ⟨n, hn⟩ := exists_int_zpow (sub_nonneg.mpr hle)
    have hmultiple : ((roundHalfEven (y / 2 ^ ulpExponent y) * n : ℤ) : ℚ) * 2 ^ e = y := by
      rw [Int.cast_mul, hn, mul_assoc, ← zpow_add₀ two_ne_zero, sub_add_cancel]
      exact hy
    calc |nearest q - q| ≤ _ := hgrid (roundHalfEven (y / 2 ^ ulpExponent y) * n)
      _ = |y - q| := by rw [hmultiple]
  · -- a value with a shorter last bit lies below the power of two under `q`
    have hlog : e = Int.log 2 |q| - 52 ∧ Int.log 2 |y| < e + 52 := by
      have hlow : -1074 ≤ ulpExponent y := le_max_right _ _
      have hle' : Int.log 2 |y| - 52 ≤ ulpExponent y := le_max_left _ _
      rw [ulpExponent] at he
      rcases le_total (Int.log 2 |q| - 52) (-1074) with h | h
      · rw [max_eq_right h] at he
        omega
      · rw [max_eq_left h] at he
        omega
    have hbig : (2 : ℚ) ^ (e + 52) ≤ |q| := by
      refine (Int.zpow_le_iff_le_log one_lt_two (abs_pos.mpr hq)).mpr ?_
      omega
    have hsmall : |y| ≤ 2 ^ (e + 52) := by
      refine (Int.lt_zpow_succ_log_self one_lt_two |y|).le.trans ?_
      exact zpow_le_zpow_right₀ one_le_two (by omega)
    obtain ⟨n, hn⟩ := exists_int_zpow (show (0 : ℤ) ≤ 52 by decide)
    have hsplit : (n : ℚ) * 2 ^ e = 2 ^ (e + 52) := by
      rw [hn, ← zpow_add₀ two_ne_zero, add_comm]
    have hfar : |q| - 2 ^ (e + 52) ≤ |y - q| := by
      have := abs_sub_abs_le_abs_sub q y
      rw [abs_sub_comm] at this
      linarith
    rcases le_total 0 q with hsign | hsign
    · refine (hgrid n).trans ?_
      rw [abs_of_nonneg hsign] at hbig hfar
      rw [hsplit, abs_sub_comm, abs_of_nonneg (by linarith)]
      exact hfar
    · refine (hgrid (-n)).trans ?_
      rw [abs_of_nonpos hsign] at hbig hfar
      rw [Int.cast_neg, neg_mul, hsplit, abs_of_nonneg (by linarith)]
      linarith

/-! ### Six digits -/

/-- A binary64 value is a multiple of the last bit there is. -/
theorem exists_dyadic {q : ℚ} (h : nearest q = q) {N : ℕ} (hN : 1074 ≤ N) :
    ∃ m : ℤ, q = m * 2 ^ (-(N : ℤ)) := by
  have hexp : -1074 ≤ ulpExponent q := le_max_right _ _
  obtain ⟨n, hn⟩ := exists_int_zpow (show 0 ≤ ulpExponent q + N by omega)
  refine ⟨roundHalfEven (q / 2 ^ ulpExponent q) * n, ?_⟩
  rw [Int.cast_mul, hn, mul_assoc, ← zpow_add₀ two_ne_zero, add_neg_cancel_right]
  exact h.symm

/-- A binary64 value with a fraction has bits after the point, hence a small whole part. -/
theorem abs_lt_of_fraction {q : ℚ} (h : nearest q = q) (hint : ∀ n : ℤ, q ≠ n) : |q| < 2 ^ 52 := by
  have hneg : ulpExponent q < 0 := by
    by_contra hle
    obtain ⟨n, hn⟩ := exists_int_zpow (not_lt.mp hle)
    refine hint (roundHalfEven (q / 2 ^ ulpExponent q) * n) ?_
    rw [Int.cast_mul, hn]
    exact h.symm
  have hlog : Int.log 2 |q| + 1 ≤ 52 := by
    have := le_max_left (Int.log 2 |q| - 52) (-1074)
    rw [ulpExponent] at hneg
    omega
  calc |q| < ((2 : ℕ) : ℚ) ^ (Int.log 2 |q| + 1) := Int.lt_zpow_succ_log_self one_lt_two _
    _ ≤ 2 ^ (52 : ℤ) := zpow_le_zpow_right₀ one_le_two hlog
    _ = 2 ^ 52 := by norm_num

/-- Two binary64 values are not a millionth apart. -/
theorem not_millionth {q r : ℚ} (hq : nearest q = q) (hr : nearest r = r) :
    |r - q| * 10 ^ 6 ≠ 1 := by
  obtain ⟨N, hN⟩ : ∃ N, 1074 ≤ N := ⟨1074, le_rfl⟩
  obtain ⟨a, ha⟩ := exists_dyadic hq hN
  obtain ⟨b, hb⟩ := exists_dyadic hr hN
  intro h
  have hpos : (0 : ℚ) < 2 ^ N := by positivity
  have hcast : ((b - a).natAbs * 10 ^ 6 : ℚ) = 2 ^ N := by
    rw [ha, hb, ← sub_mul, abs_mul, zpow_neg, zpow_natCast, abs_of_pos (inv_pos.mpr hpos),
      ← Int.cast_sub, ← Int.cast_abs, Int.abs_eq_natAbs, Int.cast_natCast, mul_right_comm,
      ← div_eq_mul_inv, div_eq_one_iff_eq hpos.ne'] at h
    exact h
  -- a power of two has no factor five
  have hnat : (b - a).natAbs * 10 ^ 6 = 2 ^ N := by exact_mod_cast hcast
  have hfive : 5 ∣ 2 ^ N := hnat ▸ Dvd.dvd.mul_left (by norm_num) _
  exact absurd ((by norm_num : Nat.Prime 5).dvd_of_dvd_pow hfive) (by norm_num)

/-- **Rounding to six digits is done once.** -/
theorem exists_roundDigits_of_isDouble {q : ℚ} (hq : IsDouble q) :
    ∃ r, roundDigits q = .finite r ∧ IsDouble r ∧ roundDigits r = .finite r := by
  by_cases hint : ∃ n : ℤ, q = n
  · -- a whole number stays
    obtain ⟨n, rfl⟩ := hint
    have hround : roundDigits (n : ℚ) = .finite n := by
      have hscaled : (n : ℚ) * 10 ^ 6 = ((n * 10 ^ 6 : ℤ) : ℚ) := by push_cast; rfl
      rw [roundDigits, hscaled, roundHalfEven_intCast, ← hscaled,
        mul_div_cancel_right₀ _ (by positivity), ofRat_of_isDouble hq]
    exact ⟨n, hround, hq, hround⟩
  · have hint : ∀ n : ℤ, q ≠ n := fun n hn ↦ hint ⟨n, hn⟩
    set k := roundHalfEven (q * 10 ^ 6) with hk
    set d : ℚ := k / 10 ^ 6 with hd
    set r := nearest d with hr
    have hscale : ∀ x : ℚ, x * 10 ^ 6 - k = (x - d) * 10 ^ 6 := by
      intro x
      rw [hd, sub_mul, div_mul_cancel₀ _ (by positivity)]
    have hnear : |q - d| * 10 ^ 6 ≤ 1 / 2 := by
      have := abs_roundHalfEven_sub_le (q * 10 ^ 6)
      rw [← hk, abs_sub_comm, hscale, abs_mul, abs_of_pos (by positivity : (0 : ℚ) < 10 ^ 6)] at this
      exact this
    have hclose : |r - d| ≤ |q - d| := abs_nearest_sub_le_abs d hq.1
    have hsmall : |r| < 2 ^ 1024 := by
      have hq52 := abs_lt_of_fraction hq.1 hint
      have htriangle : |r| ≤ |r - d| + |q - d| + |q| := by
        have h₁ := abs_sub_le r d q
        have h₂ := abs_sub_abs_le_abs_sub r q
        rw [abs_sub_comm d q] at h₁
        linarith
      have hbound : |r| < 2 ^ 53 := by
        have : |q - d| ≤ 1 := by linarith [abs_nonneg (q - d)]
        linarith
      exact hbound.trans_le (pow_le_pow_right₀ one_le_two (by norm_num))
    have hround : roundDigits q = .finite r := by
      rw [roundDigits, ofRat, if_pos hsmall]
    refine ⟨r, hround, ⟨nearest_nearest d, hsmall⟩, ?_⟩
    by_cases hlt : |r * 10 ^ 6 - k| < 1 / 2
    · -- the rounded value is nearer to the same decimal than to any other
      rw [roundDigits, roundHalfEven_eq hlt, ofRat, if_pos hsmall]
    · -- both values are half a step from the decimal, so they are the same
      have hr6 : |r * 10 ^ 6 - k| = |r - d| * 10 ^ 6 := by
        rw [hscale, abs_mul, abs_of_pos (by positivity : (0 : ℚ) < 10 ^ 6)]
      rw [hr6] at hlt
      have hhalf : |r - d| * 10 ^ 6 = 1 / 2 := by linarith
      have hhalf' : |q - d| * 10 ^ 6 = 1 / 2 := by linarith
      have hsame : r = q := by
        have habs : |r - d| = |q - d| := by linarith
        rcases abs_eq_abs.mp habs with heq | heq
        · linarith
        · refine absurd ?_ (not_millionth hq.1 (nearest_nearest d))
          have : |r - q| = 2 * |q - d| := by
            have hdiff : r - q = -(2 * (q - d)) := by linarith
            rw [hdiff, abs_neg, abs_mul, abs_of_pos (two_pos : (0 : ℚ) < 2)]
          rw [← hr, this]
          linarith
      rw [hsame] at hround ⊢
      exact hround

/-! ### The unit interval -/

theorem ulpExponent_le {q : ℚ} (h0 : 0 ≤ q) (h1 : q ≤ 1) : ulpExponent q ≤ -52 := by
  have hlog : Int.log 2 |q| ≤ 0 := by
    rw [abs_of_nonneg h0]
    rcases h0.eq_or_lt with rfl | h0
    · exact (Int.log_zero_right 2).le
    · exact (Int.log_mono_right h0 h1).trans (Int.log_one_right 2).le
  rw [ulpExponent]
  omega

/-- Rounding keeps the unit interval. -/
theorem nearest_mem_unit {q : ℚ} (h0 : 0 ≤ q) (h1 : q ≤ 1) : 0 ≤ nearest q ∧ nearest q ≤ 1 := by
  have hpos : (0 : ℚ) < 2 ^ ulpExponent q := zpow_pos two_pos _
  have hexp : ulpExponent q ≤ 0 := (ulpExponent_le h0 h1).trans (by decide)
  obtain ⟨n, hn⟩ := exists_int_zpow (neg_nonneg.mpr hexp)
  have hlow : 0 ≤ roundHalfEven (q / 2 ^ ulpExponent q) :=
    le_roundHalfEven (by rw [Int.cast_zero]; positivity)
  have hhigh : roundHalfEven (q / 2 ^ ulpExponent q) ≤ n := by
    refine roundHalfEven_le ?_
    rw [hn, div_le_iff₀ hpos, ← zpow_add₀ two_ne_zero, neg_add_cancel, zpow_zero]
    exact h1
  rw [nearest]
  refine ⟨mul_nonneg (Int.cast_nonneg hlow) hpos.le, ?_⟩
  calc _ ≤ (n : ℚ) * 2 ^ ulpExponent q := mul_le_mul_of_nonneg_right (Int.cast_le.mpr hhigh) hpos.le
    _ = 1 := by rw [hn, ← zpow_add₀ two_ne_zero, neg_add_cancel, zpow_zero]

theorem isDouble_of_mem_unit {q : ℚ} (h0 : 0 ≤ q) (h1 : q ≤ 1) (h : nearest q = q) : IsDouble q := by
  refine ⟨h, ?_⟩
  rw [abs_of_nonneg h0]
  exact lt_of_le_of_lt h1 (one_lt_pow₀ one_lt_two (by decide))

theorem ofRat_of_mem_unit {q : ℚ} (h0 : 0 ≤ q) (h1 : q ≤ 1) : ofRat q = .finite (nearest q) := by
  obtain ⟨hlow, hhigh⟩ := nearest_mem_unit h0 h1
  have hlt : |nearest q| < 2 ^ 1024 := by
    rw [abs_of_nonneg hlow]
    exact lt_of_le_of_lt hhigh (one_lt_pow₀ one_lt_two (by decide))
  rw [ofRat, if_pos hlt]

/-- In the unit interval a value moves by half of its last bit at most. -/
theorem abs_nearest_sub_le {q : ℚ} (h0 : 0 ≤ q) (h1 : q ≤ 1) : |nearest q - q| ≤ 2 ^ (-53 : ℤ) := by
  have hpos : (0 : ℚ) < 2 ^ ulpExponent q := zpow_pos two_pos _
  have hsplit : nearest q - q =
      (roundHalfEven (q / 2 ^ ulpExponent q) - q / 2 ^ ulpExponent q) * 2 ^ ulpExponent q := by
    rw [nearest, sub_mul, div_mul_cancel₀ q hpos.ne']
  rw [hsplit, abs_mul, abs_of_pos hpos]
  calc _ ≤ 1 / 2 * (2 : ℚ) ^ (-52 : ℤ) :=
        mul_le_mul (abs_roundHalfEven_sub_le _) (zpow_le_zpow_right₀ one_le_two (ulpExponent_le h0 h1))
          hpos.le (by norm_num)
    _ = 2 ^ (-53 : ℤ) := by norm_num

/-- The decimal of six digits next to a value of the unit interval. -/
theorem roundDigits_of_mem_unit {q : ℚ} (h0 : 0 ≤ q) (h1 : q ≤ 1) :
    ∃ k : ℤ, 0 ≤ k ∧ k ≤ 10 ^ 6 ∧ k = roundHalfEven (q * 10 ^ 6) ∧
      roundDigits q = .finite (nearest (k / 10 ^ 6)) := by
  have hlow : 0 ≤ roundHalfEven (q * 10 ^ 6) := le_roundHalfEven (by rw [Int.cast_zero]; positivity)
  have hhigh : roundHalfEven (q * 10 ^ 6) ≤ 10 ^ 6 := roundHalfEven_le (by push_cast; linarith)
  refine ⟨roundHalfEven (q * 10 ^ 6), hlow, hhigh, rfl, ofRat_of_mem_unit ?_ ?_⟩
  · have : (0 : ℚ) ≤ roundHalfEven (q * 10 ^ 6) := Int.cast_nonneg hlow
    positivity
  · rw [div_le_one (by positivity)]
    exact_mod_cast hhigh

/-- **Rounding to six digits is done once**: a rounded value of the unit interval stays. -/
theorem exists_roundDigits {q : ℚ} (h0 : 0 ≤ q) (h1 : q ≤ 1) :
    ∃ r, roundDigits q = .finite r ∧ 0 ≤ r ∧ r ≤ 1 ∧ nearest r = r ∧ roundDigits r = .finite r := by
  obtain ⟨k, hk0, hk1, -, hround⟩ := roundDigits_of_mem_unit h0 h1
  have hd0 : (0 : ℚ) ≤ k / 10 ^ 6 := div_nonneg (Int.cast_nonneg hk0) (by positivity)
  have hd1 : (k : ℚ) / 10 ^ 6 ≤ 1 := by
    rw [div_le_one (by positivity)]
    exact_mod_cast hk1
  obtain ⟨hr0, hr1⟩ := nearest_mem_unit hd0 hd1
  refine ⟨_, hround, hr0, hr1, nearest_nearest _, ?_⟩
  -- The error of the first rounding is too small to reach another decimal.
  have hback : roundHalfEven (nearest (k / 10 ^ 6) * 10 ^ 6) = k := by
    refine roundHalfEven_eq ?_
    have hscale : nearest (k / 10 ^ 6) * 10 ^ 6 - k = (nearest (k / 10 ^ 6) - k / 10 ^ 6) * 10 ^ 6 := by
      rw [sub_mul, div_mul_cancel₀ _ (by positivity)]
    rw [hscale, abs_mul, abs_of_pos (by positivity : (0 : ℚ) < 10 ^ 6)]
    calc _ ≤ (2 : ℚ) ^ (-53 : ℤ) * 10 ^ 6 :=
          mul_le_mul_of_nonneg_right (abs_nearest_sub_le hd0 hd1) (by positivity)
      _ < 1 / 2 := by norm_num
  rw [roundDigits, hback]
  exact ofRat_of_mem_unit hd0 hd1

/-! ## Integers -/

/-- Rounding does not cross a power of two from above. -/
theorem zpow_le_nearest {q : ℚ} {k : ℤ} (h : 2 ^ k ≤ q) (hk : -1022 ≤ k) : 2 ^ k ≤ nearest q := by
  have hpos : (0 : ℚ) < q := (zpow_pos two_pos k).trans_le h
  have hlog : k ≤ Int.log 2 |q| := by
    rw [abs_of_pos hpos]
    exact (Int.zpow_le_iff_le_log one_lt_two hpos).mp (by exact_mod_cast h)
  have hexp : ulpExponent q = Int.log 2 |q| - 52 := max_eq_left (by omega)
  -- The significand reaches its leading bit, and the integer that bit is stays below it.
  have hsig : ((2 ^ 52 : ℤ) : ℚ) ≤ q / 2 ^ ulpExponent q := by
    rw [le_div_iff₀ (zpow_pos two_pos _)]
    have hcast : ((2 ^ 52 : ℤ) : ℚ) = 2 ^ (52 : ℤ) := by norm_num
    rw [hcast, ← zpow_add₀ two_ne_zero, hexp, add_sub_cancel]
    have hle := Int.zpow_log_le_self (b := 2) one_lt_two hpos
    rw [abs_of_pos hpos]
    exact_mod_cast hle
  calc (2 : ℚ) ^ k ≤ 2 ^ (52 + ulpExponent q) := zpow_le_zpow_right₀ one_le_two (by omega)
    _ = ((2 ^ 52 : ℤ) : ℚ) * 2 ^ ulpExponent q := by
        rw [zpow_add₀ two_ne_zero]
        norm_num
    _ ≤ nearest q := mul_le_mul_of_nonneg_right (Int.cast_le.mpr (le_roundHalfEven hsig))
        (zpow_pos two_pos _).le

/-- An integer of 53 bits is a binary64 value. -/
theorem nearest_natCast {n : ℕ} (h : n < 2 ^ 53) : nearest n = n := by
  have hexp : ulpExponent n ≤ 0 := by
    rw [ulpExponent, abs_of_nonneg (Nat.cast_nonneg n)]
    refine max_le ?_ (by norm_num)
    rcases Nat.eq_zero_or_pos n with rfl | hpos
    · rw [Nat.cast_zero, Int.log_zero_right]
      norm_num
    · have hlt : (n : ℚ) < ((2 : ℕ) : ℚ) ^ (53 : ℤ) := by exact_mod_cast h
      have := (Int.lt_zpow_iff_log_lt one_lt_two (Nat.cast_pos.mpr hpos)).mp hlt
      omega
  obtain ⟨m, hm⟩ := exists_int_zpow (neg_nonneg.mpr hexp)
  refine nearest_of_integer (m := n * m) ?_
  rw [Int.cast_mul, hm, mul_assoc, ← zpow_add₀ two_ne_zero, neg_add_cancel, zpow_zero, mul_one,
    Int.cast_natCast]

end Py
