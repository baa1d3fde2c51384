import MeetingRag.Library.JsonRoundTrip

/-!
# Dates and times with an offset

A date and time of day that knows its distance from UTC. Two of them are compared by the instant they
denote, and a text of one keeps every field: the microseconds are left out only when they are zero, and
so are the seconds of the offset.

The reader of ISO 8601 is modelled on the texts that the writer produces. What it makes of the other
spellings it knows is a parameter.
-/

namespace Py

/-- `year % 4 == 0 and (year % 100 != 0 or year % 400 == 0)` -/
def isLeap (year : ℕ) : Bool := year % 4 = 0 && (year % 100 ≠ 0 || year % 400 = 0)

def daysInMonth (year month : ℕ) : ℕ :=
  if month = 2 then if isLeap year then 29 else 28
  else if month = 4 ∨ month = 6 ∨ month = 9 ∨ month = 11 then 30 else 31

/-- Microseconds. -/
def usPerSecond : ℕ := 1000000

def usPerDay : ℕ := 86400 * usPerSecond

/-- An aware `datetime` with a fixed offset, in microseconds. -/
structure Datetime where
  year : ℕ
  month : ℕ
  day : ℕ
  hour : ℕ
  minute : ℕ
  second : ℕ
  microsecond : ℕ
  offset : ℤ
  date : 1 ≤ year ∧ year ≤ 9999 ∧ 1 ≤ month ∧ month ≤ 12 ∧ 1 ≤ day ∧ day ≤ daysInMonth year month
  time : hour < 24 ∧ minute < 60 ∧ second < 60 ∧ microsecond < usPerSecond
  zone : offset.natAbs < usPerDay
deriving DecidableEq

namespace Datetime

/-- `toordinal` -/
def ordinal (d : Datetime) : ℕ :=
  let y := d.year - 1
  y * 365 + y / 4 - y / 100 + y / 400 +
    ((List.range (d.month - 1)).map fun m ↦ daysInMonth d.year (m + 1)).sum + d.day

/-- The microseconds since the start of 1970. -/
def instant (d : Datetime) : ℤ :=
  ((d.ordinal : ℤ) - 719163) * usPerDay +
    ((d.hour * 3600 + d.minute * 60 + d.second) * usPerSecond + d.microsecond : ℕ) - d.offset

/-! ## Text -/

/-- `f"{n:0{k}d}"` for a number of at most `k` digits. -/
def padded : ℕ → ℕ → Str
  | 0, _ => []
  | k + 1, n => digitChar (n / 10 ^ k % 10) :: padded k n

/-- The fraction of a second, where there is one. -/
def fractionText (microsecond : ℕ) : Str :=
  if microsecond = 0 then [] else 46 :: padded 6 microsecond

/-- The seconds of an offset of `n` microseconds, where it has some. -/
def secondsText (n : ℕ) : Str :=
  if n % (60 * usPerSecond) = 0 then []
  else 58 :: padded 2 (n / usPerSecond % 60) ++ fractionText (n % usPerSecond)

/-- `_format_offset` -/
def offsetText (offset : ℤ) : Str :=
  let n := offset.natAbs
  (if offset < 0 then 45 else 43) :: padded 2 (n / (3600 * usPerSecond)) ++
    58 :: padded 2 (n / (60 * usPerSecond) % 60) ++ secondsText n

/-- `isoformat` -/
def isoformat (d : Datetime) : Str :=
  padded 4 d.year ++ 45 :: padded 2 d.month ++ 45 :: padded 2 d.day ++ 84 :: padded 2 d.hour ++
    58 :: padded 2 d.minute ++ 58 :: padded 2 d.second ++ fractionText d.microsecond ++
      offsetText d.offset

/-- A number of `k` digits, after the digits of `n`. -/
def readDigits : ℕ → ℕ → Str → Option (ℕ × Str)
  | 0, n, s => some (n, s)
  | _ + 1, _, [] => none
  | k + 1, n, c :: s => do
    let d ← digit? c
    readDigits k (n * 10 + d) s

def readChar (c : CodePoint) : Str → Option Str
  | [] => none
  | d :: s => if d = c then some s else none

def readFraction (s : Str) : Option (ℕ × Str) :=
  match readChar 46 s with
  | some s => readDigits 6 0 s
  | none => some (0, s)

/-- The seconds of an offset, where they are written. -/
def readSeconds (s : Str) : Option (ℕ × ℕ × Str) :=
  match readChar 58 s with
  | none => some (0, 0, s)
  | some s => do
    let (second, s) ← readDigits 2 0 s
    let (microsecond, s) ← readFraction s
    some (second, microsecond, s)

def readOffset (s : Str) : Option ℤ := do
  let sign : ℤ := if s.head? = some 45 then -1 else 1
  let s ← if sign = -1 then readChar 45 s else readChar 43 s
  let (hour, s) ← readDigits 2 0 s
  let s ← readChar 58 s
  let (minute, s) ← readDigits 2 0 s
  let (second, microsecond, s) ← readSeconds s
  if s = [] then
    some (sign * ((hour * 3600 + minute * 60 + second) * usPerSecond + microsecond : ℕ))
  else none

/-- The date and time of valid fields. -/
def of? (year month day hour minute second microsecond : ℕ) (offset : ℤ) : Option Datetime :=
  if hdate : _ then if htime : _ then if hzone : _ then
    some ⟨year, month, day, hour, minute, second, microsecond, offset, hdate, htime, hzone⟩
  else none else none else none

def readExtended (s : Str) : Option Datetime := do
  let (year, s) ← readDigits 4 0 s
  let s ← readChar 45 s
  let (month, s) ← readDigits 2 0 s
  let s ← readChar 45 s
  let (day, s) ← readDigits 2 0 s
  let s ← readChar 84 s
  let (hour, s) ← readDigits 2 0 s
  let s ← readChar 58 s
  let (minute, s) ← readDigits 2 0 s
  let s ← readChar 58 s
  let (second, s) ← readDigits 2 0 s
  let (microsecond, s) ← readFraction s
  let offset ← readOffset s
  of? year month day hour minute second microsecond offset

/-- `datetime.fromisoformat`, given the aware dates and times that it reads from other spellings. -/
def fromisoformat (other : Str → Option Datetime) (s : Str) : Option Datetime :=
  (readExtended s).or (other s)

/-! ## What is written is read back -/

theorem readDigits_padded (k n m : ℕ) (rest : Str) :
    readDigits k n (padded k m ++ rest) = some (n * 10 ^ k + m % 10 ^ k, rest) := by
  induction k generalizing n with
  | zero => rw [pow_zero, Nat.mod_one, mul_one]; rfl
  | succ k ih =>
    have hlt : m / 10 ^ k % 10 < 10 := Nat.mod_lt _ (by decide)
    rw [padded, List.cons_append, readDigits, digit?_digitChar hlt]
    change readDigits k (n * 10 + m / 10 ^ k % 10) (padded k m ++ rest) = _
    rw [ih, pow_succ, Nat.mod_mul]
    congr 2
    ring

theorem readDigits_padded_of_lt {k m : ℕ} (h : m < 10 ^ k) (rest : Str) :
    readDigits k 0 (padded k m ++ rest) = some (m, rest) := by
  rw [readDigits_padded, zero_mul, zero_add, Nat.mod_eq_of_lt h]

theorem readChar_cons (c : CodePoint) (rest : Str) : readChar c (c :: rest) = some rest := if_pos rfl

/-- A text does not go on with a given character. -/
theorem readChar_of_head? {c : CodePoint} {s : Str} (h : s.head? ≠ some c) : readChar c s = none := by
  cases s with
  | nil => rfl
  | cons d s => exact if_neg fun hd ↦ h (congrArg some hd)

theorem readFraction_fractionText {us : ℕ} (h : us < usPerSecond) {rest : Str}
    (hrest : rest.head? ≠ some 46) : readFraction (fractionText us ++ rest) = some (us, rest) := by
  rw [fractionText]
  split
  · next hzero => rw [List.nil_append, readFraction, readChar_of_head? hrest, hzero]
  · rw [List.cons_append, readFraction, readChar_cons]
    exact readDigits_padded_of_lt h rest

/-- The offset of `n` microseconds is its hours, minutes, seconds and microseconds. -/
theorem offset_parts (n : ℕ) :
    (n / (3600 * usPerSecond) * 3600 + n / (60 * usPerSecond) % 60 * 60 + n / usPerSecond % 60) *
      usPerSecond + n % usPerSecond = n := by
  rw [usPerSecond]
  omega

theorem readSeconds_secondsText (n : ℕ) :
    readSeconds (secondsText n) = some (n / usPerSecond % 60, n % usPerSecond, []) := by
  rw [secondsText]
  split
  · next hzero =>
    have hparts : n / usPerSecond % 60 = 0 ∧ n % usPerSecond = 0 := by
      rw [usPerSecond] at hzero ⊢
      omega
    rw [hparts.1, hparts.2]
    rfl
  · have hsecond : n / usPerSecond % 60 < 10 ^ 2 := (Nat.mod_lt _ (by decide)).trans (by decide)
    have hus : n % usPerSecond < usPerSecond := Nat.mod_lt _ (by decide)
    have hfraction : readFraction (fractionText (n % usPerSecond) ++ []) = some (n % usPerSecond, []) :=
      readFraction_fractionText hus fun h ↦ nomatch h
    rw [List.append_nil] at hfraction
    rw [readSeconds, List.cons_append, readChar_cons]
    simp only [readDigits_padded_of_lt hsecond, hfraction, Option.bind_eq_bind, Option.bind_some]

theorem readOffset_offsetText {offset : ℤ} (h : offset.natAbs < usPerDay) :
    readOffset (offsetText offset) = some offset := by
  have hhour : offset.natAbs / (3600 * usPerSecond) < 10 ^ 2 := by
    rw [usPerDay, usPerSecond] at h
    rw [usPerSecond]
    omega
  have hminute : offset.natAbs / (60 * usPerSecond) % 60 < 10 ^ 2 :=
    (Nat.mod_lt _ (by decide)).trans (by decide)
  have hparts := offset_parts offset.natAbs
  by_cases hneg : offset < 0
  · have hsign : (-1 : ℤ) * offset.natAbs = offset := by omega
    simp only [readOffset, offsetText, if_pos hneg, List.cons_append, List.append_assoc, List.head?_cons,
      if_true, readChar_cons, readDigits_padded_of_lt hhour, readDigits_padded_of_lt hminute,
      readSeconds_secondsText, Option.bind_eq_bind, Option.bind_some, hparts, hsign]
  · have hsign : (1 : ℤ) * offset.natAbs = offset := by omega
    have hplus : ¬some (43 : CodePoint) = some 45 := by decide
    have hone : ¬(1 : ℤ) = -1 := by decide
    simp only [readOffset, offsetText, if_neg hneg, List.cons_append, List.append_assoc, List.head?_cons,
      if_neg hplus, if_neg hone, if_true, readChar_cons, readDigits_padded_of_lt hhour,
      readDigits_padded_of_lt hminute, readSeconds_secondsText, Option.bind_eq_bind, Option.bind_some, hparts,
      hsign]

theorem of?_self (d : Datetime) :
    of? d.year d.month d.day d.hour d.minute d.second d.microsecond d.offset = some d := by
  rw [of?, dif_pos d.date, dif_pos d.time, dif_pos d.zone]

theorem daysInMonth_le (year month : ℕ) : daysInMonth year month ≤ 31 := by
  rw [daysInMonth]
  split_ifs <;> decide

theorem head?_offsetText (offset : ℤ) : (offsetText offset).head? ≠ some 46 := by
  by_cases h : offset < 0
  · simp [offsetText, if_pos h]
  · simp [offsetText, if_neg h]

/-- **What `isoformat` writes, `fromisoformat` reads.** -/
theorem fromisoformat_isoformat (other : Str → Option Datetime) (d : Datetime) :
    fromisoformat other d.isoformat = some d := by
  have hyear : d.year < 10 ^ 4 := d.date.2.1.trans_lt (by decide)
  have hmonth : d.month < 10 ^ 2 := d.date.2.2.2.1.trans_lt (by decide)
  have hday : d.day < 10 ^ 2 := (d.date.2.2.2.2.2.trans (daysInMonth_le _ _)).trans_lt (by decide)
  have hhour : d.hour < 10 ^ 2 := d.time.1.trans (by decide)
  have hminute : d.minute < 10 ^ 2 := d.time.2.1.trans (by decide)
  have hsecond : d.second < 10 ^ 2 := d.time.2.2.1.trans (by decide)
  have hread : readExtended d.isoformat = some d := by
    simp only [readExtended, isoformat, List.cons_append, List.append_assoc, readChar_cons,
      readDigits_padded_of_lt hyear, readDigits_padded_of_lt hmonth, readDigits_padded_of_lt hday,
      readDigits_padded_of_lt hhour, readDigits_padded_of_lt hminute, readDigits_padded_of_lt hsecond,
      readFraction_fractionText d.time.2.2.2 (head?_offsetText d.offset), readOffset_offsetText d.zone,
      of?_self, Option.bind_eq_bind, Option.bind_some]
  rw [fromisoformat, hread, Option.some_or]

/-! ## The characters of a time -/

theorem padded_ascii (k n : ℕ) : ∀ c ∈ padded k n, c.val < 0x80 := by
  induction k with
  | zero => exact List.forall_mem_nil _
  | succ k ih =>
    have hdigit : ∀ d < 10, (digitChar d).val < 0x80 := by decide
    exact List.forall_mem_cons.mpr ⟨hdigit _ (Nat.mod_lt _ (by decide)), ih⟩

theorem fractionText_ascii (us : ℕ) : ∀ c ∈ fractionText us, c.val < 0x80 := by
  rw [fractionText]
  split
  · exact List.forall_mem_nil _
  · exact List.forall_mem_cons.mpr ⟨by decide, padded_ascii 6 us⟩

theorem offsetText_ascii (offset : ℤ) : ∀ c ∈ offsetText offset, c.val < 0x80 := by
  have hseconds : ∀ n, ∀ c ∈ secondsText n, c.val < 0x80 := by
    intro n
    rw [secondsText]
    split
    · exact List.forall_mem_nil _
    · exact List.forall_mem_append.mpr
        ⟨List.forall_mem_cons.mpr ⟨by decide, padded_ascii _ _⟩, fractionText_ascii _⟩
  have hsign : (if offset < 0 then 45 else 43 : CodePoint).val < 0x80 := by
    split <;> decide
  refine List.forall_mem_append.mpr ⟨List.forall_mem_append.mpr
    ⟨List.forall_mem_cons.mpr ⟨hsign, padded_ascii _ _⟩, ?_⟩, hseconds _⟩
  exact List.forall_mem_cons.mpr ⟨by decide, padded_ascii _ _⟩

theorem isoformat_ascii (d : Datetime) : ∀ c ∈ d.isoformat, c.val < 0x80 := by
  simp only [isoformat, List.append_assoc, List.cons_append, List.forall_mem_append,
    List.forall_mem_cons]
  exact ⟨padded_ascii _ _, by decide, padded_ascii _ _, by decide, padded_ascii _ _, by decide,
    padded_ascii _ _, by decide, padded_ascii _ _, by decide, padded_ascii _ _, fractionText_ascii _,
    offsetText_ascii _⟩

end Datetime

end Py
