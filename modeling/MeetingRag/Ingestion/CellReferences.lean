import MeetingRag.Ingestion.Normalization
import MeetingRag.Ingestion.XmlParts
import MeetingRag.Library.Bijective
import MeetingRag.Library.Decimal

/-!
# References to the cells of a worksheet

A cell names its place by the letters of a column and the digits of a row. The extractor normalizes the
reference and makes it upper case before it reads it, so what it accepts is a matter of what comes out of
that: a capital that is made of two letters counts as two, and zeros in front of the row are digits like
any other.

The letters are a numeral of bijective numeration, so a column has one name. The row has one name too,
apart from its leading zeros.

## Main results

* `cellLocation_eq_ok`: the references that are accepted, and what they denote.
* `same_cell_iff`: when two references denote one cell.
-/

open Outcome Py

namespace MeetingRag

namespace Xlsx

/-! ## Upper case -/

/-- A small letter of ASCII becomes capital. -/
def upperAscii (c : CodePoint) : CodePoint := if 97 ≤ c.val ∧ c.val ≤ 122 then c - 32 else c

/-- `str.upper` and `str.isalpha`. A capital is not raised further. -/
structure Letters where
  upperOf : CodePoint → Str
  isAlpha : CodePoint → Bool
  upper_ascii : ∀ c, c.val < 0x80 → upperOf c = [upperAscii c]
  settled : ∀ c, ∀ d ∈ upperOf c, upperOf d = [d]
  alpha_ascii : ∀ c, c.val < 0x80 →
    (isAlpha c = true ↔ (65 ≤ c.val ∧ c.val ≤ 90) ∨ (97 ≤ c.val ∧ c.val ≤ 122))

/-- `text.upper()`. -/
def Letters.upper (L : Letters) (s : Str) : Str := s.flatMap L.upperOf

/-- Part of what has been raised is not raised further. -/
theorem Letters.upper_of_subset (L : Letters) {s t : Str} (h : t ⊆ L.upper s) : L.upper t = t := by
  have hself : ∀ d ∈ t, L.upperOf d = [d] := by
    intro d hd
    obtain ⟨c, -, hc⟩ := List.mem_flatMap.mp (h hd)
    exact L.settled c d hc
  rw [Letters.upper, List.flatMap_congr hself, List.flatMap_singleton']

/-! ## The reader -/

/-- A capital letter of ASCII, and a digit. -/
def IsCapital (c : CodePoint) : Prop := 65 ≤ c.val ∧ c.val ≤ 90

def IsDigit (c : CodePoint) : Prop := 48 ≤ c.val ∧ c.val ≤ 57

instance : DecidablePred IsCapital := fun c ↦ inferInstanceAs (Decidable (65 ≤ c.val ∧ c.val ≤ 90))

instance : DecidablePred IsDigit := fun c ↦ inferInstanceAs (Decidable (48 ≤ c.val ∧ c.val ≤ 57))

def AllCapital (s : Str) : Prop := ∀ c ∈ s, IsCapital c

def AllDigits (s : Str) : Prop := ∀ c ∈ s, IsDigit c

instance : DecidablePred AllCapital := fun s ↦ List.decidableBAll (fun c ↦ IsCapital c) s

instance : DecidablePred AllDigits := fun s ↦ List.decidableBAll (fun c ↦ IsDigit c) s

def invalidReference : ExtractionFailure :=
  ⟨"CORRUPT_DOCUMENT", "XLSX cell reference is invalid"⟩

def cellReferenceLimit : ℕ := 32

/-- The value of a letter, `ord(character) - ord("A") + 1`. -/
def letterValue (c : CodePoint) : ℕ := c.val - 65 + 1

/-- The loop over the letters, which stops where the last column is passed. -/
def columnFrom (value : ℕ) : Str → Except ExtractionFailure ℕ
  | [] => .ok value
  | c :: rest => do
    require (¬value * 26 + letterValue c > 16384) invalidReference
    columnFrom (value * 26 + letterValue c) rest

section Reader

variable (U : Nfc) (L : Letters)

/-- `_column_number`. -/
def columnNumber (label : Str) : Except ExtractionFailure ℕ := do
  require (label ≠ [] ∧ label.length ≤ cellReferenceLimit ∧ AllCapital (L.upper label))
    invalidReference
  columnFrom 0 (L.upper label)

/-- `int(digits)`, for digits of ASCII. -/
def rowNumber (digits : Str) : ℕ := digitsValue (digits.map fun c ↦ c.val - 48)

/-- `normalize_text(reference).upper()`. -/
def normalizedReference (reference : Str) : Str := L.upper (U.normalizeText reference)

/-- `_cell_location`. -/
def cellLocation (reference : Str) : Except ExtractionFailure (Str × ℕ × ℕ) := do
  let normalized := normalizedReference U L reference
  require (normalized.length ≤ cellReferenceLimit) invalidReference
  let label := normalized.takeWhile L.isAlpha
  let digits := normalized.dropWhile L.isAlpha
  require (label ≠ [] ∧ digits ≠ [] ∧ AllDigits digits) invalidReference
  require (1 ≤ rowNumber digits ∧ rowNumber digits ≤ 1048576) invalidReference
  let column ← columnNumber L label
  .ok (normalized, rowNumber digits, column)

end Reader

/-! ## The accepted references -/

/-- The number of a column. -/
def columnValue (letters : Str) : ℕ := Bijective.value 26 (letters.map letterValue)

theorem columnFrom_eq_ok {value column : ℕ} {letters : Str} (hvalue : value ≤ 16384) :
    columnFrom value letters = .ok column ↔
      column = (letters.map letterValue).foldl (fun v d ↦ v * 26 + d) value ∧ column ≤ 16384 := by
  induction letters generalizing value with
  | nil =>
    rw [columnFrom, Except.ok.injEq, List.map_nil, List.foldl_nil]
    constructor
    · rintro rfl
      exact ⟨rfl, hvalue⟩
    · rintro ⟨rfl, -⟩
      rfl
  | cons c rest ih =>
    rw [columnFrom, require_bind_eq_ok, List.map_cons, List.foldl_cons]
    constructor
    · rintro ⟨hle, h⟩
      exact (ih (by omega)).mp h
    · rintro ⟨rfl, hle⟩
      -- The number grows with every letter, so it has passed no limit before.
      have hgrows : ∀ (ds : List ℕ) (v : ℕ), v ≤ ds.foldl (fun v d ↦ v * 26 + d) v := by
        intro ds
        induction ds with
        | nil => exact fun v ↦ le_refl v
        | cons d ds ihd => exact fun v ↦ le_trans (by omega) (ihd (v * 26 + d))
      have hsmall := hgrows (rest.map letterValue) (value * 26 + letterValue c)
      exact ⟨by omega, (ih (by omega)).mpr ⟨rfl, hle⟩⟩

/-- A normalized reference: letters, digits, and the place they denote. -/
structure Reads (normalized letters digits : Str) (row column : ℕ) : Prop where
  split : normalized = letters ++ digits
  short : normalized.length ≤ cellReferenceLimit
  letters_ne_nil : letters ≠ []
  capital : AllCapital letters
  digits_ne_nil : digits ≠ []
  digit : AllDigits digits
  row_eq : row = rowNumber digits
  row_pos : 1 ≤ row
  row_le : row ≤ 1048576
  column_eq : column = columnValue letters
  column_le : column ≤ 16384

section Accepted

variable {U : Nfc} {L : Letters}

theorem isAlpha_of_isCapital {c : CodePoint} (h : IsCapital c) : L.isAlpha c = true :=
  (L.alpha_ascii c (by have := h.2; omega)).mpr (.inl h)

theorem not_isAlpha_of_isDigit {c : CodePoint} (h : IsDigit c) : L.isAlpha c = false := by
  rw [Bool.eq_false_iff]
  intro halpha
  have := (L.alpha_ascii c (by have := h.2; omega)).mp halpha
  have := h.1
  have := h.2
  omega

/-- Letters in front of digits are told apart from them. -/
theorem takeWhile_isAlpha {letters digits : Str} (hletters : AllCapital letters)
    (hdigits : AllDigits digits) :
    (letters ++ digits).takeWhile L.isAlpha = letters ∧
      (letters ++ digits).dropWhile L.isAlpha = digits := by
  have hstop : digits.takeWhile L.isAlpha = [] ∧ digits.dropWhile L.isAlpha = digits := by
    cases digits with
    | nil => exact ⟨rfl, rfl⟩
    | cons c rest =>
      have hc : L.isAlpha c = false := not_isAlpha_of_isDigit (hdigits c List.mem_cons_self)
      simp [hc]
  have hall : ∀ c ∈ letters, L.isAlpha c = true := fun c hc ↦ isAlpha_of_isCapital (hletters c hc)
  rw [List.takeWhile_append_of_pos hall, List.dropWhile_append_of_pos hall, hstop.1, hstop.2,
    List.append_nil]
  exact ⟨rfl, rfl⟩

/-- **The references that are accepted**, and what they denote. -/
theorem cellLocation_eq_ok {reference normalized : Str} {row column : ℕ} :
    cellLocation U L reference = .ok (normalized, row, column) ↔
      normalized = normalizedReference U L reference ∧
        ∃ letters digits, Reads normalized letters digits row column := by
  have hlabel : L.upper ((normalizedReference U L reference).takeWhile L.isAlpha) =
      (normalizedReference U L reference).takeWhile L.isAlpha :=
    L.upper_of_subset (List.takeWhile_subset _)
  simp only [cellLocation, columnNumber, bind_eq_ok, require_eq_ok, exists_const, Except.ok.injEq,
    Prod.mk.injEq, hlabel]
  constructor
  · rintro ⟨hshort, ⟨hletters, hdigits, hall⟩, ⟨hpos, hle⟩, column, ⟨⟨-, -, hcapital⟩, hcolumn⟩, rfl,
      rfl, rfl⟩
    obtain ⟨rfl, hcolumn⟩ := (columnFrom_eq_ok (Nat.zero_le _)).mp hcolumn
    exact ⟨rfl, _, _, ⟨List.takeWhile_append_dropWhile.symm, hshort, hletters, hcapital, hdigits, hall,
      rfl, hpos, hle, rfl, hcolumn⟩⟩
  · rintro ⟨rfl, letters, digits, h⟩
    obtain ⟨htake, hdrop⟩ := @takeWhile_isAlpha L _ _ h.capital h.digit
    rw [← h.split] at htake hdrop
    rw [htake, hdrop]
    have hlength : letters.length ≤ cellReferenceLimit := by
      have := h.short
      rw [h.split, List.length_append] at this
      omega
    obtain rfl := h.row_eq
    exact ⟨h.short, ⟨h.letters_ne_nil, h.digits_ne_nil, h.digit⟩, ⟨h.row_pos, h.row_le⟩, column,
      ⟨⟨h.letters_ne_nil, hlength, h.capital⟩,
        (columnFrom_eq_ok (Nat.zero_le _)).mpr ⟨h.column_eq, h.column_le⟩⟩, rfl, rfl, rfl⟩

/-! ### One cell, many references -/

/-- The digits of a number are those that spell it, without the zeros in front. -/
theorem digits_digitsValue {ds : List ℕ} (hds : ∀ d ∈ ds, d < 10) :
    Nat.digits 10 (digitsValue ds) = (ds.dropWhile (· = 0)).reverse := by
  induction ds with
  | nil => rfl
  | cons d ds ih =>
    by_cases hd : d = 0
    · subst hd
      have hzero : digitsValue (0 :: ds) = digitsValue ds := by
        rw [← List.singleton_append, digitsValue_append]
        simp [digitsValue]
      rw [hzero, ih fun x hx ↦ hds x (List.mem_cons_of_mem _ hx), List.dropWhile_cons_of_pos (by simp)]
    · rw [List.dropWhile_cons_of_neg (by simpa using hd), digitsValue]
      refine Nat.digits_ofDigits 10 (by decide) _ (fun x hx ↦ hds x (List.mem_reverse.mp hx)) ?_
      intro hne
      rw [List.getLast_reverse]
      exact hd

/-- A digit is determined by its value, and so is a letter. -/
theorem digit_inj {c d : CodePoint} (hc : IsDigit c) (hd : IsDigit d) (h : c.val - 48 = d.val - 48) :
    c = d := by
  have := hc.1
  have := hd.1
  exact Fin.ext (by omega)

theorem letter_inj {c d : CodePoint} (hc : IsCapital c) (hd : IsCapital d)
    (h : letterValue c = letterValue d) : c = d := by
  have := hc.1
  have := hd.1
  rw [letterValue, letterValue] at h
  exact Fin.ext (by omega)

/-- Texts are determined by the values of their characters. -/
theorem eq_of_map_eq {P : CodePoint → Prop} {f : CodePoint → ℕ}
    (hf : ∀ {c d}, P c → P d → f c = f d → c = d) {s t : Str} (hs : ∀ c ∈ s, P c)
    (ht : ∀ c ∈ t, P c) (h : s.map f = t.map f) : s = t := by
  induction s generalizing t with
  | nil => exact (List.map_eq_nil_iff.mp h.symm).symm
  | cons c s ih =>
    cases t with
    | nil => exact nomatch h
    | cons d t =>
      obtain ⟨hhead, htail⟩ := List.cons.inj h
      rw [hf (hs c List.mem_cons_self) (ht d List.mem_cons_self) hhead,
        ih (fun x hx ↦ hs x (List.mem_cons_of_mem _ hx)) (fun x hx ↦ ht x (List.mem_cons_of_mem _ hx))
          htail]

/-- The digits of a row without the zeros in front. -/
def withoutZeros (digits : Str) : Str := digits.dropWhile (· = codePoint '0')

theorem dropWhile_map_digit {digits : Str} (hdigits : AllDigits digits) :
    (digits.map fun c ↦ c.val - 48).dropWhile (· = 0) =
      (withoutZeros digits).map fun c ↦ c.val - 48 := by
  induction digits with
  | nil => rfl
  | cons c rest ih =>
    have hval : (codePoint '0').val = 48 := rfl
    have hzero : c.val - 48 = 0 ↔ c = codePoint '0' := by
      have := (hdigits c List.mem_cons_self).1
      rw [Fin.ext_iff, hval]
      omega
    by_cases hc : c = codePoint '0'
    · rw [withoutZeros, List.map_cons, List.dropWhile_cons_of_pos (by simpa using hzero.mpr hc),
        List.dropWhile_cons_of_pos (by simpa using hc)]
      exact ih fun x hx ↦ hdigits x (List.mem_cons_of_mem _ hx)
    · rw [withoutZeros, List.map_cons, List.dropWhile_cons_of_neg (by simp [hzero, hc]),
        List.dropWhile_cons_of_neg (by simp [hc]), List.map_cons]

/-- Two lists of digits spell one row if they differ in the zeros in front. -/
theorem rowNumber_eq_iff {digits digits' : Str} (hdigits : AllDigits digits)
    (hdigits' : AllDigits digits') :
    rowNumber digits = rowNumber digits' ↔ withoutZeros digits = withoutZeros digits' := by
  have hspelled : ∀ ds : Str, AllDigits ds → Nat.digits 10 (rowNumber ds) =
      ((withoutZeros ds).map fun c ↦ c.val - 48).reverse := by
    intro ds hds
    have hsmall : ∀ d ∈ ds.map (fun c : CodePoint ↦ c.val - 48), d < 10 := by
      intro d hd
      obtain ⟨c, hc, rfl⟩ := List.mem_map.mp hd
      have := (hds c hc).2
      omega
    rw [rowNumber, digits_digitsValue hsmall, dropWhile_map_digit hds]
  have hkept : ∀ {ds : Str}, AllDigits ds → AllDigits (withoutZeros ds) :=
    fun hds c hc ↦ hds c (List.dropWhile_subset _ hc)
  constructor
  · intro h
    have hmaps := congrArg (Nat.digits 10) h
    rw [hspelled digits hdigits, hspelled digits' hdigits', List.reverse_inj] at hmaps
    exact eq_of_map_eq digit_inj (hkept hdigits) (hkept hdigits') hmaps
  · intro h
    have hmaps : Nat.digits 10 (rowNumber digits) = Nat.digits 10 (rowNumber digits') := by
      rw [hspelled digits hdigits, hspelled digits' hdigits', h]
    exact Nat.digits_inj_iff.mp hmaps

/-- A column has one name. -/
theorem columnValue_injective {letters letters' : Str} (hletters : AllCapital letters)
    (hletters' : AllCapital letters') (h : columnValue letters = columnValue letters') :
    letters = letters' := by
  have hnumeral : ∀ {ls : Str}, AllCapital ls →
      Bijective.IsNumeral 26 (ls.map letterValue) := by
    intro ls hls d hd
    obtain ⟨c, hc, rfl⟩ := List.mem_map.mp hd
    have hleast := (hls c hc).1
    have hgreatest := (hls c hc).2
    rw [letterValue]
    exact ⟨by omega, by omega⟩
  exact eq_of_map_eq letter_inj hletters hletters'
    (Bijective.value_injective (hnumeral hletters) (hnumeral hletters') h)

/-- **References to one cell** have the same letters, and the same digits but for leading zeros. -/
theorem same_cell_iff {normalized normalized' letters letters' digits digits' : Str}
    {row row' column column' : ℕ} (h : Reads normalized letters digits row column)
    (h' : Reads normalized' letters' digits' row' column') :
    (row = row' ∧ column = column') ↔
      letters = letters' ∧ withoutZeros digits = withoutZeros digits' := by
  rw [h.row_eq, h'.row_eq, h.column_eq, h'.column_eq, rowNumber_eq_iff h.digit h'.digit]
  constructor
  · rintro ⟨hdigits, hcolumn⟩
    exact ⟨columnValue_injective h.capital h'.capital hcolumn, hdigits⟩
  · rintro ⟨rfl, hdigits⟩
    exact ⟨hdigits, rfl⟩

end Accepted

/-! ## What the reader does -/

/-- **The reader of references** accepts what reads as letters and digits once it is normalized and in
upper case, and denotes the place that these spell. Two references denote one cell if they differ in no
more than zeros in front of the row. -/
theorem cellLocation_spec (U : Nfc) (L : Letters) :
    (∀ reference normalized row column,
      cellLocation U L reference = .ok (normalized, row, column) ↔
        normalized = normalizedReference U L reference ∧
          ∃ letters digits, Reads normalized letters digits row column) ∧
    ∀ reference reference' normalized normalized' row row' column column',
      cellLocation U L reference = .ok (normalized, row, column) →
        cellLocation U L reference' = .ok (normalized', row', column') →
          ∃ letters letters' digits digits', Reads normalized letters digits row column ∧
            Reads normalized' letters' digits' row' column' ∧
            ((row = row' ∧ column = column') ↔
              letters = letters' ∧ withoutZeros digits = withoutZeros digits') := by
  refine ⟨fun reference normalized row column ↦ cellLocation_eq_ok, ?_⟩
  intro reference reference' normalized normalized' row row' column column' h h'
  obtain ⟨-, letters, digits, hreads⟩ := cellLocation_eq_ok.mp h
  obtain ⟨-, letters', digits', hreads'⟩ := cellLocation_eq_ok.mp h'
  exact ⟨letters, letters', digits, digits', hreads, hreads', same_cell_iff hreads hreads'⟩

theorem upperAscii_upperAscii (c : CodePoint) : upperAscii (upperAscii c) = upperAscii c := by
  by_cases h : 97 ≤ c.val ∧ c.val ≤ 122
  · have hle : (32 : CodePoint) ≤ c := by
      have hval : (32 : CodePoint).val = 32 := rfl
      rw [Fin.le_def, hval]
      omega
    have hsub : (c - 32).val = c.val - 32 := Fin.sub_val_of_le hle
    have hraised : upperAscii c = c - 32 := if_pos h
    rw [hraised]
    exact if_neg (by omega)
  · have hkept : upperAscii c = c := if_neg h
    rw [hkept, hkept]

/-- The letters of ASCII, where no other code point is one. -/
def asciiLetters : Letters where
  upperOf c := [upperAscii c]
  isAlpha c := decide ((65 ≤ c.val ∧ c.val ≤ 90) ∨ (97 ≤ c.val ∧ c.val ≤ 122))
  upper_ascii _ _ := rfl
  settled c := List.forall_mem_singleton.mpr (by rw [upperAscii_upperAscii])
  alpha_ascii _ _ := decide_eq_true_iff

/-- A reference as the format has it: letters of either case, and a row without leading zeros. -/
def IsReference (reference : Str) : Prop :=
  ∃ letters digits row column, reference.map upperAscii = letters ++ digits ∧
    Reads (letters ++ digits) letters digits row column ∧ digits.head? ≠ some (codePoint '0')

/-- A zero in front of the row is let through, and gives the cell a second name. -/
theorem leading_zero_accepted :
    cellLocation Nfc.ascii asciiLetters (lit "A01") = .ok (lit "A01", 1, 1) ∧
    cellLocation Nfc.ascii asciiLetters (lit "A1") = .ok (lit "A1", 1, 1) ∧
    ¬∀ (U : Nfc) (L : Letters) (reference : Str),
      (∃ location, cellLocation U L reference = .ok location) ↔ IsReference reference := by
  have haccepted : cellLocation Nfc.ascii asciiLetters (lit "A01") = .ok (lit "A01", 1, 1) := by
    decide +kernel
  refine ⟨haccepted, by decide +kernel, fun h ↦ ?_⟩
  obtain ⟨letters, digits, row, column, hsplit, hreads, hhead⟩ :=
    (h Nfc.ascii asciiLetters (lit "A01")).mp ⟨_, haccepted⟩
  -- The digits start where the letters end, which is at the zero.
  have hdigits := (@takeWhile_isAlpha asciiLetters _ _ hreads.capital hreads.digit).2
  rw [← hsplit] at hdigits
  have hzero : ((lit "A01").map upperAscii).dropWhile asciiLetters.isAlpha = lit "01" := by
    decide +kernel
  rw [hzero] at hdigits
  exact hhead (hdigits ▸ rfl)

end Xlsx

end MeetingRag
