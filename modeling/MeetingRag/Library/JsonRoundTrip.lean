import Mathlib.Data.Nat.Digits.Lemmas
import MeetingRag.Library.JsonOrder

/-!
# Reading what was written

`loads` reads what `dumps` wrote, with the fields of every object in the order of their keys
(`loads_dumps`). The text is cut into the tokens that were written, since a numeral is only ever
followed by a comma or a closing bracket; and the reader takes the tokens of a value to that value on
any stack that leaves room for its depth.
-/

open Outcome

namespace Py

/-! ## Numerals -/

/-- A numeral as JSON has it: digits before the point without a superfluous zero, and an exponent with
digits. -/
structure Numeral.Valid (x : Numeral) : Prop where
  whole : x.whole ≠ []
  zero : x.whole.head? = some 0 → x.whole = [0]
  wholeDigits : ∀ d ∈ x.whole, d < 10
  fractionDigits : ∀ d ∈ x.fraction, d < 10
  exponent : ∀ negative ds, x.exponent = some (negative, ds) → ds ≠ [] ∧ ∀ d ∈ ds, d < 10

theorem decimalDigits_lt {n d : ℕ} (h : d ∈ decimalDigits n) : d < 10 := by
  rw [decimalDigits] at h
  split at h
  · rw [List.mem_singleton.mp h]
    decide
  · exact Nat.digits_lt_base (by decide) (List.mem_reverse.mp h)

theorem decimalDigits_ne_nil (n : ℕ) : decimalDigits n ≠ [] := by
  rw [decimalDigits]
  split
  · exact List.cons_ne_nil _ _
  · next h => exact List.reverse_ne_nil_iff.mpr (Nat.digits_ne_nil_iff_ne_zero.mpr h)

/-- The first digit of a positive number is not zero. -/
theorem head?_digits_reverse {n : ℕ} : (Nat.digits 10 n).reverse.head? ≠ some 0 := by
  rw [List.head?_reverse]
  by_cases hn : n = 0
  · rw [hn, Nat.digits_zero]
    exact fun h ↦ nomatch h
  · rw [List.getLast?_eq_some_getLast (Nat.digits_ne_nil_iff_ne_zero.mpr hn)]
    exact fun h ↦ Nat.getLast_digit_ne_zero 10 hn (Option.some.inj h)

theorem valid_decimalDigits (negative : Bool) (n : ℕ) :
    Numeral.Valid ⟨negative, decimalDigits n, [], none⟩ where
  whole := decimalDigits_ne_nil n
  zero h := by
    dsimp only at h ⊢
    by_cases hn : n = 0
    · rw [hn]
      rfl
    · rw [decimalDigits, if_neg hn] at h
      exact absurd h head?_digits_reverse
  wholeDigits _ h := decimalDigits_lt h
  fractionDigits := List.forall_mem_nil _
  exponent _ _ h := nomatch h

theorem exponentDigits_valid (n : ℕ) : exponentDigits n ≠ [] ∧ ∀ d ∈ exponentDigits n, d < 10 := by
  rw [exponentDigits]
  split
  · exact ⟨List.cons_ne_nil _ _, List.forall_mem_cons.mpr ⟨by decide, fun _ ↦ decimalDigits_lt⟩⟩
  · exact ⟨decimalDigits_ne_nil n, fun _ ↦ decimalDigits_lt⟩

theorem valid_layout {ds : List ℕ} (hne : ds ≠ []) (hdigits : ∀ d ∈ ds, d < 10)
    (hhead : ds.head? ≠ some 0) (negative : Bool) (e : ℤ) : (layout negative ds e).Valid := by
  have htake : ∀ k, 0 < k → (ds.take k).head? = ds.head? := by
    intro k hk
    rw [List.head?_take, if_neg hk.ne']
  have hzeros : ∀ k, ∀ d ∈ List.replicate k 0, d < 10 := by
    intro k d hd
    rw [List.eq_of_mem_replicate hd]
    decide
  have hpos : 0 < ds.length := List.length_pos_of_ne_nil hne
  rw [layout]
  split
  · exact ⟨List.cons_ne_nil _ _, fun _ ↦ rfl, List.forall_mem_singleton.mpr (by decide),
      List.forall_mem_append.mpr ⟨hzeros _, hdigits⟩, by rintro _ _ ⟨⟩⟩
  split
  · next hpoint =>
    have hk : 0 < (ds.length + e : ℤ).toNat := by omega
    refine ⟨?_, fun h ↦ ?_, fun d hd ↦ hdigits d (List.mem_of_mem_take hd),
      fun d hd ↦ hdigits d (List.mem_of_mem_drop hd), by rintro _ _ ⟨⟩⟩
    · exact List.ne_nil_of_length_pos (by rw [List.length_take]; omega)
    · rw [htake _ hk] at h
      exact absurd h hhead
  split
  · refine ⟨List.append_ne_nil_of_left_ne_nil hne _, fun h ↦ ?_,
      List.forall_mem_append.mpr ⟨hdigits, hzeros _⟩, List.forall_mem_singleton.mpr (by decide),
      (by rintro _ _ ⟨⟩)⟩
    rw [List.head?_append_of_ne_nil _ hne] at h
    exact absurd h hhead
  · refine ⟨?_, fun h ↦ ?_, fun d hd ↦ hdigits d (List.mem_of_mem_take hd),
      fun d hd ↦ hdigits d (List.mem_of_mem_drop hd), fun _ _ h ↦ ?_⟩
    · exact List.ne_nil_of_length_pos (by rw [List.length_take]; omega)
    · rw [htake 1 (by decide)] at h
      exact absurd h hhead
    · obtain ⟨-, rfl⟩ := Prod.mk.inj (Option.some.inj h)
      exact exponentDigits_valid _

/-- The zeros at the end of a positive number are not all its digits. -/
theorem length_zeros_lt (c : ℕ) :
    ((Nat.digits 10 (c + 1)).takeWhile (· = 0)).length < (Nat.digits 10 (c + 1)).length := by
  by_contra hge
  have hall : (Nat.digits 10 (c + 1)).takeWhile (· = 0) = Nat.digits 10 (c + 1) :=
    (List.takeWhile_prefix _).eq_of_length_le (not_lt.mp hge)
  have hne : Nat.digits 10 (c + 1) ≠ [] := Nat.digits_ne_nil_iff_ne_zero.mpr (Nat.succ_ne_zero c)
  have hlast : (Nat.digits 10 (c + 1)).getLast hne ∈ (Nat.digits 10 (c + 1)).takeWhile (· = 0) := by
    rw [hall]
    exact List.getLast_mem hne
  have hzero := List.mem_takeWhile_imp hlast
  exact Nat.getLast_digit_ne_zero 10 (Nat.succ_ne_zero c) (of_decide_eq_true hzero)

theorem strippedDigits_ne_nil (c : ℕ) :
    ((Nat.digits 10 (c + 1)).drop ((Nat.digits 10 (c + 1)).takeWhile (· = 0)).length).reverse ≠ [] := by
  refine List.reverse_ne_nil_iff.mpr (List.ne_nil_of_length_pos ?_)
  have := length_zeros_lt c
  rw [List.length_drop]
  omega

/-- `repr` writes JSON numerals. -/
theorem valid_floatRepr (q : ℚ) : (floatRepr q).Valid := by
  unfold floatRepr
  split
  · exact ⟨List.cons_ne_nil _ _, fun _ ↦ rfl, by decide, by decide, fun _ _ h ↦ nomatch h⟩
  · exact ⟨List.cons_ne_nil _ _, fun _ ↦ rfl, by decide, by decide, fun _ _ h ↦ nomatch h⟩
  · next c e _ =>
    -- The zeros go from the end of the digits, so the first digit is still not zero.
    rw [stripped]
    refine valid_layout (strippedDigits_ne_nil c) (fun d hd ↦ ?_) ?_ _ _
    · exact Nat.digits_lt_base (by decide) (List.mem_of_mem_drop (List.mem_reverse.mp hd))
    · rw [List.head?_reverse, List.getLast?_drop, if_neg (not_le.mpr (length_zeros_lt c)),
        ← List.head?_reverse]
      exact head?_digits_reverse

/-- `repr` writes a point or an exponent. -/
theorem layout_isFloat {ds : List ℕ} (hne : ds ≠ []) (negative : Bool) (e : ℤ) :
    (layout negative ds e).fraction ≠ [] ∨ (layout negative ds e).exponent.isSome = true := by
  rw [layout]
  split
  · exact Or.inl (List.append_ne_nil_of_right_ne_nil _ hne)
  split
  · next hpoint =>
    refine Or.inl (List.ne_nil_of_length_pos ?_)
    rw [List.length_drop]
    omega
  split
  · exact Or.inl (List.cons_ne_nil _ _)
  · exact Or.inr rfl

theorem floatRepr_isFloat (q : ℚ) : (floatRepr q).fraction ≠ [] ∨ (floatRepr q).exponent.isSome = true := by
  unfold floatRepr
  split
  · exact Or.inl (List.cons_ne_nil _ _)
  · exact Or.inl (List.cons_ne_nil _ _)
  · next c e _ => exact layout_isFloat (strippedDigits_ne_nil c) _ _

/-! ### Reading a numeral -/

theorem digit?_digitChar {d : ℕ} (h : d < 10) : digit? (digitChar d) = some d := by
  interval_cases d <;> rfl

theorem digitChar_ne {d : ℕ} (h : d < 10) {c : CodePoint} (hc : digit? c = none) : digitChar d ≠ c := by
  rintro rfl
  exact nomatch (digit?_digitChar h).symm.trans hc

/-- What may follow a numeral that was written: a comma, a closing bracket, or nothing. -/
def Stops (rest : Str) : Prop := ∀ c, rest.head? = some c → c = 44 ∨ c = 93 ∨ c = 125

theorem stops_nil : Stops [] := fun _ h ↦ nomatch h

theorem stops_cons {c : CodePoint} {rest : Str} : Stops (c :: rest) ↔ c = 44 ∨ c = 93 ∨ c = 125 :=
  ⟨fun h ↦ h c rfl, fun h _ heq ↦ Option.some.inj heq ▸ h⟩

theorem spanDigits_append {ds : List ℕ} (hdigits : ∀ d ∈ ds, d < 10) {rest : Str}
    (hrest : ∀ c, rest.head? = some c → digit? c = none) :
    spanDigits (ds.map digitChar ++ rest) = ds := by
  induction ds with
  | nil =>
    cases rest with
    | nil => rfl
    | cons c rest =>
      rw [List.map_nil, List.nil_append, spanDigits, hrest c rfl]
  | cons d ds ih =>
    obtain ⟨hd, hds⟩ := List.forall_mem_cons.mp hdigits
    rw [List.map_cons, List.cons_append, spanDigits, digit?_digitChar hd]
    exact congrArg (d :: ·) (ih hds)

theorem head?_exponentText (e : Option (Bool × List ℕ)) {rest : Str} (hrest : Stops rest)
    {c : CodePoint} (hc : (exponentText e ++ rest).head? = some c) : c = 101 ∨ c = 44 ∨ c = 93 ∨ c = 125 := by
  cases e with
  | none => exact Or.inr (hrest c hc)
  | some e => exact Or.inl (Option.some.inj hc).symm

theorem head?_fractionText (ds : List ℕ) (e : Option (Bool × List ℕ)) {rest : Str} (hrest : Stops rest)
    {c : CodePoint} (hc : (fractionText ds ++ (exponentText e ++ rest)).head? = some c) :
    c = 46 ∨ c = 101 ∨ c = 44 ∨ c = 93 ∨ c = 125 := by
  by_cases hds : ds = []
  · rw [fractionText, if_pos hds] at hc
    exact Or.inr (head?_exponentText e hrest hc)
  · rw [fractionText, if_neg hds] at hc
    exact Or.inl (Option.some.inj hc).symm

theorem fractionDigits_append {ds : List ℕ} (hdigits : ∀ d ∈ ds, d < 10) (e : Option (Bool × List ℕ))
    {rest : Str} (hrest : Stops rest) :
    fractionDigits (fractionText ds ++ (exponentText e ++ rest)) = ds := by
  have hhead := fun c ↦ head?_exponentText e hrest (c := c)
  by_cases hds : ds = []
  · rw [fractionText, if_pos hds, hds, List.nil_append]
    unfold fractionDigits
    split
    · next tail heq =>
      rw [heq] at hhead
      have := hhead 46 rfl
      exact absurd this (by decide)
    · rfl
  · rw [fractionText, if_neg hds, List.cons_append]
    refine spanDigits_append hdigits fun c hc ↦ ?_
    rcases hhead c hc with rfl | rfl | rfl | rfl <;> rfl

theorem exponentPart_append {e : Option (Bool × List ℕ)}
    (hdigits : ∀ negative ds, e = some (negative, ds) → ds ≠ [] ∧ ∀ d ∈ ds, d < 10) {rest : Str}
    (hrest : Stops rest) : exponentPart (exponentText e ++ rest) = (e, (exponentText e).length) := by
  rcases e with - | ⟨negative, ds⟩
  · have hsign : exponentSign rest = none := by
      unfold exponentSign
      split
      · next c s tail =>
        refine if_neg ?_
        rcases hrest c rfl with rfl | rfl | rfl <;> decide
      · rfl
    rw [exponentText, List.nil_append, exponentPart, hsign]
    rfl
  · obtain ⟨hne, hlt⟩ := hdigits negative ds rfl
    have hspan : spanDigits (ds.map digitChar ++ rest) = ds :=
      spanDigits_append hlt fun c hc ↦ by rcases hrest c hc with rfl | rfl | rfl <;> rfl
    have hsign : exponentSign (exponentText (some (negative, ds)) ++ rest) = some (negative, 2) := by
      cases negative <;> rfl
    have hdrop : (exponentText (some (negative, ds)) ++ rest).drop 2 = ds.map digitChar ++ rest := rfl
    obtain ⟨d, ds, rfl⟩ := List.exists_cons_of_ne_nil hne
    rw [exponentPart, hsign]
    dsimp only
    rw [hdrop, hspan]
    simp only [exponentText, List.length_cons, List.length_map]
    rw [Nat.add_comm]

theorem wholeDigits_append {x : Numeral} (hx : x.Valid) {rest : Str} (hrest : Stops rest) :
    wholeDigits (x.whole.map digitChar ++ (fractionText x.fraction ++ (exponentText x.exponent ++ rest))) =
      x.whole := by
  have hstops : ∀ c, (fractionText x.fraction ++ (exponentText x.exponent ++ rest)).head? = some c →
      digit? c = none := fun c hc ↦ by
    rcases head?_fractionText _ _ hrest hc with rfl | rfl | rfl | rfl | rfl <;> rfl
  have hspan := spanDigits_append hx.wholeDigits hstops
  rw [wholeDigits, hspan]
  split
  · next ds hds => exact (hx.zero (by rw [hds]; rfl)).symm
  · rfl

/-- **A numeral that was written is read.** -/
theorem numeral_numeralText {x : Numeral} (hx : x.Valid) {rest : Str} (hrest : Stops rest) :
    numeral (numeralText x ++ rest) = some (x, (numeralText x).length) := by
  set sign : Str := if x.negative then [45] else [] with hsign
  set body := x.whole.map digitChar ++ (fractionText x.fraction ++ (exponentText x.exponent ++ rest))
    with hbody
  have htext : numeralText x ++ rest = sign ++ body := by
    rw [numeralText, hbody, List.append_assoc, List.append_assoc, List.append_assoc]
  obtain ⟨d, ds, hwhole⟩ := List.exists_cons_of_ne_nil hx.whole
  -- No digit is a minus sign.
  have hhead : body.head? ≠ some 45 := by
    have hd : d < 10 := hx.wholeDigits d (by rw [hwhole]; exact List.mem_cons_self)
    rw [hbody, hwhole]
    exact fun h ↦ digitChar_ne hd rfl (Option.some.inj h)
  have hfirst : (if (sign ++ body).head? = some 45 then 1 else 0) = sign.length := by
    cases hneg : x.negative
    · rw [hsign, hneg]
      exact if_neg hhead
    · rw [hsign, hneg]
      rfl
  have hnegative : decide (sign.length = 1) = x.negative := by
    rw [hsign]
    cases x.negative <;> rfl
  have hdigits : wholeDigits ((sign ++ body).drop sign.length) = d :: ds := by
    rw [List.drop_left, hbody, wholeDigits_append hx hrest, hwhole]
  have hafter : (sign ++ body).drop (sign.length + (d :: ds).length) =
      fractionText x.fraction ++ (exponentText x.exponent ++ rest) := by
    rw [← hwhole, List.drop_append, List.drop_of_length_le (by omega), hbody, List.nil_append]
    exact List.drop_left' (by rw [List.length_map]; omega)
  have hfraction : (if x.fraction = [] then sign.length + (d :: ds).length
      else sign.length + (d :: ds).length + x.fraction.length + 1) =
      sign.length + (d :: ds).length + (fractionText x.fraction).length := by
    rw [fractionText]
    split
    · rfl
    · rw [@List.length_cons _ 46, List.length_map, Nat.add_assoc]
  have hlast : (sign ++ body).drop (sign.length + (d :: ds).length + (fractionText x.fraction).length) =
      exponentText x.exponent ++ rest := by
    rw [← List.drop_drop, hafter, List.drop_left]
  rw [htext, numeral]
  dsimp only
  rw [hfirst, hdigits]
  dsimp only
  rw [hafter, fractionDigits_append hx.fractionDigits _ hrest, hfraction, hlast,
    exponentPart_append hx.exponent hrest, hnegative, ← hwhole]
  have hlength : (numeralText x).length =
      sign.length + x.whole.length + (fractionText x.fraction).length + (exponentText x.exponent).length := by
    rw [numeralText, ← hsign, List.length_append, List.length_append, List.length_append, List.length_map]
    omega
  rw [hlength]

/-! ## Strings -/

/-- No code unit below the surrogates is half of a pair. -/
theorem joinSurrogate_of_lt {u : ℕ} (h : u < 0xD800) (s : Str) : joinSurrogate u s = none := by
  have hpair : ∀ v, surrogatePair? u v = none := fun v ↦ if_neg fun hu ↦ by omega
  unfold joinSurrogate
  split
  · rw [funext hpair, Option.bind_fun_none]
  · rfl

theorem escapeAt_unit {c : CodePoint} (h : c.val < 32) (rest : Str) :
    escapeAt (117 :: 48 :: 48 :: hexChar (c.val / 16) :: hexChar (c.val % 16) :: rest) = some (c, 5) := by
  have hunit : unit16 48 48 (hexChar (c.val / 16)) (hexChar (c.val % 16)) = some c.val := by
    generalize c.val = n at h
    interval_cases n <;> rfl
  have hc : ofUnit c.val = c := Fin.ext (Nat.mod_eq_of_lt c.isLt)
  rw [escapeAt, hunit]
  simp only [Option.bind_eq_bind, Option.bind_some, joinSurrogate_of_lt (show c.val < 0xD800 by omega), hc]

/-- The escape of a character is read as that character. -/
theorem exists_escaped (c : CodePoint) :
    ∃ a w, escaped c = a :: w ∧ a ≠ 34 ∧ ∀ rest, stringChar (a :: (w ++ rest)) = some (c, w.length) := by
  by_cases hquote : c = 34 ∨ c = 92
  · refine ⟨92, [c], if_pos hquote, by decide, fun rest ↦ ?_⟩
    rcases hquote with rfl | rfl <;> rfl
  by_cases hshort : c = 10 ∨ c = 13 ∨ c = 9 ∨ c = 12 ∨ c = 8
  · rcases hshort with rfl | rfl | rfl | rfl | rfl
    · exact ⟨92, [110], rfl, by decide, fun _ ↦ rfl⟩
    · exact ⟨92, [114], rfl, by decide, fun _ ↦ rfl⟩
    · exact ⟨92, [116], rfl, by decide, fun _ ↦ rfl⟩
    · exact ⟨92, [102], rfl, by decide, fun _ ↦ rfl⟩
    · exact ⟨92, [98], rfl, by decide, fun _ ↦ rfl⟩
  simp only [not_or] at hquote hshort
  by_cases hlow : c.val < 32
  · refine ⟨92, [117, 48, 48, hexChar (c.val / 16), hexChar (c.val % 16)], ?_, by decide, fun rest ↦ ?_⟩
    · simp [escaped, hquote, hshort, hlow]
    · exact escapeAt_unit hlow rest
  · refine ⟨c, [], ?_, hquote.1, fun rest ↦ ?_⟩
    · simp [escaped, hquote, hshort, hlow]
    · simp [stringChar, hquote, hlow]

theorem stringBody_skip (w rest : Str) :
    stringBody (w ++ rest) w.length = (stringBody rest 0).map fun r ↦ (r.1, r.2 + w.length) := by
  induction w with
  | nil =>
    cases h : stringBody rest 0 <;> simp [h]
  | cons a w ih =>
    rw [List.cons_append, List.length_cons, stringBody, ih, Option.map_map]
    rfl

theorem stringBody_escaped (s rest : Str) :
    stringBody (s.flatMap escaped ++ 34 :: rest) 0 = some (s, (s.flatMap escaped).length + 1) := by
  induction s with
  | nil => rfl
  | cons c s ih =>
    obtain ⟨a, w, hescaped, hquote, hread⟩ := exists_escaped c
    have htext : (c :: s).flatMap escaped ++ 34 :: rest = a :: (w ++ (s.flatMap escaped ++ 34 :: rest)) := by
      rw [List.flatMap_cons, hescaped, List.cons_append, List.cons_append, List.append_assoc]
    rw [htext, stringBody, if_neg hquote, hread]
    simp only [Option.bind_eq_bind, Option.bind_some, stringBody_skip, ih, Option.map_some,
      List.flatMap_cons, hescaped, List.cons_append, List.length_cons, List.length_append]
    exact congrArg (fun n ↦ some (c :: s, n)) (by omega)

/-! ## Tokens -/

theorem lexFrom_skip (w rest : Str) : lexFrom (w ++ rest) w.length = lexFrom rest 0 := by
  induction w with
  | nil => rfl
  | cons a w ih => exact ih

/-- A token at the start of a text. -/
theorem lexFrom_of_nextToken {a : CodePoint} {w rest : Str} {t : Token} (hspace : isJsonSpace a = false)
    (h : nextToken (a :: (w ++ rest)) = (t, w.length)) :
    lexFrom (a :: (w ++ rest)) 0 = t :: lexFrom rest 0 := by
  rw [lexFrom, hspace, h]
  exact congrArg (t :: ·) (lexFrom_skip w rest)

theorem nextToken_of_numeral {s : Str} {x : Numeral} {k : ℕ} (h : numeral s = some (x, k)) :
    nextToken s = (.number x, k - 1) := by
  unfold nextToken
  split
  -- No numeral starts with a bracket, a brace, a comma, a colon or a quote.
  iterate 7 exact nomatch h
  rw [h]

theorem lexFrom_number {x : Numeral} (hx : x.Valid) {rest : Str} (hrest : Stops rest) :
    lexFrom (tokenText (.number x) ++ rest) 0 = .number x :: lexFrom rest 0 := by
  have hread := numeral_numeralText hx hrest
  rw [tokenText]
  obtain ⟨a, w, htext⟩ := List.exists_cons_of_ne_nil (l := numeralText x) fun hnil ↦ by
    rw [numeralText, List.append_eq_nil_iff, List.append_eq_nil_iff, List.map_eq_nil_iff] at hnil
    exact hx.whole hnil.2.1
  rw [htext, List.cons_append] at hread ⊢
  refine lexFrom_of_nextToken ?_ (nextToken_of_numeral hread)
  by_contra hspace
  have hnone : numeral (a :: (w ++ rest)) = none := by
    have hcases : a = 32 ∨ a = 9 ∨ a = 10 ∨ a = 13 := by
      simpa only [isJsonSpace, Bool.not_eq_false, Bool.or_eq_true, decide_eq_true_eq, or_assoc] using hspace
    rcases hcases with rfl | rfl | rfl | rfl <;> rfl
  exact nomatch hread.symm.trans hnone

theorem lexFrom_string (s rest : Str) :
    lexFrom (tokenText (.string s) ++ rest) 0 = .string s :: lexFrom rest 0 := by
  have htext : tokenText (.string s) ++ rest = 34 :: ((s.flatMap escaped ++ [34]) ++ rest) := rfl
  rw [htext]
  refine lexFrom_of_nextToken rfl ?_
  rw [nextToken, List.append_assoc, List.singleton_append, stringBody_escaped, List.length_append]
  rfl

theorem lit_words : lit "null" = [110, 117, 108, 108] ∧ lit "true" = [116, 114, 117, 101] ∧
    lit "false" = [102, 97, 108, 115, 101] := by decide

theorem nextToken_of_word {a : CodePoint} {tail : Str} {word : String × Token}
    (ha : a = 110 ∨ a = 116 ∨ a = 102)
    (hfind : words.find? (fun w ↦ lit w.1 <+: a :: tail) = some word) :
    nextToken (a :: tail) = (word.2, (lit word.1).length - 1) := by
  have hnone : numeral (a :: tail) = none := by rcases ha with rfl | rfl | rfl <;> rfl
  unfold nextToken
  split
  -- A word starts with a letter.
  iterate 7
    next heq =>
      cases heq
      exact absurd ha (by decide)
  rw [hnone, hfind]

theorem lexFrom_word {t : Token} (ht : t = .null ∨ t = .true ∨ t = .false) (rest : Str) :
    lexFrom (tokenText t ++ rest) 0 = t :: lexFrom rest 0 := by
  obtain ⟨hnull, htrue, hfalse⟩ := lit_words
  rcases ht with rfl | rfl | rfl
  · have hfind : words.find? (fun w ↦ lit w.1 <+: 110 :: ([117, 108, 108] ++ rest)) = some ("null", .null) :=
      List.find?_cons_of_pos (by rw [hnull]; exact decide_eq_true (List.prefix_append _ rest))
    have hnext := nextToken_of_word (Or.inl rfl) hfind
    rw [hnull] at hnext
    rw [tokenText, hnull]
    exact lexFrom_of_nextToken rfl hnext
  · have hfind : words.find? (fun w ↦ lit w.1 <+: 116 :: ([114, 117, 101] ++ rest)) = some ("true", .true) := by
      rw [words, List.find?_cons_of_neg]
      · exact List.find?_cons_of_pos (by rw [htrue]; exact decide_eq_true (List.prefix_append _ rest))
      · rw [hnull]
        simp [List.cons_prefix_cons]
    have hnext := nextToken_of_word (Or.inr (Or.inl rfl)) hfind
    rw [htrue] at hnext
    rw [tokenText, htrue]
    exact lexFrom_of_nextToken rfl hnext
  · have hfind : words.find? (fun w ↦ lit w.1 <+: 102 :: ([97, 108, 115, 101] ++ rest)) =
        some ("false", .false) := by
      rw [words, List.find?_cons_of_neg, List.find?_cons_of_neg]
      · exact List.find?_cons_of_pos (by rw [hfalse]; exact decide_eq_true (List.prefix_append _ rest))
      · rw [htrue]
        simp [List.cons_prefix_cons]
      · rw [hnull]
        simp [List.cons_prefix_cons]
    have hnext := nextToken_of_word (Or.inr (Or.inr rfl)) hfind
    rw [hfalse] at hnext
    rw [tokenText, hfalse]
    exact lexFrom_of_nextToken rfl hnext

theorem lexFrom_punctuation {t : Token}
    (ht : t ∈ [Token.openBracket, .closeBracket, .openBrace, .closeBrace, .comma, .colon]) (rest : Str) :
    lexFrom (tokenText t ++ rest) 0 = t :: lexFrom rest 0 := by
  simp only [List.mem_cons, List.not_mem_nil, or_false] at ht
  rcases ht with rfl | rfl | rfl | rfl | rfl | rfl <;> exact lexFrom_of_nextToken (w := []) rfl rfl

/-! ## A text -/

/-- The text of the tokens is cut into them, where no numeral runs on into what follows. -/
def Lexes (ts : List Token) : Prop :=
  ∀ rest, Stops rest → lexFrom (ts.flatMap tokenText ++ rest) 0 = ts ++ lexFrom rest 0

theorem Lexes.cons {t : Token} {ts : List Token} (ht : ∀ rest, lexFrom (tokenText t ++ rest) 0 = t :: lexFrom rest 0)
    (h : Lexes ts) : Lexes (t :: ts) := fun rest hrest ↦ by
  rw [List.flatMap_cons, List.append_assoc, ht, h rest hrest, List.cons_append]

/-- A token that a numeral may be followed by. -/
theorem Lexes.append {ts us : List Token} {t : Token} (hts : Lexes ts)
    (ht : t = .comma ∨ t = .closeBracket ∨ t = .closeBrace) (h : Lexes us) : Lexes (ts ++ t :: us) := fun rest hrest ↦ by
  have hpunctuation : t ∈ [Token.openBracket, .closeBracket, .openBrace, .closeBrace, .comma, .colon] := by
    rcases ht with rfl | rfl | rfl <;> decide
  have hstops : Stops (tokenText t ++ (us.flatMap tokenText ++ rest)) := by
    rcases ht with rfl | rfl | rfl <;> exact stops_cons.mpr (by decide)
  rw [List.flatMap_append, List.flatMap_cons, List.append_assoc, List.append_assoc, hts _ hstops,
    lexFrom_punctuation hpunctuation, h rest hrest, List.append_assoc, List.cons_append]

theorem lexes_nil : Lexes [] := fun _ _ ↦ rfl

theorem lexes_itemTokens {items : List Json} {ts : List Token} (h : itemTokens items = .ok ts)
    (hitems : ∀ v ∈ items, ∀ us, tokens v = .ok us → Lexes us) : Lexes ts := by
  induction items generalizing ts with
  | nil =>
    rw [← Except.ok.inj h]
    exact lexes_nil
  | cons v items ih =>
    obtain ⟨hv, hrest⟩ := List.forall_mem_cons.mp hitems
    cases items with
    | nil => exact hv ts h
    | cons w items =>
      rw [itemTokens] at h
      obtain ⟨first, hfirst, h⟩ := bind_eq_ok.mp h
      obtain ⟨rest, hok, h⟩ := bind_eq_ok.mp h
      rw [← Except.ok.inj h]
      exact (hv first hfirst).append (Or.inl rfl) (ih hok hrest)

theorem lexes_fieldTokens {fields : Fields} {ts : List Token} (h : fieldTokens fields = .ok ts)
    (hfields : ∀ p ∈ fields, ∀ us, tokens p.2 = .ok us → Lexes us) : Lexes ts := by
  induction fields generalizing ts with
  | nil =>
    rw [← Except.ok.inj h]
    exact lexes_nil
  | cons p fields ih =>
    obtain ⟨key, v⟩ := p
    obtain ⟨hv, hrest⟩ := List.forall_mem_cons.mp hfields
    cases fields with
    | nil =>
      obtain ⟨us, hus, h⟩ := bind_eq_ok.mp h
      rw [← Except.ok.inj h]
      exact ((hv us hus).cons (lexFrom_punctuation (by decide))).cons (lexFrom_string key)
    | cons q fields =>
      rw [fieldTokens] at h
      obtain ⟨first, hfirst, h⟩ := bind_eq_ok.mp h
      obtain ⟨rest, hok, h⟩ := bind_eq_ok.mp h
      rw [← Except.ok.inj h]
      exact (((hv first hfirst).append (Or.inl rfl) (ih hok hrest)).cons
        (lexFrom_punctuation (by decide))).cons (lexFrom_string key)

/-- The text of a value is cut into its tokens. -/
theorem lexes_tokens {v : Json} {ts : List Token} (h : tokens v = .ok ts) : Lexes ts := by
  induction v generalizing ts with
  | null =>
    rw [← Except.ok.inj h]
    exact lexes_nil.cons (lexFrom_word (Or.inl rfl))
  | bool b =>
    rw [← Except.ok.inj h]
    exact lexes_nil.cons (lexFrom_word (by cases b <;> decide))
  | int n =>
    rw [tokens] at h
    split at h
    · cases h
    · rw [← Except.ok.inj h]
      intro rest hrest
      rw [List.flatMap_singleton]
      exact lexFrom_number (valid_decimalDigits _ _) hrest
  | float x =>
    cases x with
    | finite q =>
      rw [← Except.ok.inj h]
      intro rest hrest
      rw [List.flatMap_singleton]
      exact lexFrom_number (valid_floatRepr q) hrest
    | _ => cases h
  | str s =>
    rw [← Except.ok.inj h]
    exact lexes_nil.cons (lexFrom_string s)
  | array items ih =>
    obtain ⟨us, hus, h⟩ := bind_eq_ok.mp h
    rw [← Except.ok.inj h, List.cons_append]
    exact ((lexes_itemTokens hus fun v hv us ↦ ih v hv).append (Or.inr (Or.inl rfl)) lexes_nil).cons
      (lexFrom_punctuation (by decide))
  | object fields ih =>
    obtain ⟨us, hus, h⟩ := bind_eq_ok.mp h
    rw [← Except.ok.inj h, List.cons_append]
    exact ((lexes_fieldTokens hus fun p hp us ↦ ih p hp).append (Or.inr (Or.inr rfl)) lexes_nil).cons
      (lexFrom_punctuation (by decide))

/-! ## Reading tokens -/

/-- The value nests at most `n` arrays and objects. -/
inductive Within : ℕ → Json → Prop
  | leaf {n v} (hleaf : Json.IsLeaf v) : Within n v
  | array {n items} (h : ∀ v ∈ items, Within n v) : Within (n + 1) (.array items)
  | object {n : ℕ} {fields : Fields} (h : ∀ f ∈ fields, Within n f.2) : Within (n + 1) (.object fields)

theorem within_array {n : ℕ} {items : List Json} (h : Within n (.array items)) :
    ∃ m, n = m + 1 ∧ ∀ v ∈ items, Within m v := by
  cases h with
  | leaf hleaf => exact hleaf.elim
  | array h => exact ⟨_, rfl, h⟩

theorem within_object {n : ℕ} {fields : Fields} (h : Within n (.object fields)) :
    ∃ m, n = m + 1 ∧ ∀ f ∈ fields, Within m f.2 := by
  cases h with
  | leaf hleaf => exact hleaf.elim
  | object h => exact ⟨_, rfl, h⟩

theorem within_sortKeys {n : ℕ} {v : Json} (h : Within n v) : Within n (sortKeys v) := by
  induction v using Json.leafInduct generalizing n with
  | leaf v hleaf => rwa [Json.sortKeys_leaf hleaf]
  | array items ih =>
    obtain ⟨m, rfl, hitems⟩ := within_array h
    rw [Json.sortKeys_array]
    refine Within.array fun v hv ↦ ?_
    obtain ⟨w, hw, rfl⟩ := List.mem_map.mp hv
    exact ih w hw (hitems w hw)
  | object fields ih =>
    obtain ⟨m, rfl, hfields⟩ := within_object h
    rw [Json.sortKeys_object]
    refine Within.object fun f hf ↦ ?_
    obtain ⟨g, hg, rfl⟩ := List.mem_map.mp ((Json.sortedFields_perm _).mem_iff.mp hf)
    exact ih g hg (hfields g hg)

/-- A leaf whose text reads as the leaf. -/
def Readable (v : Json) : Prop := ∀ q, v = .float (.finite q) → ofRat (floatRepr q).value = .finite q

section Reading

variable {hooks : Hooks} {limit : ℕ}

/-- The tokens are read as the value, on a stack with room for `n` more frames. -/
def ReadsAs (hooks : Hooks) (limit n : ℕ) (ts : List Token) (v : Json) : Prop :=
  ∀ stack : List Frame, stack.length + n ≤ limit →
    ts.foldlM (readToken hooks limit) (.value, stack) = .ok (.after v, stack)

/-- The first token of a value closes nothing. -/
theorem head_tokens {v : Json} {ts : List Token} (h : tokens v = .ok ts) :
    ∃ t us, ts = t :: us ∧ t ≠ .closeBracket ∧ t ≠ .bad := by
  cases v with
  | null => exact ⟨_, _, (Except.ok.inj h).symm, by decide⟩
  | bool b => exact ⟨_, _, (Except.ok.inj h).symm, by cases b <;> decide⟩
  | int n =>
    rw [tokens] at h
    split at h
    · cases h
    · exact ⟨_, _, (Except.ok.inj h).symm, Token.noConfusion, Token.noConfusion⟩
  | float x =>
    cases x with
    | finite q => exact ⟨_, _, (Except.ok.inj h).symm, Token.noConfusion, Token.noConfusion⟩
    | _ => cases h
  | str s => exact ⟨_, _, (Except.ok.inj h).symm, Token.noConfusion, Token.noConfusion⟩
  | array items =>
    obtain ⟨us, -, h⟩ := bind_eq_ok.mp h
    exact ⟨_, _, (Except.ok.inj h).symm, Token.noConfusion, Token.noConfusion⟩
  | object fields =>
    obtain ⟨us, -, h⟩ := bind_eq_ok.mp h
    exact ⟨_, _, (Except.ok.inj h).symm, Token.noConfusion, Token.noConfusion⟩

theorem head_itemTokens {v : Json} {items : List Json} {ts : List Token}
    (h : itemTokens (v :: items) = .ok ts) : ∃ t us, ts = t :: us ∧ t ≠ .closeBracket := by
  cases items with
  | nil =>
    obtain ⟨t, us, hts, ht, -⟩ := head_tokens h
    exact ⟨t, us, hts, ht⟩
  | cons w items =>
    rw [itemTokens] at h
    obtain ⟨first, hfirst, h⟩ := bind_eq_ok.mp h
    obtain ⟨rest, -, h⟩ := bind_eq_ok.mp h
    obtain ⟨t, us, rfl, ht, -⟩ := head_tokens hfirst
    exact ⟨t, _, (Except.ok.inj h).symm, ht⟩

/-- The first item of an array is read as any other. -/
theorem readToken_firstItem {t : Token} (ht : t ≠ .closeBracket) (items : List Json) (stack : List Frame) :
    readToken hooks limit (.firstItem, .array items :: stack) t =
      readToken hooks limit (.value, .array items :: stack) t := by
  cases t with
  | closeBracket => exact absurd rfl ht
  | _ => rfl

theorem read_itemTokens {n : ℕ} {items : List Json} {ts : List Token} (h : itemTokens items = .ok ts)
    (hne : items ≠ []) (hitems : ∀ v ∈ items, ∀ us, tokens v = .ok us → ReadsAs hooks limit n us v)
    {before : List Json} {stack : List Frame} (hroom : stack.length + 1 + n ≤ limit) :
    (ts ++ [Token.closeBracket]).foldlM (readToken hooks limit) (.value, .array before :: stack) =
      .ok (.after (.array (before ++ items)), stack) := by
  induction items generalizing ts before with
  | nil => exact absurd rfl hne
  | cons v items ih =>
    obtain ⟨hv, hrest⟩ := List.forall_mem_cons.mp hitems
    cases items with
    | nil =>
      rw [List.foldlM_append, hv ts h (.array before :: stack) hroom]
      rfl
    | cons w items =>
      rw [itemTokens] at h
      obtain ⟨first, hfirst, h⟩ := bind_eq_ok.mp h
      obtain ⟨rest, hok, h⟩ := bind_eq_ok.mp h
      rw [← Except.ok.inj h, List.append_assoc, List.cons_append, List.foldlM_append,
        hv first hfirst (.array before :: stack) hroom]
      -- The comma moves the item into the frame.
      have hcomma : (rest ++ [Token.closeBracket]).foldlM (readToken hooks limit)
          (.value, .array (before ++ [v]) :: stack) = _ := ih hok (List.cons_ne_nil _ _) hrest
      rw [List.append_assoc] at hcomma
      exact hcomma

theorem read_fieldTokens {n : ℕ} {fields : Fields} {ts : List Token} (h : fieldTokens fields = .ok ts)
    (hne : fields ≠ [])
    (hfields : ∀ p ∈ fields, ∀ us, tokens p.2 = .ok us → ReadsAs hooks limit n us p.2)
    {before : Fields} (hobject : hooks.object (before ++ fields) = .ok (before ++ fields))
    {expect : Expect} (hexpect : expect = .firstKey ∨ expect = .nextKey) {stack : List Frame}
    (hroom : stack.length + 1 + n ≤ limit) :
    (ts ++ [Token.closeBrace]).foldlM (readToken hooks limit) (expect, .object before :: stack) =
      .ok (.after (.object (before ++ fields)), stack) := by
  induction fields generalizing ts before expect with
  | nil => exact absurd rfl hne
  | cons p fields ih =>
    obtain ⟨key, v⟩ := p
    obtain ⟨hv, hrest⟩ := List.forall_mem_cons.mp hfields
    have hkey : readToken hooks limit (expect, .object before :: stack) (.string key) =
        .ok (.colon key, .object before :: stack) := by rcases hexpect with rfl | rfl <;> rfl
    cases fields with
    | nil =>
      obtain ⟨us, hus, h⟩ := bind_eq_ok.mp h
      have hread : us.foldlM (readToken hooks limit) (.value, .member before key :: stack) =
        .ok (.after v, .member before key :: stack) := hv us hus _ hroom
      have hclose : readToken hooks limit (.after v, .member before key :: stack) .closeBrace =
          .ok (.after (.object (before ++ [(key, v)])), stack) := by
        rw [readToken, readAfter, hobject]
        rfl
      rw [← Except.ok.inj h, List.cons_append, List.cons_append, List.foldlM_cons, hkey]
      rw [ok_bind, List.foldlM_cons, readToken, ok_bind, List.foldlM_append, hread, ok_bind,
        List.foldlM_cons, hclose]
      rfl
    | cons q fields =>
      rw [fieldTokens] at h
      obtain ⟨first, hfirst, h⟩ := bind_eq_ok.mp h
      obtain ⟨rest, hok, h⟩ := bind_eq_ok.mp h
      have hread : first.foldlM (readToken hooks limit) (.value, .member before key :: stack) =
        .ok (.after v, .member before key :: stack) := hv first hfirst _ hroom
      have hcomma : (rest ++ [Token.closeBrace]).foldlM (readToken hooks limit)
          (.nextKey, .object (before ++ [(key, v)]) :: stack) = _ :=
        ih hok (List.cons_ne_nil _ _) hrest (by rwa [List.append_assoc]) (Or.inr rfl)
      rw [List.append_assoc] at hcomma
      rw [← Except.ok.inj h, List.cons_append, List.cons_append, List.cons_append, List.cons_append,
        List.append_assoc, List.cons_append, List.foldlM_cons, hkey, ok_bind, List.foldlM_cons,
        readToken, ok_bind, List.foldlM_append, hread, ok_bind]
      exact hcomma

/-- The tokens of a value are read as the value. -/
theorem read_tokens
    (hobject : ∀ fields : Fields, (fields.map Prod.fst).Nodup → hooks.object fields = .ok fields)
    {v : Json} {ts : List Token} (h : tokens v = .ok ts) (heach : Json.Each Readable List.Nodup v)
    {n : ℕ} (hdepth : Within n v) : ReadsAs hooks limit n ts v := by
  induction v generalizing ts n with
  | null =>
    rw [← Except.ok.inj h]
    exact fun _ _ ↦ rfl
  | bool b =>
    rw [← Except.ok.inj h]
    exact fun _ _ ↦ by cases b <;> rfl
  | int k =>
    rw [tokens] at h
    split at h
    · cases h
    next hdigits =>
      have hvalue : (if decide (k < 0) = true then -1 else 1) * (k.natAbs : ℤ) = k := by
        by_cases hneg : k < 0
        · rw [if_pos (decide_eq_true hneg)]
          omega
        · rw [if_neg (by simpa using hneg)]
          omega
      have hnumber : number ⟨decide (k < 0), decimalDigits k.natAbs, [], none⟩ = .ok (.int k) := by
        rw [number, if_neg (by simp), if_neg hdigits, digitsValue_decimalDigits, hvalue]
      rw [← Except.ok.inj h]
      intro stack hroom
      rw [List.foldlM_cons, readToken, readValue, hnumber]
      rfl
  | float x =>
    cases x with
    | finite q =>
      have hnumber : number (floatRepr q) = .ok (.float (.finite q)) := by
        rw [number, if_pos (floatRepr_isFloat q), (Json.each_of_leaf (v := .float (.finite q)) trivial).mp heach q rfl]
      rw [← Except.ok.inj h]
      intro stack hroom
      rw [List.foldlM_cons, readToken, readValue, hnumber]
      rfl
    | _ => cases h
  | str s =>
    rw [← Except.ok.inj h]
    exact fun _ _ ↦ rfl
  | array items ih =>
    obtain ⟨us, hus, h⟩ := bind_eq_ok.mp h
    obtain ⟨m, rfl, hitems⟩ := within_array hdepth
    have heach' := Json.each_array.mp heach
    have hread : ∀ v ∈ items, ∀ us, tokens v = .ok us → ReadsAs hooks limit m us v := fun v hv us hus ↦
      ih v hv hus (heach' v hv) (hitems v hv)
    rw [← Except.ok.inj h, List.cons_append]
    intro stack hroom
    have hopen : readToken hooks limit (.value, stack) .openBracket = .ok (.firstItem, .array [] :: stack) :=
      if_pos (by omega)
    rw [List.foldlM_cons, hopen, ok_bind]
    cases items with
    | nil =>
      rw [← Except.ok.inj hus]
      rfl
    | cons v items =>
      have hrest : (us ++ [Token.closeBracket]).foldlM (readToken hooks limit)
          (.value, .array [] :: stack) = _ :=
        read_itemTokens hus (List.cons_ne_nil _ _) hread (by omega)
      obtain ⟨t, ts, rfl, ht⟩ := head_itemTokens hus
      rw [List.cons_append, List.foldlM_cons] at hrest ⊢
      rwa [readToken_firstItem ht]
  | object fields ih =>
    obtain ⟨us, hus, h⟩ := bind_eq_ok.mp h
    obtain ⟨m, rfl, hfields⟩ := within_object hdepth
    obtain ⟨hnodup, heach'⟩ := Json.each_object.mp heach
    have hread : ∀ p ∈ fields, ∀ us, tokens p.2 = .ok us → ReadsAs hooks limit m us p.2 := fun p hp us hus ↦
      ih p hp hus (heach' p hp) (hfields p hp)
    rw [← Except.ok.inj h, List.cons_append]
    intro stack hroom
    have hopen : readToken hooks limit (.value, stack) .openBrace = .ok (.firstKey, .object [] :: stack) :=
      if_pos (by omega)
    rw [List.foldlM_cons, hopen, ok_bind]
    cases fields with
    | nil =>
      have hclose : readToken hooks limit (.firstKey, .object [] :: stack) .closeBrace =
          .ok (.after (.object []), stack) := by
        rw [readToken, hobject [] List.nodup_nil]
        rfl
      rw [← Except.ok.inj hus, List.nil_append, List.foldlM_cons, hclose]
      rfl
    | cons p fields =>
      exact @read_fieldTokens _ _ _ _ _ hus (List.cons_ne_nil _ _) hread [] (hobject _ hnodup) _
        (Or.inl rfl) _ (by omega)

end Reading

/-! ## Texts -/

/-- A byte order mark starts no token. -/
theorem nextToken_bom (rest : Str) : (nextToken (0xFEFF :: rest)).1 = .bad := by
  have hwords : ∀ w ∈ words, lit w.1 ≠ [] ∧ (lit w.1).head? ≠ some 0xFEFF := by decide
  have hfind : words.find? (fun w ↦ lit w.1 <+: 0xFEFF :: rest) = none := by
    refine List.find?_eq_none.mpr fun w hw hprefix ↦ ?_
    obtain ⟨hne, hhead⟩ := hwords w hw
    obtain ⟨a, tail, hword⟩ := List.exists_cons_of_ne_nil hne
    have hprefix := of_decide_eq_true hprefix
    rw [hword] at hprefix hhead
    exact hhead (congrArg some (List.cons_prefix_cons.mp hprefix).1)
  have hnone : numeral (0xFEFF :: rest) = none := rfl
  unfold nextToken
  split
  iterate 7 next heq => exact nomatch heq
  rw [hnone, hfind]

theorem head?_ne_bom {v : Json} {ts : List Token} (h : tokens v = .ok ts) :
    (ts.flatMap tokenText).head? ≠ some 0xFEFF := by
  intro hbom
  obtain ⟨rest, htext⟩ := List.head?_eq_some_iff.mp hbom
  obtain ⟨t, us, rfl, -, hbad⟩ := head_tokens h
  have hlex := lexes_tokens h [] stops_nil
  rw [List.append_nil, htext] at hlex
  exact hbad ((List.cons.inj hlex).1.symm.trans (nextToken_bom rest))

/-! ## What can be written -/

/-- A leaf that `dumps` writes, with a text that UTF-8 encodes. -/
def Writable : Json → Prop
  | .int n => (decimalDigits n.natAbs).length ≤ 4300
  | .float x => ∃ q, x = .finite q
  | .str s => Scalar s
  | _ => True

def ScalarTokens (ts : List Token) : Prop := Scalar (ts.flatMap tokenText)

theorem scalar_of_lt {s : Str} (h : ∀ c ∈ s, c.val < 0x80) : Scalar s := fun c hc ↦ by
  have := h c hc
  simp only [isSurrogate, Bool.and_eq_false_iff, decide_eq_false_iff_not]
  omega

theorem scalar_numeralText {x : Numeral} (hx : x.Valid) : Scalar (numeralText x) := by
  have hdigits : ∀ ds : List ℕ, (∀ d ∈ ds, d < 10) → ∀ c ∈ ds.map digitChar, c.val < 0x80 := by
    intro ds hds
    refine List.forall_mem_map.mpr fun d hd ↦ ?_
    have := hds d hd
    interval_cases d <;> decide
  have hfraction : ∀ c ∈ fractionText x.fraction, c.val < 0x80 := by
    rw [fractionText]
    split
    · exact List.forall_mem_nil _
    · exact List.forall_mem_cons.mpr ⟨by decide, hdigits _ hx.fractionDigits⟩
  have hexponent : ∀ c ∈ exponentText x.exponent, c.val < 0x80 := by
    rcases hexp : x.exponent with - | ⟨negative, ds⟩
    · exact List.forall_mem_nil _
    · refine List.forall_mem_cons.mpr ⟨by decide, List.forall_mem_cons.mpr ⟨by cases negative <;> decide, ?_⟩⟩
      exact hdigits _ (hx.exponent negative ds hexp).2
  have hsign : ∀ c ∈ if x.negative then ([45] : Str) else [], c.val < 0x80 := by
    split
    · exact List.forall_mem_singleton.mpr (by decide)
    · exact List.forall_mem_nil _
  refine scalar_of_lt ?_
  rw [numeralText]
  exact List.forall_mem_append.mpr ⟨hsign, List.forall_mem_append.mpr ⟨hdigits _ hx.wholeDigits,
    List.forall_mem_append.mpr ⟨hfraction, hexponent⟩⟩⟩

/-- An escape is ASCII text. -/
theorem mem_escaped {c d : CodePoint} (h : d ∈ escaped c) : d = c ∨ d.val < 0x80 := by
  have hhex : ∀ n < 16, (hexChar n).val < 0x80 := by decide
  by_cases hlow : c.val < 32
  · refine Or.inr ?_
    have hdigits : (hexChar (c.val / 16)).val < 0x80 ∧ (hexChar (c.val % 16)).val < 0x80 :=
      ⟨hhex _ (by omega), hhex _ (by omega)⟩
    rw [escaped] at h
    split_ifs at h with hquote
    · rcases hquote with rfl | rfl <;> exact absurd hlow (by decide)
    iterate 5
      · simp only [List.mem_cons, List.not_mem_nil, or_false] at h
        rcases h with rfl | rfl <;> decide
    · simp only [List.mem_cons, List.not_mem_nil, or_false] at h
      rcases h with rfl | rfl | rfl | rfl | rfl | rfl
      iterate 4 decide
      · exact hdigits.1
      · exact hdigits.2
  · rw [escaped] at h
    split_ifs at h
    · simp only [List.mem_cons, List.not_mem_nil, or_false] at h
      rcases h with rfl | rfl
      · exact Or.inr (by decide)
      · exact Or.inl rfl
    iterate 5
      · simp only [List.mem_cons, List.not_mem_nil, or_false] at h
        rcases h with rfl | rfl <;> exact Or.inr (by decide)
    · exact Or.inl (List.mem_singleton.mp h)

theorem scalar_string {s : Str} (h : Scalar s) : Scalar (tokenText (.string s)) := by
  refine List.forall_mem_cons.mpr ⟨by decide, scalar_append.mpr ⟨fun d hd ↦ ?_, by decide⟩⟩
  obtain ⟨c, hc, hd⟩ := List.mem_flatMap.mp hd
  rcases mem_escaped hd with rfl | hlow
  · exact h _ hc
  · exact scalar_of_lt (s := [d]) (List.forall_mem_singleton.mpr hlow) d (List.mem_singleton.mpr rfl)

theorem ScalarTokens.cons {t : Token} {ts : List Token} (ht : Scalar (tokenText t)) (h : ScalarTokens ts) :
    ScalarTokens (t :: ts) := scalar_append.mpr ⟨ht, h⟩

theorem ScalarTokens.append {ts us : List Token} (hts : ScalarTokens ts) (hus : ScalarTokens us) :
    ScalarTokens (ts ++ us) := by
  rw [ScalarTokens, List.flatMap_append]
  exact scalar_append.mpr ⟨hts, hus⟩

theorem scalarTokens_nil : ScalarTokens [] := List.forall_mem_nil _

theorem exists_itemTokens {items : List Json}
    (h : ∀ v ∈ items, ∃ ts, tokens v = .ok ts ∧ ScalarTokens ts) :
    ∃ ts, itemTokens items = .ok ts ∧ ScalarTokens ts := by
  induction items with
  | nil => exact ⟨[], rfl, scalarTokens_nil⟩
  | cons v items ih =>
    obtain ⟨hv, hitems⟩ := List.forall_mem_cons.mp h
    cases items with
    | nil => exact hv
    | cons w items =>
      obtain ⟨first, hfirst, hscalar⟩ := hv
      obtain ⟨rest, hrest, hscalar'⟩ := ih hitems
      refine ⟨first ++ .comma :: rest, ?_, hscalar.append (hscalar'.cons (by decide))⟩
      rw [itemTokens, hfirst, ok_bind, hrest, ok_bind]

theorem exists_fieldTokens {fields : Fields} (hkeys : ∀ k ∈ fields.map Prod.fst, Scalar k)
    (h : ∀ p ∈ fields, ∃ ts, tokens p.2 = .ok ts ∧ ScalarTokens ts) :
    ∃ ts, fieldTokens fields = .ok ts ∧ ScalarTokens ts := by
  induction fields with
  | nil => exact ⟨[], rfl, scalarTokens_nil⟩
  | cons p fields ih =>
    obtain ⟨key, v⟩ := p
    obtain ⟨⟨first, hfirst, hscalar⟩, hfields⟩ := List.forall_mem_cons.mp h
    obtain ⟨hkey, hkeys⟩ := List.forall_mem_cons.mp hkeys
    have hfirst' : tokens v = .ok first := hfirst
    cases fields with
    | nil =>
      refine ⟨.string key :: .colon :: first, ?_, (hscalar.cons (by decide)).cons (scalar_string hkey)⟩
      rw [fieldTokens, hfirst', ok_bind]
    | cons q fields =>
      obtain ⟨rest, hrest, hscalar'⟩ := ih hkeys hfields
      refine ⟨.string key :: .colon :: first ++ .comma :: rest, ?_,
        ((hscalar.append (hscalar'.cons (by decide))).cons (by decide)).cons (scalar_string hkey)⟩
      rw [fieldTokens, hfirst', ok_bind, hrest, ok_bind]

theorem exists_tokens {v : Json} (h : Json.Each Writable (fun ks ↦ ∀ k ∈ ks, Scalar k) v) :
    ∃ ts, tokens v = .ok ts ∧ ScalarTokens ts := by
  induction v with
  | null => exact ⟨_, rfl, scalarTokens_nil.cons (scalar_lit _)⟩
  | bool b => exact ⟨_, rfl, scalarTokens_nil.cons (by cases b <;> exact scalar_lit _)⟩
  | int n =>
    have hdigits : (decimalDigits n.natAbs).length ≤ 4300 := (Json.each_of_leaf (v := .int n) trivial).mp h
    exact ⟨_, if_neg (not_lt.mpr hdigits), scalarTokens_nil.cons (scalar_numeralText (valid_decimalDigits _ _))⟩
  | float x =>
    obtain ⟨q, rfl⟩ := (Json.each_of_leaf (v := .float x) trivial).mp h
    exact ⟨_, rfl, scalarTokens_nil.cons (scalar_numeralText (valid_floatRepr q))⟩
  | str s => exact ⟨_, rfl, scalarTokens_nil.cons (scalar_string ((Json.each_of_leaf (v := .str s) trivial).mp h))⟩
  | array items ih =>
    obtain ⟨ts, hts, hscalar⟩ := exists_itemTokens fun v hv ↦ ih v hv (Json.each_array.mp h v hv)
    refine ⟨.openBracket :: ts ++ [.closeBracket], ?_, (hscalar.cons (by decide)).append (scalarTokens_nil.cons (by decide))⟩
    rw [tokens, hts, ok_bind]
  | object fields ih =>
    obtain ⟨hkeys, hfields⟩ := Json.each_object.mp h
    obtain ⟨ts, hts, hscalar⟩ := exists_fieldTokens hkeys fun p hp ↦ ih p hp (hfields p hp)
    refine ⟨.openBrace :: ts ++ [.closeBrace], ?_, (hscalar.cons (by decide)).append (scalarTokens_nil.cons (by decide))⟩
    rw [tokens, hts, ok_bind]

/-- **A value with writable leaves is written**, as a text that UTF-8 encodes. -/
theorem exists_dumps {v : Json} (h : Json.Each Writable (fun ks ↦ ∀ k ∈ ks, Scalar k) v) :
    ∃ text, dumps v = .ok text ∧ Scalar text := by
  have hsorted := Json.each_sortKeys (fun _ _ hperm hkeys k hk ↦ hkeys k (hperm.mem_iff.mpr hk)) h
  obtain ⟨ts, hts, hscalar⟩ := exists_tokens hsorted
  refine ⟨ts.flatMap tokenText, ?_, hscalar⟩
  rw [dumps, hts, ok_bind]

/-- The tokens of a value that can be read and is nowhere deeper than the limit are read back. -/
theorem loads_tokens {hooks : Hooks} {limit : ℕ} {v : Json} {ts : List Token}
    (hobject : ∀ fields : Fields, (fields.map Prod.fst).Nodup → hooks.object fields = .ok fields)
    (hts : tokens v = .ok ts) (heach : Json.Each Readable List.Nodup v) (hdepth : Within limit v) :
    loads hooks limit (ts.flatMap tokenText) = .ok v := by
  have hread : ts.foldlM (readToken hooks limit) (.value, []) = .ok (.after v, []) :=
    read_tokens hobject hts heach hdepth [] (by simp)
  have hlex : lex (ts.flatMap tokenText) = ts := by
    have := lexes_tokens hts [] stops_nil
    rwa [List.append_nil, lexFrom, List.append_nil] at this
  rw [loads, if_neg (head?_ne_bom hts), hlex, hread]
  rfl

/-- **What `dumps` writes, `loads` reads.** The hooks keep an object with distinct keys, every leaf is
read back, and the reader has room for the depth of the value. -/
theorem loads_dumps {hooks : Hooks} {limit : ℕ} {v : Json} {text : Str}
    (hobject : ∀ fields : Fields, (fields.map Prod.fst).Nodup → hooks.object fields = .ok fields)
    (h : dumps v = .ok text) (heach : Json.Each Readable List.Nodup v) (hdepth : Within limit v) :
    loads hooks limit text = .ok (sortKeys v) := by
  obtain ⟨ts, hts, h⟩ := bind_eq_ok.mp h
  have heach' : Json.Each Readable List.Nodup (sortKeys v) :=
    Json.each_sortKeys (fun _ _ hperm hnodup ↦ hperm.nodup_iff.mp hnodup) heach
  rw [← Except.ok.inj h]
  exact loads_tokens hobject hts heach' (within_sortKeys hdepth)

end Py
