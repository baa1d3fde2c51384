import MeetingRag.Library.JsonOrder
import MeetingRag.Library.Text

/-!
# Wire models

A response leaves the program through a model that names every field. A model refuses an unknown or a
missing field, strips white space from texts and then checks their lengths, and checks the lengths of
lists.

A UUID is read in its canonical spelling, the one in which it is written.
-/

open Outcome

namespace Py

namespace Wire

open Json

/-- A model refused a value. -/
inductive ValidationError
  | invalid
deriving DecidableEq, Repr

/-- A text of a model that strips its texts. -/
def readText (least most : ℕ) : Json → Except ValidationError Str
  | .str s => do
    require (least ≤ (trim s).length ∧ (trim s).length ≤ most) .invalid
    .ok (trim s)
  | _ => .error .invalid

/-- A text of a model that keeps its texts. -/
def readExactText (least most : ℕ) : Json → Except ValidationError Str
  | .str s => do
    require (least ≤ s.length ∧ s.length ≤ most) .invalid
    .ok s
  | _ => .error .invalid

/-- A number that is at least `least`. -/
def readNatural (least : ℕ) : Json → Except ValidationError ℕ
  | .int (.ofNat n) => do
    require (least ≤ n) .invalid
    .ok n
  | _ => .error .invalid

/-- The digits of a hexadecimal number. -/
def hexNumber (s : Str) : ℕ :=
  s.foldl (fun n c ↦ n * 16 + (if c.val < 58 then c.val - 48 else c.val - 87)) 0

def readUuid : Json → Except ValidationError UUID
  | .str s => do
    let u : UUID := ⟨BitVec.ofNat 128 (hexNumber (s.filter (· ≠ 45)))⟩
    require (lit u.str = s) .invalid
    .ok u
  | _ => .error .invalid

theorem hexNumber_digits (k n : ℕ) :
    hexNumber ((Text.hexDigits k n).map codePoint) = n % 16 ^ k := by
  have hdigit : ∀ d < 16, (if (codePoint (Text.hexDigit d)).val < 58 then
      (codePoint (Text.hexDigit d)).val - 48 else (codePoint (Text.hexDigit d)).val - 87) = d := by
    decide
  induction k generalizing n with
  | zero =>
    rw [pow_zero, Nat.mod_one]
    rfl
  | succ k ih =>
    have hmod : n % 16 < 16 := Nat.mod_lt n (by decide)
    rw [Text.hexDigits, List.map_append, hexNumber, List.foldl_append, ← hexNumber, ih,
      List.map_singleton, List.foldl_cons, List.foldl_nil, hdigit _ hmod, pow_succ']
    rw [Nat.mod_mul, mul_comm, Nat.add_comm]

/-- A UUID that has been written is read back. -/
theorem readUuid_str (u : UUID) : readUuid (.str (lit u.str)) = .ok u := by
  have hdigits : (lit u.str).filter (· ≠ 45) = (Text.hexDigits 32 u.toNat).map codePoint := by
    rw [lit, UUID.str, String.toList_ofList, List.filter_map, ← UUID.filter_chars]
    refine congrArg _ (List.filter_congr fun c _ ↦ ?_)
    have hhyphen : (45 : CodePoint) = codePoint '-' := by decide
    simp [hhyphen, codePoint_injective.eq_iff]
  have hvalue : (⟨BitVec.ofNat 128 (hexNumber ((lit u.str).filter (· ≠ 45)))⟩ : UUID) = u := by
    rw [hdigits, hexNumber_digits, Nat.mod_eq_of_lt u.toNat_lt]
    exact congrArg UUID.mk (BitVec.ofNat_toNat ..)
  rw [readUuid, hvalue, require_of rfl, ok_bind]

/-- A list, each item of which is read with `read`. -/
def readList {α : Type} (least most : ℕ) (read : Json → Except ValidationError α) :
    Json → Except ValidationError (List α)
  | .array values => do
    require (least ≤ values.length ∧ values.length ≤ most) .invalid
    values.mapM read
  | _ => .error .invalid

/-- An object with exactly these fields. -/
def readRecord (names : List String) : Json → Except ValidationError Fields
  | .object fields => do
    require (ExactKeys names fields) .invalid
    .ok fields
  | _ => .error .invalid

theorem readRecord_of {names : List String} {fields : Fields} (h : ExactKeys names fields) :
    readRecord names (.object fields) = .ok fields := by
  rw [readRecord, require_of h, ok_bind]

theorem readNatural_ofNat {least n m : ℕ} :
    readNatural least (.int (n : ℤ)) = .ok m ↔ least ≤ n ∧ n = m := by
  change readNatural least (.int (.ofNat n)) = _ ↔ _
  rw [readNatural, require_bind_eq_ok, Except.ok.injEq]

/-- Values that are read one by one, each exactly when it fits. -/
theorem mapM_map_eq_ok {α β ε : Type} {write : α → Json} {read : Json → Except ε β} {fits : α → Prop}
    {view : α → β} {xs : List α} {ys : List β}
    (h : ∀ x ∈ xs, ∀ y, read (write x) = .ok y ↔ fits x ∧ view x = y) :
    (xs.map write).mapM read = .ok ys ↔ (∀ x ∈ xs, fits x) ∧ xs.map view = ys := by
  induction xs generalizing ys with
  | nil =>
    rw [List.map_nil, List.mapM_nil, pure_eq_ok]
    exact (and_iff_right (List.forall_mem_nil _)).symm
  | cons x xs ih =>
    obtain ⟨hx, hxs⟩ := List.forall_mem_cons.mp h
    rw [List.map_cons, List.mapM_cons, bind_eq_ok, List.forall_mem_cons, List.map_cons]
    constructor
    · rintro ⟨y, hy, hrest⟩
      obtain ⟨ys', hys', heq⟩ := bind_eq_ok.mp hrest
      obtain ⟨hfits, rfl⟩ := (hx y).mp hy
      obtain ⟨hall, rfl⟩ := (ih hxs).mp hys'
      exact ⟨⟨hfits, hall⟩, pure_eq_ok.mp heq⟩
    · rintro ⟨⟨hfits, hall⟩, rfl⟩
      exact ⟨_, (hx _).mpr ⟨hfits, rfl⟩, bind_eq_ok.mpr ⟨_, (ih hxs).mpr ⟨hall, rfl⟩, rfl⟩⟩

theorem readList_eq_ok {α : Type} {least most : ℕ} {read : Json → Except ValidationError α}
    {values : List Json} {rows : List α} :
    readList least most read (.array values) = .ok rows ↔
      (least ≤ values.length ∧ values.length ≤ most) ∧ values.mapM read = .ok rows :=
  require_bind_eq_ok

theorem readText_eq_ok {least most : ℕ} {s t : Str} :
    readText least most (.str s) = .ok t ↔
      (least ≤ (trim s).length ∧ (trim s).length ≤ most) ∧ trim s = t := by
  rw [readText, require_bind_eq_ok, Except.ok.injEq]

end Wire

end Py
