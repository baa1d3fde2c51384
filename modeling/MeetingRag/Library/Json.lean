import MeetingRag.Library.Decimal
import MeetingRag.Library.Outcome
import MeetingRag.Library.Str

/-!
# JSON values in Python

What `json.loads` returns, and the parts of Python by which a program inspects it: equality, where
`True == 1 == 1.0`; membership in a set of texts, which raises for an unhashable value; and finiteness,
which raises for an integer that no `float` can hold.
-/

open Outcome

namespace Py

/-- An exception. A `ValueError` carries its message, and three of its subclasses are told apart. -/
inductive Exc
  | valueError (message : String)
  | unicodeDecodeError
  | unicodeEncodeError
  | jsonDecodeError
  | typeError
  | keyError
  | overflowError
  | recursionError
deriving DecidableEq, Repr

/-- `except ValueError` catches the exception. -/
def Exc.IsValueError : Exc → Prop
  | .valueError _ | .unicodeDecodeError | .unicodeEncodeError | .jsonDecodeError => True
  | .typeError | .keyError | .overflowError | .recursionError => False

instance : DecidablePred Exc.IsValueError := fun e ↦ by
  unfold Exc.IsValueError
  split <;> infer_instance

/-- The exception gets past `except ValueError`. -/
def Exc.Uncaught (e : Exc) : Prop := ¬e.IsValueError

@[simp] theorem not_uncaught_valueError (message : String) : ¬(Exc.valueError message).Uncaught :=
  fun h ↦ h trivial

/-- Raise a `ValueError` unless `c` holds. -/
def check (c : Prop) [Decidable c] (message : String) : Except Exc Unit :=
  require c (.valueError message)

@[simp] theorem check_eq_ok {c : Prop} [Decidable c] {message : String} {w : Unit} :
    check c message = .ok w ↔ c := require_eq_ok

theorem check_bind_eq_ok {α : Type} {c : Prop} [Decidable c] {message : String}
    {f : Unit → Except Exc α} {a : α} : check c message >>= f = .ok a ↔ c ∧ f () = .ok a :=
  require_bind_eq_ok

theorem not_raises_check {c : Prop} [Decidable c] {message : String} :
    ¬Raises Exc.Uncaught (check c message) :=
  not_raises_require (not_uncaught_valueError message)

theorem raises_check_bind {α : Type} {c : Prop} [Decidable c] {message : String}
    {f : Unit → Except Exc α} :
    Raises Exc.Uncaught (check c message >>= f) ↔ c ∧ Raises Exc.Uncaught (f ()) :=
  raises_require_bind (not_uncaught_valueError message)

/-- A JSON value. An object lists its fields in order; a lookup takes the first of a name. -/
inductive Json
  | null
  | bool (b : Bool)
  | int (n : ℤ)
  | float (x : PyFloat)
  | str (s : Str)
  | array (items : List Json)
  | object (fields : List (Str × Json))
deriving Repr

/-- The fields of an object. -/
abbrev Fields := List (Str × Json)

namespace Json

/-- Induction over a value: an array or an object has the property when its parts do. -/
@[induction_eliminator]
theorem induct {motive : Json → Prop} (null : motive .null) (bool : ∀ b, motive (.bool b))
    (int : ∀ n, motive (.int n)) (float : ∀ x, motive (.float x)) (str : ∀ s, motive (.str s))
    (array : ∀ items, (∀ v ∈ items, motive v) → motive (.array items))
    (object : ∀ fields, (∀ p ∈ fields, motive p.2) → motive (.object fields)) (v : Json) : motive v :=
  @Json.rec motive (fun items ↦ ∀ v ∈ items, motive v) (fun fields ↦ ∀ p ∈ fields, motive p.2)
    (fun p ↦ motive p.2) null bool int float str (fun items ih ↦ array items ih)
    (fun fields ih ↦ object fields ih) (List.forall_mem_nil _)
    (fun _ _ hv hitems ↦ List.forall_mem_cons.mpr ⟨hv, hitems⟩) (List.forall_mem_nil _)
    (fun _ _ hp hfields ↦ List.forall_mem_cons.mpr ⟨hp, hfields⟩) (fun _ _ hv ↦ hv) v

/-- `isinstance(value, bool)`. -/
def isBool : Json → Bool
  | .bool _ => true
  | _ => false

/-- `value == n` for an integer. -/
def EqInt (n : ℤ) : Json → Prop
  | .bool b => (if b then 1 else 0) = n
  | .int m => m = n
  | .float (.finite q) => q = n
  | _ => False

/-- `value == s` for a text. -/
def EqStr (s : Str) : Json → Prop
  | .str t => t = s
  | _ => False

instance (n : ℤ) : DecidablePred (EqInt n) := fun v ↦ by
  unfold EqInt
  split <;> infer_instance

instance (s : Str) : DecidablePred (EqStr s) := fun v ↦ by
  unfold EqStr
  split <;> infer_instance

theorem isBool_iff {v : Json} : v.isBool = true ↔ ∃ b, v = .bool b := by
  cases v <;> simp [isBool]

theorem eqStr_iff {s : Str} {v : Json} : EqStr s v ↔ v = .str s := by
  cases v <;> simp [EqStr]

/-- The value is one of the texts. -/
def OneOf (texts : List String) : Json → Prop
  | .str s => ∃ t ∈ texts, s = lit t
  | _ => False

instance (texts : List String) : DecidablePred (OneOf texts) := fun v ↦ by
  unfold OneOf
  split <;> infer_instance

theorem exists_str_of_oneOf {texts : List String} {v : Json} (h : v.OneOf texts) : ∃ s, v = .str s := by
  cases v with
  | str s => exact ⟨s, rfl⟩
  | _ => exact h.elim

/-- A list or a dict, which no set can hold. -/
def Unhashable : Json → Prop
  | .array _ | .object _ => True
  | _ => False

instance : DecidablePred Unhashable := fun v ↦ by
  unfold Unhashable
  split <;> infer_instance

/-- `value in texts` for a set. -/
def isIn (texts : List String) (v : Json) : Except Exc Bool :=
  if v.Unhashable then .error .typeError else .ok (decide (v.OneOf texts))

/-- `fields.get(name)`. -/
def get (fields : Fields) (name : String) : Json :=
  ((fields.find? fun p ↦ p.1 = lit name).map (·.2)).getD .null

/-- `name in fields`. -/
def Has (fields : Fields) (name : String) : Prop := ∃ p ∈ fields, p.1 = lit name

instance (fields : Fields) (name : String) : Decidable (Has fields name) :=
  inferInstanceAs (Decidable (∃ p ∈ fields, p.1 = lit name))

/-- `fields[name]`. -/
def getItem (fields : Fields) (name : String) : Except Exc Json :=
  if Has fields name then .ok (get fields name) else .error .keyError

/-- `set(fields) <= names`. -/
def KeysIn (names : List String) (fields : Fields) : Prop := ∀ p ∈ fields, ∃ n ∈ names, p.1 = lit n

instance (names : List String) : DecidablePred (KeysIn names) := fun fields ↦
  inferInstanceAs (Decidable (∀ p ∈ fields, ∃ n ∈ names, p.1 = lit n))

/-- `set(fields) == names`. -/
def ExactKeys (names : List String) (fields : Fields) : Prop :=
  KeysIn names fields ∧ ∀ n ∈ names, Has fields n

instance (names : List String) : DecidablePred (ExactKeys names) := fun fields ↦
  inferInstanceAs (Decidable (KeysIn names fields ∧ ∀ n ∈ names, Has fields n))

/-- A dict display. -/
def obj (fields : List (String × Json)) : Fields := fields.map fun p ↦ (lit p.1, p.2)

theorem keys_obj (fields : List (String × Json)) :
    (obj fields).map Prod.fst = (fields.map Prod.fst).map lit := by
  rw [obj, List.map_map, List.map_map]
  rfl

@[simp] theorem get_obj_nil (name : String) : get (obj []) name = .null := rfl

@[simp] theorem get_obj_cons (name name' : String) (v : Json) (fields : List (String × Json)) :
    get (obj ((name, v) :: fields)) name' = if name = name' then v else get (obj fields) name' := by
  by_cases h : name = name'
  · simp [get, obj, h]
  · simp [get, obj, h]

theorem has_obj {fields : List (String × Json)} {name : String} :
    Has (obj fields) name ↔ name ∈ fields.map Prod.fst := by
  simp [Has, obj]

theorem keysIn_obj {fields : List (String × Json)} {names : List String} :
    KeysIn names (obj fields) ↔ ∀ k ∈ fields.map Prod.fst, k ∈ names := by
  rw [KeysIn, obj, List.forall_mem_map, List.forall_mem_map]
  refine forall₂_congr fun f _ ↦ ?_
  simp

/-- The keys of a dict display are those that it shows. -/
theorem exactKeys_obj {fields : List (String × Json)} {names : List String}
    (h : fields.map Prod.fst = names) : ExactKeys names (obj fields) :=
  ⟨keysIn_obj.mpr fun _ hk ↦ h ▸ hk, fun _ hn ↦ has_obj.mpr (h ▸ hn)⟩

theorem isIn_eq_ok_true {texts : List String} {v : Json} :
    isIn texts v = .ok true ↔ v.OneOf texts := by
  by_cases h : v.Unhashable
  · rw [isIn, if_pos h]
    refine iff_of_false (fun herror ↦ nomatch herror) fun hone ↦ ?_
    cases v with
    | str s => exact h
    | _ => exact hone
  · rw [isIn, if_neg h, Except.ok.injEq, decide_eq_true_iff]

theorem raises_isIn {texts : List String} {v : Json} :
    Raises Exc.Uncaught (isIn texts v) ↔ v.Unhashable := by
  by_cases h : v.Unhashable
  · rw [isIn, if_pos h, raises_error]
    exact iff_of_true (fun hcaught ↦ hcaught) h
  · rw [isIn, if_neg h]
    exact iff_of_false not_raises_ok h

/-- The fields of an object, or a `ValueError`. -/
def asObject (message : String) : Json → Except Exc Fields
  | .object fields => .ok fields
  | _ => .error (.valueError message)

theorem asObject_eq_ok {message : String} {v : Json} {fields : Fields} :
    asObject message v = .ok fields ↔ v = .object fields := by
  cases v <;> simp [asObject]

theorem not_raises_asObject {message : String} {v : Json} :
    ¬Raises Exc.Uncaught (asObject message v) := by
  cases v <;> simp [asObject]

/-- The items of an array, or a `ValueError`. -/
def asArray (message : String) : Json → Except Exc (List Json)
  | .array items => .ok items
  | _ => .error (.valueError message)

theorem asArray_eq_ok {message : String} {v : Json} {items : List Json} :
    asArray message v = .ok items ↔ v = .array items := by
  cases v <;> simp [asArray]

theorem not_raises_asArray {message : String} {v : Json} :
    ¬Raises Exc.Uncaught (asArray message v) := by
  cases v <;> simp [asArray]

theorem getItem_of_has {fields : Fields} {name : String} (h : Has fields name) :
    getItem fields name = .ok (get fields name) := if_pos h

theorem has_of_get_ne_null {fields : Fields} {name : String} (h : get fields name ≠ .null) :
    Has fields name := by
  cases hfind : fields.find? fun p ↦ p.1 = lit name with
  | none =>
    rw [get, hfind] at h
    exact absurd rfl h
  | some p =>
    have hname := List.find?_some hfind
    exact ⟨p, List.mem_of_find?_eq_some hfind, of_decide_eq_true hname⟩

/-! ## Numbers -/

/-- An integer that no `float` can hold. -/
def HugeInt (n : ℤ) : Prop := (ofRat n).isFinite = false

instance : DecidablePred HugeInt := fun n ↦ inferInstanceAs (Decidable ((ofRat n).isFinite = false))

/-- A huge integer, the value on which `math.isfinite` raises. -/
def Overflows : Json → Prop
  | .int n => HugeInt n
  | _ => False

instance : DecidablePred Overflows := fun v ↦ by
  unfold Overflows
  split <;> infer_instance

/-- A number of the unit interval, and no boolean. -/
def unit? : Json → Option ℚ
  | .int n => if 0 ≤ n ∧ n ≤ 1 then some n else none
  | .float (.finite q) => if 0 ≤ q ∧ q ≤ 1 then some q else none
  | _ => none

/-- The check of a number of the unit interval:
`isinstance(v, bool) or not isinstance(v, (int, float)) or not math.isfinite(v) or not 0 <= v <= 1`. -/
def requireUnit (message : String) : Json → Except Exc ℚ
  | .int n =>
    if HugeInt n then .error .overflowError
    else if 0 ≤ n ∧ n ≤ 1 then .ok n else .error (.valueError message)
  | .float (.finite q) => if 0 ≤ q ∧ q ≤ 1 then .ok q else .error (.valueError message)
  | _ => .error (.valueError message)

theorem not_hugeInt_of_unit {n : ℤ} (h : 0 ≤ n ∧ n ≤ 1) : ¬HugeInt n := by
  rw [HugeInt, ofRat_of_mem_unit (Int.cast_nonneg h.1) (by exact_mod_cast h.2)]
  exact Bool.noConfusion

theorem requireUnit_eq_ok {message : String} {v : Json} {q : ℚ} :
    requireUnit message v = .ok q ↔ unit? v = some q := by
  cases v with
  | int n =>
    by_cases hunit : 0 ≤ n ∧ n ≤ 1
    · simp [requireUnit, unit?, hunit, not_hugeInt_of_unit hunit]
    · by_cases hhuge : HugeInt n <;> simp [requireUnit, unit?, hunit, hhuge]
  | float x =>
    cases x with
    | finite q => by_cases hunit : 0 ≤ q ∧ q ≤ 1 <;> simp [requireUnit, unit?, hunit]
    | _ => simp [requireUnit, unit?]
  | _ => simp [requireUnit, unit?]

theorem raises_requireUnit {message : String} {v : Json} :
    Raises Exc.Uncaught (requireUnit message v) ↔ Overflows v := by
  cases v with
  | int n =>
    by_cases hhuge : HugeInt n
    · simp [requireUnit, Overflows, hhuge, Exc.Uncaught, Exc.IsValueError]
    · by_cases hunit : 0 ≤ n ∧ n ≤ 1 <;> simp [requireUnit, Overflows, hhuge, hunit]
  | float x =>
    cases x with
    | finite q => by_cases hunit : 0 ≤ q ∧ q ≤ 1 <;> simp [requireUnit, Overflows, hunit]
    | _ => simp [requireUnit, Overflows]
  | _ => simp [requireUnit, Overflows]

/-- Nothing of the unit interval overflows. -/
theorem not_overflows_of_unit {v : Json} {q : ℚ} (h : unit? v = some q) : ¬Overflows v := fun ho ↦
  not_raises_of_ok (requireUnit_eq_ok.mpr h) ((@raises_requireUnit "" v).mpr ho)

/-- What follows the check of a number runs only when the check passes. -/
theorem raises_requireUnit_bind {α : Type} {message : String} {v : Json} {f : ℚ → Except Exc α} :
    Raises Exc.Uncaught (requireUnit message v >>= f) ↔
      Overflows v ∨ ∃ q, unit? v = some q ∧ Raises Exc.Uncaught (f q) := by
  rw [raises_bind, raises_requireUnit]
  simp only [requireUnit_eq_ok]

end Json

end Py
