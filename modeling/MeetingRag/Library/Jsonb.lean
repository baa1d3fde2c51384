import MeetingRag.Library.JsonText
import MeetingRag.Library.Utf8

/-!
# The text of a `jsonb` value

A column of type `jsonb` prints its value with a space behind every comma and colon, with the shorter
keys of an object first, and with numbers written out: it has no exponents. `json.dumps` with
`separators=(",", ":")` leaves the spaces out, keeps the order of the keys, and writes a `float` as
`repr` does.

The order of the keys does not matter to the size, so the two sizes differ by the number of commas and
colons and by what the numbers grow (`octetLength_jsonbText`).
-/

namespace Py

/-- `octet_length(text)`, which is `len(text.encode())`. -/
def octetLength (s : Str) : ℕ := (encodeUtf8 s).length

@[simp] theorem octetLength_append (s t : Str) : octetLength (s ++ t) = octetLength s + octetLength t := by
  rw [octetLength, encodeUtf8, List.flatMap_append, List.length_append]
  rfl

theorem octetLength_cons (c : CodePoint) (s : Str) : octetLength (c :: s) = octetLength [c] + octetLength s :=
  octetLength_append [c] s

/-- The parts of a text, with a separator between them. -/
def joinText (sep : Str) : List Str → Str
  | [] => []
  | [s] => s
  | s :: t :: rest => s ++ sep ++ joinText sep (t :: rest)

/-- The separators are counted once for each part but the first. -/
theorem octetLength_joinText (sep : Str) (parts : List Str) :
    octetLength (joinText sep parts) =
      (parts.map octetLength).sum + (parts.length - 1) * octetLength sep := by
  induction parts with
  | nil => simp [joinText, octetLength, encodeUtf8]
  | cons s rest ih =>
    cases rest with
    | nil => simp [joinText]
    | cons t rest =>
      have hsum : ((s :: t :: rest).map octetLength).sum =
          octetLength s + ((t :: rest).map octetLength).sum := List.sum_cons
      have hlength : (s :: t :: rest).length - 1 = (t :: rest).length - 1 + 1 := rfl
      rw [joinText, octetLength_append, octetLength_append, ih, hsum, hlength, Nat.succ_mul]
      omega

namespace Jsonb

/-- A string in quotes. -/
def quoted (s : Str) : Str := 34 :: s.flatMap escaped ++ [34]

def intText (n : ℤ) : Str := numeralText ⟨decide (n < 0), decimalDigits n.natAbs, [], none⟩

/-- The number that an exponent stands for. -/
def exponentOf : Option (Bool × List ℕ) → ℤ
  | none => 0
  | some (true, ds) => -(digitsValue ds : ℤ)
  | some (false, ds) => digitsValue ds

/-- A numeral without its exponent, as `numeric` prints it: the point moves among the digits, and zeros
fill up what is missing on either side. -/
def numericOf (x : Numeral) : Numeral :=
  let digits := x.whole ++ x.fraction
  let point := x.whole.length + exponentOf x.exponent
  if x.exponent = none then x
  else if point ≤ 0 then ⟨x.negative, [0], List.replicate (-point).toNat 0 ++ digits, none⟩
  else ⟨x.negative, digits.take point.toNat ++ List.replicate (point.toNat - digits.length) 0,
    digits.drop point.toNat, none⟩

/-- `json.dumps` of a `float`. -/
def floatText : PyFloat → Str
  | .finite q => numeralText (floatRepr q)
  | .nan => lit "NaN"
  | .inf => lit "Infinity"
  | .negInf => lit "-Infinity"

/-- A finite `float` in a column. -/
def numericText : PyFloat → Str
  | .finite q => numeralText (numericOf (floatRepr q))
  | x => floatText x

mutual

/-- `json.dumps(value, ensure_ascii=False, separators=(",", ":"))`. -/
def compactText : Json → Str
  | .null => lit "null"
  | .bool b => lit (if b then "true" else "false")
  | .int n => intText n
  | .float x => floatText x
  | .str s => quoted s
  | .array items => [91] ++ joinText [44] (compactItems items) ++ [93]
  | .object fields => [123] ++ joinText [44] (compactMembers fields) ++ [125]

def compactItems : List Json → List Str
  | [] => []
  | v :: items => compactText v :: compactItems items

def compactMembers : Fields → List Str
  | [] => []
  | (key, v) :: fields => (quoted key ++ [58] ++ compactText v) :: compactMembers fields

end

/-- The order of the keys in an object: the shorter first, and then byte by byte. -/
def KeyOrder (a b : Str) : Prop :=
  octetLength a < octetLength b ∨ octetLength a = octetLength b ∧ a ≤ b

instance (a b : Str) : Decidable (KeyOrder a b) := inferInstanceAs (Decidable (_ ∨ _))

/-- A member of an object in a column. -/
def memberText (p : Str × Str) : Str := quoted p.1 ++ [58, 32] ++ p.2

mutual

/-- `value::text`, for a value with distinct keys. -/
def jsonbText : Json → Str
  | .null => lit "null"
  | .bool b => lit (if b then "true" else "false")
  | .int n => intText n
  | .float x => numericText x
  | .str s => quoted s
  | .array items => [91] ++ joinText [44, 32] (jsonbItems items) ++ [93]
  | .object fields => [123] ++ joinText [44, 32]
      (((jsonbMembers fields).insertionSort fun p q ↦ KeyOrder p.1 q.1).map memberText) ++ [125]

def jsonbItems : List Json → List Str
  | [] => []
  | v :: items => jsonbText v :: jsonbItems items

def jsonbMembers : Fields → List (Str × Str)
  | [] => []
  | (key, v) :: fields => (key, jsonbText v) :: jsonbMembers fields

end

mutual

/-- The number of commas and colons between the parts of a value. -/
def separators : Json → ℕ
  | .array items => (items.length - 1) + itemSeparators items
  | .object fields => (fields.length - 1) + memberSeparators fields
  | _ => 0

def itemSeparators : List Json → ℕ
  | [] => 0
  | v :: items => separators v + itemSeparators items

def memberSeparators : Fields → ℕ
  | [] => 0
  | (_, v) :: fields => (1 + separators v) + memberSeparators fields

end

/-- What a number takes in a column more than `json.dumps` writes. -/
def floatGrowth (x : PyFloat) : ℤ := octetLength (numericText x) - octetLength (floatText x)

mutual

/-- What the numbers of a value take more in a column. -/
def growth : Json → ℤ
  | .float x => floatGrowth x
  | .array items => itemGrowth items
  | .object fields => memberGrowth fields
  | _ => 0

def itemGrowth : List Json → ℤ
  | [] => 0
  | v :: items => growth v + itemGrowth items

def memberGrowth : Fields → ℤ
  | [] => 0
  | (_, v) :: fields => growth v + memberGrowth fields

end

theorem length_compactItems (items : List Json) : (compactItems items).length = items.length := by
  induction items with
  | nil => rfl
  | cons v items ih => rw [compactItems, List.length_cons, ih, List.length_cons]

theorem length_compactMembers (fields : Fields) : (compactMembers fields).length = fields.length := by
  induction fields with
  | nil => rfl
  | cons p fields ih => rw [compactMembers, List.length_cons, ih, List.length_cons]

theorem length_jsonbItems (items : List Json) : (jsonbItems items).length = items.length := by
  induction items with
  | nil => rfl
  | cons v items ih => rw [jsonbItems, List.length_cons, ih, List.length_cons]

theorem length_jsonbMembers (fields : Fields) : (jsonbMembers fields).length = fields.length := by
  induction fields with
  | nil => rfl
  | cons p fields ih => rw [jsonbMembers, List.length_cons, ih, List.length_cons]

/-- The members of an object take the same space in any order. -/
theorem sum_sorted (members : List (Str × Str)) :
    (((members.insertionSort fun p q ↦ KeyOrder p.1 q.1).map memberText).map octetLength).sum =
      ((members.map memberText).map octetLength).sum :=
  (((List.perm_insertionSort _ members).map memberText).map octetLength).sum_eq

/-- **The size in a column** is the size that `json.dumps` writes, a space for every comma and colon, and
what the numbers grow. -/
theorem octetLength_jsonbText (v : Json) :
    (octetLength (jsonbText v) : ℤ) = octetLength (compactText v) + separators v + growth v := by
  have hcomma : octetLength [44, 32] = 2 := by decide
  have hcomma' : octetLength [44] = 1 := by decide
  have hcolon : octetLength [58, 32] = 2 := by decide
  have hcolon' : octetLength [58] = 1 := by decide
  induction v with
  | null => simp [jsonbText, compactText, separators, growth]
  | bool b => simp [jsonbText, compactText, separators, growth]
  | int n => simp [jsonbText, compactText, separators, growth]
  | float x =>
    simp only [jsonbText, compactText, separators, growth, floatGrowth]
    omega
  | str s => simp [jsonbText, compactText, separators, growth]
  | array items ih =>
    have hitems : (((jsonbItems items).map octetLength).sum : ℤ) =
        ((compactItems items).map octetLength).sum + itemSeparators items + itemGrowth items := by
      induction items with
      | nil => rfl
      | cons v items hind =>
        obtain ⟨hv, hrest⟩ := List.forall_mem_cons.mp ih
        have hsum := hind hrest
        simp only [jsonbItems, compactItems, itemSeparators, itemGrowth, List.map_cons, List.sum_cons]
        simp only [Nat.cast_add]
        linarith
    rw [jsonbText, compactText, separators, growth]
    simp only [octetLength_append, octetLength_joinText, length_jsonbItems, length_compactItems, hcomma,
      hcomma']
    simp only [Nat.cast_add, Nat.cast_mul, Nat.cast_ofNat, Nat.cast_one]
    linarith
  | object fields ih =>
    have hmembers : ((((jsonbMembers fields).map memberText).map octetLength).sum : ℤ) =
        ((compactMembers fields).map octetLength).sum + memberSeparators fields +
          memberGrowth fields := by
      induction fields with
      | nil => rfl
      | cons p fields hind =>
        obtain ⟨hv, hrest⟩ := List.forall_mem_cons.mp ih
        have hsum := hind hrest
        simp only [jsonbMembers, compactMembers, memberSeparators, memberGrowth, List.map_cons,
          List.sum_cons, memberText, octetLength_append, hcolon, hcolon']
        simp only [Nat.cast_add, Nat.cast_ofNat, Nat.cast_one]
        linarith
    rw [jsonbText, compactText, separators, growth]
    simp only [octetLength_append, octetLength_joinText, List.length_map, List.length_insertionSort,
      length_jsonbMembers, length_compactMembers, hcomma, hcomma', sum_sorted]
    simp only [Nat.cast_add, Nat.cast_mul, Nat.cast_ofNat, Nat.cast_one]
    linarith

end Jsonb

end Py
