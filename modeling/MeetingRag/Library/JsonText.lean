import Mathlib.Data.List.Sort
import MeetingRag.Library.Json

/-!
# JSON text

`json.loads` and `json.dumps`, on text. A text is cut into tokens, and a stack machine reads them: an
array or an object that is open is a frame of the stack, so the height of the stack is the nesting
depth that the interpreter bounds. Errors come in the order of the text, which matters where a caller
catches some of them only: a numeral of more than 4300 digits is a `ValueError` but no
`JSONDecodeError`, and an object that nests too deeply is neither.

`dumps` writes the canonical form: sorted keys, no space, and only the escapes that JSON demands. What
it writes, `loads` reads back (`loads_dumps`).
-/

open Outcome

namespace Py

/-! ## Tokens -/

/-- The numbers that JSON does not have. -/
inductive Constant
  | nan | infinity | negInfinity
deriving DecidableEq

inductive Token
  | openBracket | closeBracket | openBrace | closeBrace | comma | colon
  | null | true | false
  | string (s : Str)
  | number (x : Numeral)
  | constant (c : Constant)
  | bad
deriving DecidableEq

/-- A digit of a numeral. -/
def digit? (c : CodePoint) : Option ℕ := if 48 ≤ c.val ∧ c.val ≤ 57 then some (c.val - 48) else none

/-- The digits at the start of a text. -/
def spanDigits : Str → List ℕ
  | [] => []
  | c :: rest =>
    match digit? c with
    | some d => d :: spanDigits rest
    | none => []

/-- The value of a hexadecimal digit. -/
def hex? (c : CodePoint) : Option ℕ :=
  if 48 ≤ c.val ∧ c.val ≤ 57 then some (c.val - 48)
  else if 97 ≤ c.val ∧ c.val ≤ 102 then some (c.val - 87)
  else if 65 ≤ c.val ∧ c.val ≤ 70 then some (c.val - 55)
  else none

/-- The code unit of an escape `\uXXXX`. -/
def unit16 (a b c d : CodePoint) : Option ℕ := do
  let w ← hex? a
  let x ← hex? b
  let y ← hex? c
  let z ← hex? d
  some (w * 0x1000 + x * 0x100 + y * 0x10 + z)

/-- A code unit as a code point. -/
def ofUnit (n : ℕ) : CodePoint := Fin.ofNat 0x110000 n

/-- The character that an escape of two characters stands for. -/
def escape? (c : CodePoint) : Option CodePoint :=
  if c = 34 ∨ c = 92 ∨ c = 47 then some c
  else if c = 98 then some 8
  else if c = 102 then some 12
  else if c = 110 then some 10
  else if c = 114 then some 13
  else if c = 116 then some 9
  else none

/-- Two code units that are a surrogate pair. -/
def surrogatePair? (u v : ℕ) : Option CodePoint :=
  if 0xD800 ≤ u ∧ u ≤ 0xDBFF ∧ 0xDC00 ≤ v ∧ v ≤ 0xDFFF then
    some (ofUnit (0x10000 + (u - 0xD800) * 0x400 + (v - 0xDC00)))
  else none

/-- The low surrogate escaped at the start of a text, joined with a high one. -/
def joinSurrogate (u : ℕ) : Str → Option CodePoint
  | 92 :: 117 :: a :: b :: c :: d :: _ => (unit16 a b c d).bind (surrogatePair? u)
  | _ => none

/-- The escape after a backslash, and how many characters it takes. A pair of escaped surrogates is one
code point, and a lone one stays. -/
def escapeAt : Str → Option (CodePoint × ℕ)
  | 117 :: a :: b :: c :: d :: rest => do
    let u ← unit16 a b c d
    match joinSurrogate u rest with
    | some c => some (c, 11)
    | none => some (ofUnit u, 5)
  | e :: _ => do
    let c ← escape? e
    some (c, 1)
  | [] => none

/-- The first character of a string, and how many characters it takes beside the first. -/
def stringChar : Str → Option (CodePoint × ℕ)
  | [] => none
  | c :: rest =>
    if c.val < 32 then none
    else if c = 92 then escapeAt rest
    else some (c, 0)

/-- The rest of a string after its opening quote, of which `k` characters have been read already: the
text, and how many characters it takes with the closing quote. -/
def stringBody : Str → ℕ → Option (Str × ℕ)
  | [], _ => none
  | _ :: rest, k + 1 => (stringBody rest k).map fun r ↦ (r.1, r.2 + 1)
  | c :: rest, 0 =>
    if c = 34 then some ([], 1)
    else do
      let (d, k) ← stringChar (c :: rest)
      (stringBody rest k).map fun r ↦ (d :: r.1, r.2 + 1)

/-- The digits before the point: one zero, or digits that do not start with one. -/
def wholeDigits (s : Str) : List ℕ :=
  match spanDigits s with
  | 0 :: _ => [0]
  | ds => ds

/-- The point and the digits after it, if any follow. -/
def fractionDigits : Str → List ℕ
  | 46 :: rest => spanDigits rest
  | _ => []

/-- The sign of an exponent, and how many characters it takes with its letter. -/
def exponentSign : Str → Option (Bool × ℕ)
  | e :: s :: _ =>
    if e = 101 ∨ e = 69 then
      some (if s = 45 then (Bool.true, 2) else if s = 43 then (Bool.false, 2) else (Bool.false, 1))
    else none
  | _ => none

/-- The exponent, if digits follow, and how many characters it takes. -/
def exponentPart (s : Str) : Option (Bool × List ℕ) × ℕ :=
  match exponentSign s with
  | none => (none, 0)
  | some (negative, k) =>
    match spanDigits (s.drop k) with
    | [] => (none, 0)
    | ds => (some (negative, ds), k + ds.length)

/-- The numeral at the start of a text, and how many characters it takes. -/
def numeral (s : Str) : Option (Numeral × ℕ) :=
  let sign := if s.head? = some 45 then 1 else 0
  match wholeDigits (s.drop sign) with
  | [] => none
  | whole =>
    let k := sign + whole.length
    let fraction := fractionDigits (s.drop k)
    let k := if fraction = [] then k else k + fraction.length + 1
    let (exponent, n) := exponentPart (s.drop k)
    some (⟨decide (sign = 1), whole, fraction, exponent⟩, k + n)

/-- The words that JSON spells out. -/
def words : List (String × Token) :=
  [("null", .null), ("true", .true), ("false", .false), ("NaN", .constant .nan),
    ("Infinity", .constant .infinity), ("-Infinity", .constant .negInfinity)]

/-- The token at the start of a text, and how many characters it takes beside the first. -/
def nextToken (s : Str) : Token × ℕ :=
  match s with
  | 91 :: _ => (.openBracket, 0)
  | 93 :: _ => (.closeBracket, 0)
  | 123 :: _ => (.openBrace, 0)
  | 125 :: _ => (.closeBrace, 0)
  | 44 :: _ => (.comma, 0)
  | 58 :: _ => (.colon, 0)
  | 34 :: rest =>
    match stringBody rest 0 with
    | some (text, k) => (.string text, k)
    | none => (.bad, 0)
  | _ =>
    match numeral s, words.find? fun w ↦ lit w.1 <+: s with
    | some (x, k), _ => (.number x, k - 1)
    | none, some w => (w.2, (lit w.1).length - 1)
    | none, none => (.bad, 0)

/-- The space that JSON allows between tokens. -/
def isJsonSpace (c : CodePoint) : Bool := c = 32 || c = 9 || c = 10 || c = 13

/-- The tokens of a text, of which `k` characters have been read already. -/
def lexFrom : Str → ℕ → List Token
  | [], _ => []
  | _ :: rest, k + 1 => lexFrom rest k
  | c :: rest, 0 =>
    if isJsonSpace c then lexFrom rest 0
    else (nextToken (c :: rest)).1 :: lexFrom rest (nextToken (c :: rest)).2

def lex (s : Str) : List Token := lexFrom s 0

/-! ## Reading -/

/-- What a caller of `json.loads` may replace: the making of an object from its pairs, and the numbers
that JSON does not have. -/
structure Hooks where
  object : Fields → Except Exc Fields
  constant : Constant → Except Exc Json

/-- An array or an object that is open. -/
inductive Frame
  | array (items : List Json)
  | object (pairs : Fields)
  | member (pairs : Fields) (key : Str)

/-- What the reader expects. -/
inductive Expect
  | value
  | firstItem
  | firstKey
  | nextKey
  | colon (key : Str)
  | after (v : Json)

/-- What the reader expects, and what is open around it. -/
abbrev Reader := Expect × List Frame

/-- `int(text)` and `float(text)`: an integer of more than 4300 digits is refused. -/
def number (x : Numeral) : Except Exc Json :=
  if x.fraction ≠ [] ∨ x.exponent.isSome then .ok (.float (ofRat x.value))
  else if 4300 < x.whole.length then
    .error (.valueError "Exceeds the limit (4300 digits) for integer string conversion")
  else .ok (.int ((if x.negative then -1 else 1) * digitsValue x.whole))

/-- Open a frame, unless too many are open. -/
def openFrame (limit : ℕ) (next : Expect) (frame : Frame) (stack : List Frame) : Except Exc Reader :=
  if stack.length < limit then .ok (next, frame :: stack) else .error .recursionError

/-- A token where a value is expected. -/
def readValue (hooks : Hooks) (limit : ℕ) (stack : List Frame) : Token → Except Exc Reader
  | .openBracket => openFrame limit .firstItem (.array []) stack
  | .openBrace => openFrame limit .firstKey (.object []) stack
  | .null => .ok (.after .null, stack)
  | .true => .ok (.after (.bool true), stack)
  | .false => .ok (.after (.bool false), stack)
  | .string s => .ok (.after (.str s), stack)
  | .number x => do
    let v ← number x
    .ok (.after v, stack)
  | .constant c => do
    let v ← hooks.constant c
    .ok (.after v, stack)
  | _ => .error .jsonDecodeError

/-- A token after a value. -/
def readAfter (hooks : Hooks) (v : Json) : List Frame → Token → Except Exc Reader
  | .array items :: stack, .comma => .ok (.value, .array (items ++ [v]) :: stack)
  | .array items :: stack, .closeBracket => .ok (.after (.array (items ++ [v])), stack)
  | .member pairs key :: stack, .comma => .ok (.nextKey, .object (pairs ++ [(key, v)]) :: stack)
  | .member pairs key :: stack, .closeBrace => do
    let fields ← hooks.object (pairs ++ [(key, v)])
    .ok (.after (.object fields), stack)
  | _, _ => .error .jsonDecodeError

/-- One token. -/
def readToken (hooks : Hooks) (limit : ℕ) : Reader → Token → Except Exc Reader
  | (.value, stack), t => readValue hooks limit stack t
  | (.firstItem, .array items :: stack), .closeBracket => .ok (.after (.array items), stack)
  | (.firstItem, stack), t => readValue hooks limit stack t
  | (.firstKey, .object pairs :: stack), .closeBrace => do
    let fields ← hooks.object pairs
    .ok (.after (.object fields), stack)
  | (.firstKey, stack), .string key => .ok (.colon key, stack)
  | (.nextKey, stack), .string key => .ok (.colon key, stack)
  | (.colon key, .object pairs :: stack), .colon => .ok (.value, .member pairs key :: stack)
  | (.after v, stack), t => readAfter hooks v stack t
  | _, _ => .error .jsonDecodeError

/-- The value that was read, when nothing is open. -/
def finish : Reader → Except Exc Json
  | (.after v, []) => .ok v
  | _ => .error .jsonDecodeError

/-- `json.loads(text)`: a text that starts with a byte order mark is refused. -/
def loads (hooks : Hooks) (limit : ℕ) (text : Str) : Except Exc Json :=
  if text.head? = some 0xFEFF then .error .jsonDecodeError
  else do
    let reader ← (lex text).foldlM (readToken hooks limit) (.value, [])
    finish reader

/-! ### What a caller may replace -/

section Hooks

variable {hooks hooks' : Hooks} {limit : ℕ}

/-- What is read depends on the values that the hooks return. -/
theorem loads_congr (hobject : ∀ pairs fields, hooks.object pairs = .ok fields ↔ hooks'.object pairs = .ok fields)
    (hconstant : ∀ c v, hooks.constant c = .ok v ↔ hooks'.constant c = .ok v) {text : Str} {v : Json} :
    loads hooks limit text = .ok v ↔ loads hooks' limit text = .ok v := by
  have hvalue : ∀ stack t s, readValue hooks limit stack t = .ok s ↔ readValue hooks' limit stack t = .ok s := by
    intro stack t s
    cases t with
    | constant c => simp only [readValue, bind_eq_ok, hconstant]
    | _ => exact Iff.rfl
  have hafter : ∀ w stack t s, readAfter hooks w stack t = .ok s ↔ readAfter hooks' w stack t = .ok s := by
    intro w stack t s
    unfold readAfter
    split <;> simp only [bind_eq_ok, hobject]
  have htoken : ∀ r t s, readToken hooks limit r t = .ok s ↔ readToken hooks' limit r t = .ok s := by
    intro r t s
    unfold readToken
    split <;> simp only [bind_eq_ok, hobject, hvalue, hafter]
  rw [loads, loads]
  split
  · exact Iff.rfl
  · rw [bind_eq_ok, bind_eq_ok]
    exact exists_congr fun r ↦ and_congr (foldlM_ok_congr htoken) Iff.rfl

/-- What `json.loads` raises without its hooks: `JSONDecodeError`, the `ValueError` of a long numeral,
or `RecursionError`. -/
theorem not_raises_loads {P : Exc → Prop} (hdecode : ¬P .jsonDecodeError) (hrecursion : ¬P .recursionError)
    (hvalue : ∀ message, ¬P (.valueError message)) (hobject : ∀ pairs, ¬Raises P (hooks.object pairs))
    (hconstant : ∀ c, ¬Raises P (hooks.constant c)) (text : Str) : ¬Raises P (loads hooks limit text) := by
  have hopen : ∀ next frame stack, ¬Raises P (openFrame limit next frame stack) := by
    intro next frame stack
    rw [openFrame]
    split
    · exact not_raises_ok
    · exact raises_error.not.mpr hrecursion
  have hnumber : ∀ x, ¬Raises P (number x) := by
    intro x
    rw [number]
    split
    · exact not_raises_ok
    split
    · exact raises_error.not.mpr (hvalue _)
    · exact not_raises_ok
  have hread : ∀ stack t, ¬Raises P (readValue hooks limit stack t) := by
    intro stack t
    cases t with
    | openBracket => exact hopen _ _ _
    | openBrace => exact hopen _ _ _
    | number x => exact not_raises_bind (hnumber x) fun _ _ ↦ not_raises_ok
    | constant c => exact not_raises_bind (hconstant c) fun _ _ ↦ not_raises_ok
    | null => exact not_raises_ok
    | true => exact not_raises_ok
    | false => exact not_raises_ok
    | string s => exact not_raises_ok
    | _ => exact raises_error.not.mpr hdecode
  have hafter : ∀ w stack t, ¬Raises P (readAfter hooks w stack t) := by
    intro w stack t
    unfold readAfter
    split
    · exact not_raises_ok
    · exact not_raises_ok
    · exact not_raises_ok
    · exact not_raises_bind (hobject _) fun _ _ ↦ not_raises_ok
    · exact raises_error.not.mpr hdecode
  have htoken : ∀ r t, ¬Raises P (readToken hooks limit r t) := by
    intro r t
    unfold readToken
    split
    · exact hread _ _
    · exact not_raises_ok
    · exact hread _ _
    · exact not_raises_bind (hobject _) fun _ _ ↦ not_raises_ok
    · exact not_raises_ok
    · exact not_raises_ok
    · exact not_raises_ok
    · exact hafter _ _ _
    · exact raises_error.not.mpr hdecode
  have hfinish : ∀ r, ¬Raises P (finish r) := by
    intro r
    unfold finish
    split
    · exact not_raises_ok
    · exact raises_error.not.mpr hdecode
  rw [loads]
  split
  · exact raises_error.not.mpr hdecode
  · refine not_raises_bind ?_ fun r _ ↦ hfinish r
    rw [raises_foldlM]
    rintro ⟨pre, t, post, r, -, -, hraises⟩
    exact htoken r t hraises

end Hooks

/-- `fields[key] = value`: a key that is there keeps its place. -/
def setItem (fields : Fields) (p : Str × Json) : Fields :=
  if ∃ q ∈ fields, q.1 = p.1 then fields.map fun q ↦ if q.1 = p.1 then p else q else fields ++ [p]

/-- `dict(pairs)`: the last value of a key counts. -/
def dict (pairs : Fields) : Fields := pairs.foldl setItem []

/-- What `json.loads` does without hooks. -/
def defaultHooks : Hooks where
  object pairs := .ok (dict pairs)
  constant
    | .nan => .ok (.float .nan)
    | .infinity => .ok (.float .inf)
    | .negInfinity => .ok (.float .negInf)

/-! ## Writing -/

/-- A digit as a character. -/
def digitChar (d : ℕ) : CodePoint := Fin.ofNat 0x110000 (48 + d)

def fractionText (ds : List ℕ) : Str := if ds = [] then [] else 46 :: ds.map digitChar

def exponentText : Option (Bool × List ℕ) → Str
  | none => []
  | some (negative, ds) => 101 :: (if negative then 45 else 43) :: ds.map digitChar

def numeralText (x : Numeral) : Str :=
  (if x.negative then [45] else []) ++
    (x.whole.map digitChar ++ (fractionText x.fraction ++ exponentText x.exponent))

/-- A lower-case hexadecimal digit. -/
def hexChar (n : ℕ) : CodePoint := Fin.ofNat 0x110000 (if n < 10 then 48 + n else 87 + n)

/-- A character of a string, escaped where JSON demands it. -/
def escaped (c : CodePoint) : Str :=
  if c = 34 ∨ c = 92 then [92, c]
  else if c = 10 then [92, 110]
  else if c = 13 then [92, 114]
  else if c = 9 then [92, 116]
  else if c = 12 then [92, 102]
  else if c = 8 then [92, 98]
  else if c.val < 32 then [92, 117, 48, 48, hexChar (c.val / 16), hexChar (c.val % 16)]
  else [c]

def constantText : Constant → String
  | .nan => "NaN"
  | .infinity => "Infinity"
  | .negInfinity => "-Infinity"

def tokenText : Token → Str
  | .openBracket => [91]
  | .closeBracket => [93]
  | .openBrace => [123]
  | .closeBrace => [125]
  | .comma => [44]
  | .colon => [58]
  | .null => lit "null"
  | .true => lit "true"
  | .false => lit "false"
  | .string s => 34 :: s.flatMap escaped ++ [34]
  | .number x => numeralText x
  | .constant c => lit (constantText c)
  | .bad => []

/-- The fields of an object in the order of their keys. -/
def sortedFields (fields : Fields) : Fields := fields.insertionSort fun p q ↦ p.1 ≤ q.1

mutual

/-- Every object with its keys in order. -/
def sortKeys : Json → Json
  | .array items => .array (sortItems items)
  | .object fields => .object (sortedFields (sortMembers fields))
  | v => v

def sortItems : List Json → List Json
  | [] => []
  | v :: items => sortKeys v :: sortItems items

def sortMembers : Fields → Fields
  | [] => []
  | (key, v) :: fields => (key, sortKeys v) :: sortMembers fields

end

mutual

/-- The tokens that `json.dumps(value, allow_nan=False)` writes, for a value with its keys in order. -/
def tokens : Json → Except Exc (List Token)
  | .null => .ok [.null]
  | .bool b => .ok [if b then .true else .false]
  | .int n =>
    if 4300 < (decimalDigits n.natAbs).length then
      .error (.valueError "Exceeds the limit (4300 digits) for integer string conversion")
    else .ok [.number ⟨decide (n < 0), decimalDigits n.natAbs, [], none⟩]
  | .float (.finite q) => .ok [.number (floatRepr q)]
  | .float _ => .error (.valueError "Out of range float values are not JSON compliant")
  | .str s => .ok [.string s]
  | .array items => do
    let ts ← itemTokens items
    .ok (.openBracket :: ts ++ [.closeBracket])
  | .object fields => do
    let ts ← fieldTokens fields
    .ok (.openBrace :: ts ++ [.closeBrace])

/-- The items of an array, with commas between them. -/
def itemTokens : List Json → Except Exc (List Token)
  | [] => .ok []
  | [v] => tokens v
  | v :: w :: items => do
    let first ← tokens v
    let rest ← itemTokens (w :: items)
    .ok (first ++ .comma :: rest)

/-- The members of an object, with commas between them. -/
def fieldTokens : Fields → Except Exc (List Token)
  | [] => .ok []
  | [(key, v)] => do
    let ts ← tokens v
    .ok (.string key :: .colon :: ts)
  | (key, v) :: field :: fields => do
    let first ← tokens v
    let rest ← fieldTokens (field :: fields)
    .ok (.string key :: .colon :: first ++ .comma :: rest)

end

theorem not_raises_itemTokens {items : List Json}
    (h : ∀ v ∈ items, ¬Raises Exc.Uncaught (tokens v)) : ¬Raises Exc.Uncaught (itemTokens items) := by
  induction items with
  | nil => exact not_raises_ok
  | cons v items ih =>
    obtain ⟨hv, hitems⟩ := List.forall_mem_cons.mp h
    cases items with
    | nil => exact hv
    | cons w items =>
      exact not_raises_bind hv fun _ _ ↦ not_raises_bind (ih hitems) fun _ _ ↦ not_raises_ok

theorem not_raises_fieldTokens {fields : Fields}
    (h : ∀ p ∈ fields, ¬Raises Exc.Uncaught (tokens p.2)) : ¬Raises Exc.Uncaught (fieldTokens fields) := by
  induction fields with
  | nil => exact not_raises_ok
  | cons p fields ih =>
    obtain ⟨hp, hfields⟩ := List.forall_mem_cons.mp h
    cases fields with
    | nil => exact not_raises_bind hp fun _ _ ↦ not_raises_ok
    | cons q fields =>
      exact not_raises_bind hp fun _ _ ↦ not_raises_bind (ih hfields) fun _ _ ↦ not_raises_ok

/-- What cannot be written is a `ValueError`. -/
theorem not_raises_tokens (v : Json) : ¬Raises Exc.Uncaught (tokens v) := by
  induction v with
  | null => exact not_raises_ok
  | bool b => exact not_raises_ok
  | int n =>
    rw [tokens]
    split
    · exact raises_error.not.mpr (not_uncaught_valueError _)
    · exact not_raises_ok
  | float x =>
    cases x with
    | finite q => exact not_raises_ok
    | _ => exact raises_error.not.mpr (not_uncaught_valueError _)
  | str s => exact not_raises_ok
  | array items ih => exact not_raises_bind (not_raises_itemTokens ih) fun _ _ ↦ not_raises_ok
  | object fields ih => exact not_raises_bind (not_raises_fieldTokens ih) fun _ _ ↦ not_raises_ok

/-- `json.dumps(value, ensure_ascii=False, allow_nan=False, sort_keys=True, separators=(",", ":"))`. -/
def dumps (v : Json) : Except Exc Str := do
  let ts ← tokens (sortKeys v)
  .ok (ts.flatMap tokenText)

theorem not_raises_dumps (v : Json) : ¬Raises Exc.Uncaught (dumps v) :=
  not_raises_bind (not_raises_tokens _) fun _ _ ↦ not_raises_ok

end Py
