import Mathlib.Data.List.Induction
import MeetingRag.Activity.Tables
import MeetingRag.Library.Base64
import MeetingRag.Library.Datetime
import MeetingRag.Library.Utf8
import MeetingRag.Library.Wire

/-!
# Opaque cursors

A page names the row it ended with, as the base 64 of a few bytes: the sixteen bytes of an event, or the
JSON of a time and an id. The readers accept more spellings of a time, of an id and of JSON bytes than
the writers produce, and what they make of those is given.
-/

open Outcome Py

namespace MeetingRag

/-- What the standard library reads from spellings that no cursor is written in. -/
structure OtherSpellings where
  /-- `datetime.fromisoformat`, where the result is aware. -/
  datetime : Str → Option Datetime
  uuid : Str → Option UUID
  /-- The text of JSON bytes in UTF-16 or UTF-32, or after a byte order mark. -/
  json : List UInt8 → Option Str
  /-- How deep JSON may nest. -/
  depth : ℕ
  depth_pos : 0 < depth

/-- The big-endian bytes of a number. -/
def bigEndian : ℕ → ℕ → List UInt8
  | 0, _ => []
  | k + 1, n => UInt8.ofNat (n / 256 ^ k % 256) :: bigEndian k n

/-- `event_id.bytes` -/
def uuidBytes (u : UUID) : List UInt8 := bigEndian 16 u.toNat

/-- `UUID(bytes=raw)` -/
def uuidOfBytes (raw : List UInt8) : UUID :=
  ⟨BitVec.ofNat 128 (raw.foldl (fun n b ↦ n * 256 + b.toNat) 0)⟩

/-- `encode_event_cursor` -/
def encodeEventCursor (eventId : UUID) : Str := Base64.encode (uuidBytes eventId)

/-- `decode_event_cursor` -/
def decodeEventCursor (cursor : Str) : Except ActivityError UUID :=
  match Base64.b64decode (Base64.pad cursor) with
  | some raw =>
    if raw.length = 16 then .ok (uuidOfBytes raw) else .error (.invalidCursor "invalid event cursor")
  | none => .error (.invalidCursor "invalid event cursor")

/-- `json.dumps([created_at.isoformat(), str(item_id)], separators=(",", ":"))` -/
def timePayload (createdAt : Datetime) (itemId : UUID) : Str :=
  [Token.openBracket, .string createdAt.isoformat, .comma, .string (lit itemId.str),
    .closeBracket].flatMap tokenText

/-- `encode_time_cursor` -/
def encodeTimeCursor (createdAt : Datetime) (itemId : UUID) : Str :=
  Base64.encode (encodeUtf8 (timePayload createdAt itemId))

/-- `raw.decode(json.detect_encoding(raw))` -/
def jsonText (other : OtherSpellings) (raw : List UInt8) : Option Str :=
  match raw with
  | a :: b :: _ =>
    if (0 < a.toNat ∧ a.toNat < 0x80) ∧ 0 < b.toNat then decodeUtf8 raw else other.json raw
  | _ => other.json raw

/-- `UUID(value)` -/
def parseUuid (other : OtherSpellings) (value : Str) : Option UUID :=
  match Wire.readUuid (.str value) with
  | .ok u => some u
  | .error _ => other.uuid value

/-- The position that a JSON value spells. -/
def timePosition (other : OtherSpellings) : Json → Option (Datetime × UUID)
  | .array [.str createdAt, .str itemId] => do
    let createdAt ← Datetime.fromisoformat other.datetime createdAt
    let itemId ← parseUuid other itemId
    some (createdAt, itemId)
  | _ => none

/-- `decode_time_cursor`. Too deep a nesting is not caught. -/
def decodeTimeCursor (other : OtherSpellings) (cursor : Str) :
    Except ActivityError (Datetime × UUID) :=
  match (Base64.b64decode (Base64.pad cursor)).bind (jsonText other) with
  | none => .error (.invalidCursor "invalid page cursor")
  | some text =>
    match loads defaultHooks other.depth text with
    | .ok value =>
      match timePosition other value with
      | some position => .ok position
      | none => .error (.invalidCursor "invalid page cursor")
    | .error e =>
      if e.IsValueError then .error (.invalidCursor "invalid page cursor") else .error (.raised e)

/-! ## Round trips -/

theorem length_bigEndian (k n : ℕ) : (bigEndian k n).length = k := by
  induction k with
  | zero => rfl
  | succ k ih => rw [bigEndian, List.length_cons, ih]

theorem foldl_bigEndian (k n m : ℕ) :
    (bigEndian k n).foldl (fun n b ↦ n * 256 + b.toNat) m = m * 256 ^ k + n % 256 ^ k := by
  induction k generalizing m with
  | zero =>
    rw [pow_zero, Nat.mod_one, mul_one]
    rfl
  | succ k ih =>
    have hbyte : (UInt8.ofNat (n / 256 ^ k % 256)).toNat = n / 256 ^ k % 256 :=
      toNat_ofNat_of_lt (Nat.mod_lt _ (by decide))
    rw [bigEndian, List.foldl_cons, ih, hbyte, pow_succ, Nat.mod_mul]
    ring

theorem uuidOfBytes_uuidBytes (u : UUID) : uuidOfBytes (uuidBytes u) = u := by
  have hlt : u.toNat < 256 ^ 16 := u.toNat_lt
  rw [uuidOfBytes, uuidBytes, foldl_bigEndian, zero_mul, zero_add, Nat.mod_eq_of_lt hlt]
  exact congrArg UUID.mk (BitVec.ofNat_toNat ..)

theorem decodeEventCursor_encodeEventCursor (eventId : UUID) :
    decodeEventCursor (encodeEventCursor eventId) = .ok eventId := by
  rw [decodeEventCursor, encodeEventCursor, Base64.b64decode_encode]
  change (if (uuidBytes eventId).length = 16 then Except.ok (uuidOfBytes (uuidBytes eventId)) else _) = _
  rw [uuidBytes, length_bigEndian, if_pos rfl, ← uuidBytes, uuidOfBytes_uuidBytes]

/-- Keys that differ make a `dict` of the pairs as they are. -/
theorem dict_of_nodup {pairs : Fields} (h : (pairs.map Prod.fst).Nodup) : dict pairs = pairs := by
  induction pairs using List.reverseRecOn with
  | nil => rfl
  | append_singleton pairs p ih =>
    rw [List.map_append, List.map_singleton, List.nodup_append] at h
    have hnew : ¬∃ q ∈ pairs, q.1 = p.1 := by
      rintro ⟨q, hq, hkey⟩
      exact h.2.2 q.1 (List.mem_map_of_mem hq) p.1 (List.mem_singleton_self _) hkey
    rw [dict, List.foldl_append, ← dict, ih h.1, List.foldl_cons, List.foldl_nil, setItem, if_neg hnew]

theorem timePayload_scalar (createdAt : Datetime) (itemId : UUID) :
    Scalar (timePayload createdAt itemId) := by
  have htime : Scalar createdAt.isoformat := scalar_of_lt createdAt.isoformat_ascii
  exact ScalarTokens.cons (by decide) (ScalarTokens.cons (scalar_string htime)
    (ScalarTokens.cons (by decide) (ScalarTokens.cons (scalar_string (scalar_lit _))
      (ScalarTokens.cons (by decide) scalarTokens_nil))))

theorem loads_timePayload (other : OtherSpellings) (createdAt : Datetime) (itemId : UUID) :
    loads defaultHooks other.depth (timePayload createdAt itemId) =
      .ok (.array [.str createdAt.isoformat, .str (lit itemId.str)]) := by
  have hdumps : dumps (.array [.str createdAt.isoformat, .str (lit itemId.str)]) =
      .ok (timePayload createdAt itemId) := rfl
  obtain ⟨m, hdepth⟩ := Nat.exists_eq_add_of_lt other.depth_pos
  refine loads_dumps (fun fields hnodup ↦ congrArg Except.ok (dict_of_nodup hnodup)) hdumps ?_ ?_
  · refine Json.each_array.mpr (List.forall_mem_cons.mpr ⟨?_, List.forall_mem_singleton.mpr ?_⟩)
    all_goals exact (Json.each_of_leaf (v := .str _) trivial).mpr fun q hq ↦ nomatch hq
  · rw [hdepth, zero_add]
    exact Within.array (List.forall_mem_cons.mpr
      ⟨.leaf trivial, List.forall_mem_singleton.mpr (.leaf trivial)⟩)

/-- **A cursor is read as the position it was built from.** -/
theorem decodeTimeCursor_encodeTimeCursor (other : OtherSpellings) (createdAt : Datetime)
    (itemId : UUID) :
    decodeTimeCursor other (encodeTimeCursor createdAt itemId) = .ok (createdAt, itemId) := by
  have htext : jsonText other (encodeUtf8 (timePayload createdAt itemId)) =
      some (timePayload createdAt itemId) :=
    decodeUtf8_encodeUtf8 (timePayload_scalar createdAt itemId)
  have hposition : timePosition other (.array [.str createdAt.isoformat, .str (lit itemId.str)]) =
      some (createdAt, itemId) := by
    rw [timePosition, Datetime.fromisoformat_isoformat, parseUuid, Wire.readUuid_str]
    rfl
  rw [decodeTimeCursor, encodeTimeCursor, Base64.b64decode_encode, Option.bind_some, htext]
  simp only [loads_timePayload, hposition]

end MeetingRag
