import Mathlib.Data.List.DropRight
import Mathlib.Data.List.Sort
import Mathlib.Order.Basic
import MeetingRag.Library.Text

/-!
# The `Headers` object

A `Headers` object has each name once, in lower case, with the values appended under it put together. It
is iterated in the order of the names, and only `set-cookie` is iterated value by value.

Names are tokens of ASCII.
-/

namespace Web

/-- `toLowerCase` of a text whose letters are those of ASCII. -/
def toLowerCase (s : String) : String := String.ofList (s.toList.map Char.toLower)

/-- `toUpperCase` of a text whose letters are those of ASCII. -/
def toUpperCase (s : String) : String := String.ofList (s.toList.map Char.toUpper)

def startsWith (start s : String) : Bool := start.toList.isPrefixOf s.toList

/-- White space of HTTP. -/
def isHttpSpace (c : Char) : Bool := c = ' ' || c = '\t' || c = '\n' || c = '\x0d'

/-- The value of a header without the white space around it. -/
def normalizeValue (value : String) : String :=
  String.ofList ((value.toList.dropWhile isHttpSpace).rdropWhile isHttpSpace)

/-! ## Ordered objects -/

section Assoc

variable {κ ν : Type*} [DecidableEq κ]

/-- Change the value of a key, or add the key at the end. -/
def upsert (key : κ) (change : Option ν → ν) : List (κ × ν) → List (κ × ν)
  | [] => [(key, change none)]
  | p :: rest => if p.1 = key then (key, change (some p.2)) :: rest else p :: upsert key change rest

theorem map_fst_upsert (key : κ) (change : Option ν → ν) (l : List (κ × ν)) :
    (upsert key change l).map Prod.fst =
      if key ∈ l.map Prod.fst then l.map Prod.fst else l.map Prod.fst ++ [key] := by
  induction l with
  | nil => rfl
  | cons p rest ih =>
    by_cases hkey : p.1 = key
    · subst hkey
      simp [upsert]
    · have hne : key ≠ p.1 := Ne.symm hkey
      by_cases hmem : key ∈ rest.map Prod.fst
      · rw [upsert, if_neg hkey, List.map_cons, ih, if_pos hmem, List.map_cons,
          if_pos (List.mem_cons_of_mem _ hmem)]
      · have hnot : key ∉ p.1 :: rest.map Prod.fst := List.not_mem_cons_of_ne_of_not_mem hne hmem
        rw [upsert, if_neg hkey, List.map_cons, ih, if_neg hmem, List.map_cons, if_neg hnot,
          List.cons_append]

theorem nodup_upsert (key : κ) (change : Option ν → ν) {l : List (κ × ν)}
    (h : (l.map Prod.fst).Nodup) : ((upsert key change l).map Prod.fst).Nodup := by
  rw [map_fst_upsert]
  split
  · exact h
  · rename_i hnot
    exact List.nodup_append'.mpr ⟨h, List.nodup_singleton key, List.disjoint_singleton.mpr hnot⟩

theorem upsert_of_not_mem {key : κ} {change : Option ν → ν} {l : List (κ × ν)}
    (h : key ∉ l.map Prod.fst) : upsert key change l = l ++ [(key, change none)] := by
  induction l with
  | nil => rfl
  | cons p rest ih =>
    have hne : p.1 ≠ key := fun heq ↦ h (heq ▸ List.mem_cons_self)
    rw [upsert, if_neg hne, ih fun hmem ↦ h (List.mem_cons_of_mem _ hmem), List.cons_append]

/-- `Object.fromEntries`: a later entry replaces an earlier one of its key. -/
def fromEntries (entries : List (κ × ν)) : List (κ × ν) :=
  entries.foldl (fun object p ↦ upsert p.1 (fun _ ↦ p.2) object) []

theorem foldl_upsert_of_nodup (entries object : List (κ × ν))
    (h : ((object ++ entries).map Prod.fst).Nodup) :
    entries.foldl (fun object p ↦ upsert p.1 (fun _ ↦ p.2) object) object = object ++ entries := by
  induction entries generalizing object with
  | nil => exact (List.append_nil object).symm
  | cons p rest ih =>
    have hnot : p.1 ∉ object.map Prod.fst := by
      rw [List.map_append, List.map_cons] at h
      exact fun hmem ↦ (List.nodup_append'.mp h).2.2 hmem List.mem_cons_self
    have hassoc : object ++ [p] ++ rest = object ++ p :: rest := List.append_cons object p rest |>.symm
    rw [List.foldl_cons, upsert_of_not_mem hnot, ih _ (by rw [hassoc]; exact h), hassoc]

/-- Entries of distinct keys make the object that has them. -/
theorem fromEntries_of_nodup {entries : List (κ × ν)} (h : (entries.map Prod.fst).Nodup) :
    fromEntries entries = entries := foldl_upsert_of_nodup entries [] h

end Assoc

/-! ## The object -/

/-- The separator between two values of a header. -/
def separator (name : String) : String := if name = "cookie" then "; " else ", "

def setCookie : String := "set-cookie"

structure Headers where
  map : List (String × String)
  /-- The values appended under `set-cookie`, one by one. -/
  cookies : List String
  nodup : (map.map Prod.fst).Nodup

namespace Headers

/-- `new Headers()` -/
def empty : Headers := ⟨[], [], List.nodup_nil⟩

/-- `headers.append(name, value)` -/
def append (h : Headers) (name value : String) : Headers where
  map := upsert (toLowerCase name) (fun
    | none => normalizeValue value
    | some old => old ++ separator (toLowerCase name) ++ normalizeValue value) h.map
  cookies := if toLowerCase name = setCookie then h.cookies ++ [normalizeValue value] else h.cookies
  nodup := nodup_upsert _ _ h.nodup

/-- `headers.set(name, value)` -/
def set (h : Headers) (name value : String) : Headers where
  map := upsert (toLowerCase name) (fun _ ↦ normalizeValue value) h.map
  cookies := if toLowerCase name = setCookie then [normalizeValue value] else h.cookies
  nodup := nodup_upsert _ _ h.nodup

/-- `headers.get(name)` -/
def get (h : Headers) (name : String) : Option String :=
  (h.map.find? fun p ↦ p.1 = toLowerCase name).map Prod.snd

def names (h : Headers) : List String := h.map.map Prod.fst

/-- `headers.entries()` -/
def entries (h : Headers) : List (String × String) :=
  (h.map.insertionSort fun p q ↦ p.1 ≤ q.1).flatMap fun p ↦
    if p.1 = setCookie then h.cookies.map (setCookie, ·) else [p]

theorem mem_names_append {h : Headers} {name value x : String} (hx : x ∈ (h.append name value).names) :
    x ∈ h.names ∨ x = toLowerCase name := by
  rw [names, append, map_fst_upsert] at hx
  split at hx
  · exact Or.inl hx
  · exact (List.mem_append.mp hx).imp_right List.mem_singleton.mp

theorem mem_names_set {h : Headers} {name value x : String} (hx : x ∈ (h.set name value).names) :
    x ∈ h.names ∨ x = toLowerCase name := by
  rw [names, set, map_fst_upsert] at hx
  split at hx
  · exact Or.inl hx
  · exact (List.mem_append.mp hx).imp_right List.mem_singleton.mp

/-- Without cookies to set, each name is iterated once. -/
theorem entries_of_not_mem {h : Headers} (hno : setCookie ∉ h.names) :
    h.entries = h.map.insertionSort fun p q ↦ p.1 ≤ q.1 := by
  have hsingle : ∀ p ∈ h.map.insertionSort fun p q ↦ p.1 ≤ q.1,
      (if p.1 = setCookie then h.cookies.map (setCookie, ·) else [p]) = [p] := by
    intro p hp
    refine if_neg fun heq ↦ hno ?_
    have hmem : p ∈ h.map := (List.mem_insertionSort _).mp hp
    exact heq ▸ List.mem_map_of_mem hmem
  rw [entries, List.flatMap_congr hsingle, List.flatMap_singleton']

theorem nodup_entries {h : Headers} (hno : setCookie ∉ h.names) :
    (h.entries.map Prod.fst).Nodup := by
  rw [entries_of_not_mem hno]
  exact ((List.perm_insertionSort _ h.map).map Prod.fst).nodup_iff.mpr h.nodup

end Headers

end Web
