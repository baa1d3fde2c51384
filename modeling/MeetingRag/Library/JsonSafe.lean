import MeetingRag.Library.JsonRoundTrip

/-!
# What can be written

`json.dumps` writes a value when it can write every leaf of it. The order of the fields plays no part,
and neither does a text: a lone surrogate is written like any other code point, and only the encoding
of the result refuses it.
-/

open Outcome

namespace Py

/-- `json.dumps(value, allow_nan=False)` returns. -/
def Dumpable (v : Json) : Prop := ∃ ts, tokens v = .ok ts

theorem itemTokens_isOk {items : List Json} :
    (∃ ts, itemTokens items = .ok ts) ↔ ∀ v ∈ items, Dumpable v := by
  induction items with
  | nil => exact iff_of_true ⟨[], rfl⟩ (List.forall_mem_nil _)
  | cons v items ih =>
    cases items with
    | nil =>
      rw [List.forall_mem_singleton]
      exact Iff.rfl
    | cons w items =>
      rw [List.forall_mem_cons, ← ih]
      constructor
      · rintro ⟨_, h⟩
        obtain ⟨first, hfirst, h⟩ := bind_eq_ok.mp h
        obtain ⟨rest, hrest, -⟩ := bind_eq_ok.mp h
        exact ⟨⟨first, hfirst⟩, rest, hrest⟩
      · rintro ⟨⟨first, hfirst⟩, rest, hrest⟩
        exact ⟨_, bind_eq_ok.mpr ⟨first, hfirst, bind_eq_ok.mpr ⟨rest, hrest, rfl⟩⟩⟩

theorem fieldTokens_isOk {fields : Fields} :
    (∃ ts, fieldTokens fields = .ok ts) ↔ ∀ p ∈ fields, Dumpable p.2 := by
  induction fields with
  | nil => exact iff_of_true ⟨[], rfl⟩ (List.forall_mem_nil _)
  | cons p fields ih =>
    obtain ⟨key, v⟩ := p
    cases fields with
    | nil =>
      rw [List.forall_mem_singleton]
      constructor
      · rintro ⟨_, h⟩
        obtain ⟨ts, hts, -⟩ := bind_eq_ok.mp h
        exact ⟨ts, hts⟩
      · rintro ⟨ts, hts⟩
        exact ⟨_, bind_eq_ok.mpr ⟨ts, hts, rfl⟩⟩
    | cons q fields =>
      rw [List.forall_mem_cons, ← ih]
      constructor
      · rintro ⟨_, h⟩
        obtain ⟨first, hfirst, h⟩ := bind_eq_ok.mp h
        obtain ⟨rest, hrest, -⟩ := bind_eq_ok.mp h
        exact ⟨⟨first, hfirst⟩, rest, hrest⟩
      · rintro ⟨⟨first, hfirst⟩, rest, hrest⟩
        exact ⟨_, bind_eq_ok.mpr ⟨first, hfirst, bind_eq_ok.mpr ⟨rest, hrest, rfl⟩⟩⟩

theorem dumpable_array {items : List Json} :
    Dumpable (.array items) ↔ ∀ v ∈ items, Dumpable v := by
  rw [← itemTokens_isOk]
  constructor
  · rintro ⟨_, h⟩
    obtain ⟨ts, hts, -⟩ := bind_eq_ok.mp h
    exact ⟨ts, hts⟩
  · rintro ⟨ts, hts⟩
    exact ⟨_, bind_eq_ok.mpr ⟨ts, hts, rfl⟩⟩

theorem dumpable_object {fields : Fields} :
    Dumpable (.object fields) ↔ ∀ p ∈ fields, Dumpable p.2 := by
  rw [← fieldTokens_isOk]
  constructor
  · rintro ⟨_, h⟩
    obtain ⟨ts, hts, -⟩ := bind_eq_ok.mp h
    exact ⟨ts, hts⟩
  · rintro ⟨ts, hts⟩
    exact ⟨_, bind_eq_ok.mpr ⟨ts, hts, rfl⟩⟩

/-- Sorting the keys changes nothing. -/
theorem dumpable_sortKeys {v : Json} : Dumpable (sortKeys v) ↔ Dumpable v := by
  induction v using Json.leafInduct with
  | leaf v hleaf => rw [Json.sortKeys_leaf hleaf]
  | array items ih =>
    rw [Json.sortKeys_array, dumpable_array, dumpable_array, List.forall_mem_map]
    exact forall₂_congr ih
  | object fields ih =>
    rw [Json.sortKeys_object, dumpable_object, dumpable_object]
    simp only [(Json.sortedFields_perm _).mem_iff]
    rw [Json.mapValues, List.forall_mem_map]
    exact forall₂_congr ih

theorem dumps_isOk {v : Json} : (∃ text, dumps v = .ok text) ↔ Dumpable v := by
  rw [← dumpable_sortKeys]
  constructor
  · rintro ⟨_, h⟩
    obtain ⟨ts, hts, -⟩ := bind_eq_ok.mp h
    exact ⟨ts, hts⟩
  · rintro ⟨ts, hts⟩
    exact ⟨_, bind_eq_ok.mpr ⟨ts, hts, rfl⟩⟩

end Py
