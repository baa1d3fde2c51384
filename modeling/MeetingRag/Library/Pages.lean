import Mathlib.Data.List.Sort
import MeetingRag.Library.Outcome

/-!
# Pages of a table

A list is handed out in pages, in descending order of a key. Each request asks for a number of rows and
says after which row to go on; one row more than asked for is looked up, and when it is there the page
names its own last row as the place to go on from.

Nothing but the key ties two pages together. So the whole rests on one fact: the rows below the last row
of what was handed out, in descending order, are what is left of the whole list in descending order.
-/

universe u v w

open Outcome
open scoped List

namespace Pages

variable {α : Type u} {κ : Type v} [LinearOrder κ]

section Order

variable (key : α → κ)

/-- `ORDER BY key DESC` -/
def descending (rows : List α) : List α := rows.insertionSort fun a b ↦ key b ≤ key a

/-- `WHERE key < after`, where a key is given. -/
def below (after : Option κ) (rows : List α) : List α :=
  rows.filter fun r ↦ after.all fun k ↦ key r < k

variable {key} {rows : List α}

theorem descending_perm (rows : List α) : (descending key rows).Perm rows :=
  List.perm_insertionSort _ rows

@[simp] theorem mem_descending {r : α} : r ∈ descending key rows ↔ r ∈ rows :=
  (descending_perm rows).mem_iff

/-- Without equal keys, the order is strict. -/
theorem descending_pairwise (hnodup : (rows.map key).Nodup) :
    (descending key rows).Pairwise fun a b ↦ key b < key a := by
  have htotal : Std.Total fun a b : α ↦ key b ≤ key a := ⟨fun a b ↦ le_total (key b) (key a)⟩
  have htrans : IsTrans α fun a b ↦ key b ≤ key a := ⟨fun _ _ _ hab hbc ↦ hbc.trans hab⟩
  have hle : (descending key rows).Pairwise fun a b ↦ key b ≤ key a :=
    List.pairwise_insertionSort _ rows
  have hne : (descending key rows).Pairwise fun a b ↦ key a ≠ key b :=
    List.pairwise_map.mp (((descending_perm rows).map key).nodup_iff.mpr hnodup)
  exact hle.imp₂ (fun _ _ hab hnot ↦ lt_of_le_of_ne hab hnot.symm) hne

/-- Two lists of the same rows in strictly descending order are one list. -/
theorem eq_of_perm {l l' : List α} (h : l.Pairwise fun a b ↦ key b < key a)
    (h' : l'.Pairwise fun a b ↦ key b < key a) (hperm : l.Perm l') : l = l' :=
  List.Perm.eq_of_pairwise (fun _ _ _ _ hab hba ↦ absurd hab (lt_asymm hba)) h h' hperm

/-- The rows below the last row of what was handed out are what is left. -/
theorem descending_below {done rest : List α} {r : α} (hnodup : (rows.map key).Nodup)
    (h : descending key rows = done ++ r :: rest) :
    descending key (below key (some (key r)) rows) = rest := by
  have hsorted := descending_pairwise hnodup
  rw [h] at hsorted
  obtain ⟨-, hrest, hdone⟩ := List.pairwise_append.mp hsorted
  obtain ⟨hbelow, hrest⟩ := List.pairwise_cons.mp hrest
  -- what was handed out is not below the row, and the rest is
  have hfilter : below key (some (key r)) (descending key rows) = rest := by
    rw [h, below, List.filter_append, List.filter_cons_of_neg (by simp), List.filter_eq_nil_iff.mpr,
      List.nil_append, List.filter_eq_self]
    · exact fun a ha ↦ decide_eq_true (hbelow a ha)
    · exact fun a ha ↦ by simpa using (hdone a ha r List.mem_cons_self).le
  have hkeys : ((below key (some (key r)) rows).map key).Nodup :=
    (List.filter_sublist.map key).nodup hnodup
  refine eq_of_perm (descending_pairwise hkeys) hrest ?_
  calc descending key (below key (some (key r)) rows)
      _ ~ below key (some (key r)) rows := descending_perm _
      _ ~ below key (some (key r)) (descending key rows) := (descending_perm rows).symm.filter _
      _ = rest := hfilter

theorem descending_below_none (rows : List α) :
    descending key (below key none rows) = descending key rows := by
  rw [below]
  exact congrArg _ (List.filter_eq_self.mpr fun _ _ ↦ rfl)

end Order

section Follow

variable {γ : Type w} {ε : Type*}

/-- `max(1, min(limit, 100))` -/
def bounded (limit : ℤ) : ℕ := (max 1 (min limit 100)).toNat

/-- A page of the rows that are left, given the look-ahead, with the cursor of its last row. -/
def pageOf (encode : α → γ) (limit : ℤ) (rows : List α) : List α × Option γ :=
  let visible := rows.take (bounded limit)
  (visible, if bounded limit < rows.length then visible.getLast?.map encode else none)

/-- Follow the cursors, a page for each limit. -/
def follow (page : Option γ → ℤ → Except ε (List α × Option γ)) :
    List ℤ → Option γ → Except ε (List α × Option γ)
  | [], cursor => .ok ([], cursor)
  | limit :: limits, cursor => do
    let (items, next) ← page cursor limit
    match next with
    | none => .ok (items, none)
    | some next => do
      let (later, last) ← follow page limits (some next)
      .ok (items ++ later, last)

/-- The rows that are left after a cursor. -/
inductive LeftAfter (encode : α → γ) (all : List α) : Option γ → List α → Prop
  | start : LeftAfter encode all none all
  | after {done : List α} {r : α} {rest : List α} (h : all = done ++ r :: rest) :
    LeftAfter encode all (some (encode r)) rest

variable {page : Option γ → ℤ → Except ε (List α × Option γ)} {encode : α → γ} {all : List α}

theorem bounded_pos (limit : ℤ) : 0 < bounded limit := by
  rw [bounded]
  omega

/-- The look-ahead tells whether rows are left. -/
theorem pageOf_take (limit : ℤ) (rest : List α) :
    pageOf encode limit (rest.take (bounded limit + 1)) =
      (rest.take (bounded limit),
        if bounded limit < rest.length then (rest.take (bounded limit)).getLast?.map encode
        else none) := by
  have htake : (rest.take (bounded limit + 1)).take (bounded limit) = rest.take (bounded limit) := by
    rw [List.take_take, Nat.min_eq_left (Nat.le_succ _)]
  have hlength : bounded limit < (rest.take (bounded limit + 1)).length ↔
      bounded limit < rest.length := by
    rw [List.length_take]
    omega
  simp only [pageOf, htake, hlength]

/-- **Following the cursors.** Where every page answers with the rows that are left, the pages together
are a part of the whole in its order. They are the whole when the last cursor is missing, and it is
missing once there were more requests than rows. -/
theorem follow_eq (hserves : ∀ cursor rest limit, LeftAfter encode all cursor rest →
      page cursor limit = .ok (pageOf encode limit (rest.take (bounded limit + 1))))
    (limits : List ℤ) {cursor : Option γ} {rest : List α} (hleft : LeftAfter encode all cursor rest) :
    ∃ items last, follow page limits cursor = .ok (items, last) ∧ items <+: rest ∧
      (limits ≠ [] → last = none → items = rest) ∧ (rest.length < limits.length → last = none) := by
  induction limits generalizing cursor rest with
  | nil =>
    exact ⟨[], cursor, rfl, List.nil_prefix, fun h ↦ absurd rfl h, fun h ↦ absurd h (Nat.not_lt_zero _)⟩
  | cons limit limits ih =>
    rw [follow, hserves cursor rest limit hleft, pageOf_take]
    have hpos := bounded_pos limit
    by_cases hmore : bounded limit < rest.length
    · obtain ⟨before, r, hlast⟩ := (rest.take (bounded limit)).eq_nil_or_concat'.resolve_left
        (List.ne_nil_of_length_pos (by rw [List.length_take]; omega))
      have hsplit : before ++ r :: rest.drop (bounded limit) = rest := by
        rw [List.append_cons, ← hlast, List.take_append_drop]
      have hleft' : LeftAfter encode all (some (encode r)) (rest.drop (bounded limit)) := by
        cases hleft with
        | start => exact .after hsplit.symm
        | @after done r' _ h =>
          have hall : all = (done ++ r' :: before) ++ r :: rest.drop (bounded limit) := by
            rw [h, List.append_assoc, List.cons_append, hsplit]
          exact .after hall
      obtain ⟨later, last, hfollow, hprefix, hall, hend⟩ := ih hleft'
      have hnext : (rest.take (bounded limit)).getLast?.map encode = some (encode r) := by
        rw [hlast, List.getLast?_concat, Option.map_some]
      refine ⟨rest.take (bounded limit) ++ later, last, ?_, ?_, fun _ hnone ↦ ?_, fun hlong ↦ hend ?_⟩
      · rw [if_pos hmore, ok_bind]
        simp only [hnext, hfollow, ok_bind]
      · obtain ⟨t, ht⟩ := hprefix
        exact ⟨t, by rw [List.append_assoc, ht, List.take_append_drop]⟩
      · have hlimits : limits ≠ [] := by
          rintro rfl
          cases hfollow
          exact nomatch hnone
        rw [hall hlimits hnone, List.take_append_drop]
      · rw [List.length_cons] at hlong
        rw [List.length_drop]
        omega
    · have hwhole : rest.take (bounded limit) = rest := List.take_of_length_le (Nat.le_of_not_lt hmore)
      refine ⟨rest, none, ?_, List.prefix_rfl, fun _ _ ↦ rfl, fun _ ↦ rfl⟩
      rw [if_neg hmore, hwhole, ok_bind]

end Follow

end Pages
