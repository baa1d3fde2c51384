import Mathlib.Data.List.MinMax
import Mathlib.Data.List.Nodup
import MeetingRag.Library.Outcome

/-!
# Tables as lists of rows

A relational table is the list of its rows in the order they were inserted. The statements a
program issues against it are three: an `UPDATE … WHERE`, whose affected-row count the program may
test; an `INSERT` that a unique constraint can refuse; and the same insert with
`ON CONFLICT DO NOTHING`.

What a proof needs to know about a statement is which rows it can have touched. So every statement
comes with a membership lemma in both directions, with the fact that keys survive it, and with what
it does to a filtered view of the table.
-/

open Outcome

namespace Table

variable {α β κ ε : Type*}

/-! ## Update -/

/-- `UPDATE t SET f WHERE p`. -/
def updateWhere (p : α → Prop) [DecidablePred p] (f : α → α) (t : List α) : List α :=
  t.map fun r ↦ if p r then f r else r

/-- The affected-row count of an update with predicate `p`. -/
def rowcount (p : α → Prop) [DecidablePred p] (t : List α) : ℕ :=
  t.countP fun r ↦ decide (p r)

section Update

variable {p : α → Prop} [DecidablePred p] {f : α → α} {t : List α}

theorem mem_updateWhere {r : α} :
    r ∈ updateWhere p f t ↔ (∃ r₀ ∈ t, p r₀ ∧ f r₀ = r) ∨ (r ∈ t ∧ ¬p r) := by
  rw [updateWhere, List.mem_map]
  constructor
  · rintro ⟨r₀, h₀, rfl⟩
    by_cases h : p r₀
    · exact Or.inl ⟨r₀, h₀, h, by rw [if_pos h]⟩
    · exact Or.inr (by rw [if_neg h]; exact ⟨h₀, h⟩)
  · rintro (⟨r₀, h₀, h, rfl⟩ | ⟨h₀, h⟩)
    · exact ⟨r₀, h₀, if_pos h⟩
    · exact ⟨r, h₀, if_neg h⟩

theorem mem_updateWhere_of_mem {r : α} (h : r ∈ t) (hp : p r) : f r ∈ updateWhere p f t :=
  mem_updateWhere.mpr (Or.inl ⟨r, h, hp, rfl⟩)

theorem mem_updateWhere_of_not {r : α} (h : r ∈ t) (hp : ¬p r) : r ∈ updateWhere p f t :=
  mem_updateWhere.mpr (Or.inr ⟨h, hp⟩)

/-- A column that the update does not write keeps its list of values. -/
theorem map_updateWhere_of_forall {key : α → κ} (h : ∀ r, key (f r) = key r) :
    (updateWhere p f t).map key = t.map key := by
  rw [updateWhere, List.map_map]
  refine List.map_congr_left fun r _ ↦ ?_
  by_cases hp : p r
  · simp [hp, h]
  · simp [hp]

@[simp] theorem length_updateWhere : (updateWhere p f t).length = t.length := by
  rw [updateWhere, List.length_map]

/-- The first matching row, after an update that keeps it matching. -/
theorem find?_updateWhere {r : α} (hf : ∀ a, p a → p (f a)) (h : t.find? (p ·) = some r) :
    (updateWhere p f t).find? (p ·) = some (f r) := by
  induction t with
  | nil => exact nomatch h
  | cons a t ih =>
    have hcons : updateWhere p f (a :: t) = (if p a then f a else a) :: updateWhere p f t := rfl
    rw [List.find?_cons] at h
    rw [hcons, List.find?_cons]
    by_cases ha : p a
    · simp only [ha, decide_true, Option.some.injEq] at h
      subst h
      simp [ha, hf a ha]
    · simp only [ha, decide_false] at h
      simp [ha, ih h]

/-- An update of rows that another search passes over. -/
theorem find?_updateWhere_of_disjoint {q : α → Bool} (h : ∀ r, p r → q r = false ∧ q (f r) = false) :
    (updateWhere p f t).find? q = t.find? q := by
  induction t with
  | nil => rfl
  | cons a t ih =>
    have hcons : updateWhere p f (a :: t) = (if p a then f a else a) :: updateWhere p f t := rfl
    rw [hcons, List.find?_cons, List.find?_cons, ih]
    by_cases ha : p a
    · rw [if_pos ha, (h a ha).1, (h a ha).2]
    · rw [if_neg ha]

/-- An update whose predicate no row meets changes nothing. -/
theorem updateWhere_eq_self (h : ∀ r ∈ t, ¬p r) : updateWhere p f t = t := by
  rw [updateWhere]
  exact (List.map_congr_left fun r hr ↦ if_neg (h r hr)).trans (List.map_id' t)

theorem updateWhere_congr {q : α → Prop} [DecidablePred q] (h : ∀ r ∈ t, p r ↔ q r) :
    updateWhere p f t = updateWhere q f t := by
  refine List.map_congr_left fun r hr ↦ ?_
  by_cases hp : p r
  · rw [if_pos hp, if_pos ((h r hr).mp hp)]
  · rw [if_neg hp, if_neg fun hq ↦ hp ((h r hr).mpr hq)]

theorem rowcount_eq_zero : rowcount p t = 0 ↔ ∀ r ∈ t, ¬p r := by
  rw [rowcount, List.countP_eq_zero]
  simp

theorem rowcount_pos : 0 < rowcount p t ↔ ∃ r ∈ t, p r := by
  rw [rowcount, List.countP_pos_iff]
  simp

/-- Under a unique key, an update that fixes the key affects at most one row. -/
theorem rowcount_le_one {key : α → κ} (hkey : (t.map key).Nodup) {k : κ}
    (hp : ∀ r ∈ t, p r → key r = k) : rowcount p t ≤ 1 := by
  induction t with
  | nil => exact Nat.zero_le 1
  | cons a t ih =>
    rw [List.map_cons, List.nodup_cons] at hkey
    rw [List.forall_mem_cons] at hp
    rw [rowcount, List.countP_cons]
    by_cases ha : p a
    · have hrest : rowcount p t = 0 := rowcount_eq_zero.mpr fun r hr hpr ↦
        hkey.1 (List.mem_map.mpr ⟨r, hr, (hp.2 r hr hpr).trans (hp.1 ha).symm⟩)
      rw [rowcount] at hrest
      simp [hrest, ha]
    · rw [rowcount] at ih
      simpa [ha] using ih hkey.2 hp.2

/-- Under a unique key, an update that fixes the key affects exactly one row when and only when
one meets its predicate. -/
theorem rowcount_eq_one {key : α → κ} (hkey : (t.map key).Nodup) {k : κ}
    (hp : ∀ r ∈ t, p r → key r = k) : rowcount p t = 1 ↔ ∃ r ∈ t, p r := by
  rw [← rowcount_pos]
  have := rowcount_le_one hkey hp
  omega

/-- Under a unique key, an update that affects one row is the update of the row with that key. -/
theorem exists_of_rowcount_one [DecidableEq κ] {key : α → κ} (hkey : (t.map key).Nodup)
    (h : rowcount p t = 1) :
    ∃ r ∈ t, p r ∧ updateWhere p f t = updateWhere (fun a ↦ key a = key r) f t := by
  rw [rowcount, List.countP_eq_length_filter, List.length_eq_one_iff] at h
  obtain ⟨r, hr⟩ := h
  have hmem : ∀ a, a ∈ t ∧ p a ↔ a = r := by
    intro a
    rw [← List.mem_singleton, ← hr, List.mem_filter, decide_eq_true_eq]
  obtain ⟨hrt, hpr⟩ := (hmem r).mpr rfl
  refine ⟨r, hrt, hpr, updateWhere_congr fun a ha ↦ ⟨fun hpa ↦ ?_, fun hak ↦ ?_⟩⟩
  · rw [(hmem a).mp ⟨ha, hpa⟩]
  · rw [List.inj_on_of_nodup_map hkey ha hrt hak]
    exact hpr

/-- Under a unique key, a guarded update of one row is the update of the row with that key: the
guard only decides whether it happens. -/
theorem exists_of_rowcount_eq_one [DecidableEq κ] {key : α → κ} (hkey : (t.map key).Nodup) {k : κ}
    (hp : ∀ r, p r → key r = k) (h : rowcount p t = 1) :
    ∃ r ∈ t, p r ∧ updateWhere p f t = updateWhere (fun a ↦ key a = k) f t := by
  obtain ⟨r, hr, hpr, hset⟩ := exists_of_rowcount_one (f := f) hkey h
  refine ⟨r, hr, hpr, hset.trans ?_⟩
  rw [hp r hpr]

/-- Two updates of the same rows. -/
theorem updateWhere_updateWhere {g : α → α} (hp : ∀ r, p r → p (f r)) :
    updateWhere p g (updateWhere p f t) = updateWhere p (g ∘ f) t := by
  rw [updateWhere, updateWhere, updateWhere, List.map_map]
  refine List.map_congr_left fun r _ ↦ ?_
  by_cases h : p r
  · simp [h, hp r h]
  · simp [h]

section Disjoint

variable {q : α → Prop} [DecidablePred q]

/-- An update leaves the rows of another predicate alone. -/
theorem rowcount_updateWhere_of_disjoint (h : ∀ r, p r → ¬q r ∧ ¬q (f r)) :
    rowcount q (updateWhere p f t) = rowcount q t := by
  rw [rowcount, rowcount, updateWhere, List.countP_map]
  refine List.countP_congr fun r _ ↦ ?_
  by_cases hp : p r
  · simp [hp, h r hp]
  · simp [hp]

/-- Updates of disjoint rows are one update. -/
theorem updateWhere_updateWhere_of_disjoint (h : ∀ r, p r → ¬q (f r)) :
    updateWhere q f (updateWhere p f t) = updateWhere (fun r ↦ p r ∨ q r) f t := by
  rw [updateWhere, updateWhere, updateWhere, List.map_map]
  refine List.map_congr_left fun r _ ↦ ?_
  by_cases hp : p r
  · simp [hp, h r hp]
  · simp [hp]

end Disjoint

theorem filter_updateWhere_of_forall {q : α → Bool} (hq : ∀ r, q (f r) = q r) :
    (updateWhere p f t).filter q = updateWhere p f (t.filter q) := by
  rw [updateWhere, updateWhere, List.filter_map]
  congr 1
  refine List.filter_congr fun r _ ↦ ?_
  by_cases h : p r <;> simp [h, hq]

/-- An update seen through a filter it does not meet. -/
theorem filter_updateWhere_of_disjoint {q : α → Bool} (hq : ∀ r, q (f r) = q r)
    (hp : ∀ r, p r → q r = false) : (updateWhere p f t).filter q = t.filter q := by
  rw [filter_updateWhere_of_forall hq]
  refine updateWhere_eq_self fun r hr hpr ↦ ?_
  rw [List.mem_filter, hp r hpr] at hr
  exact Bool.false_ne_true hr.2

/-- `UPDATE … WHERE p RETURNING`, required to affect one row: the row as it became, and the table.
-/
def updateOne (p : α → Prop) [DecidablePred p] (f : α → α) (e : ε) (t : List α) :
    Except ε (α × List α) :=
  match t.filter p with
  | [row] => .ok (f row, updateWhere p f t)
  | _ => .error e

/-- Under a unique key that the predicate fixes, such an update returns exactly when a row meets the
predicate, and rewrites the row of that key. -/
theorem updateOne_eq_ok [DecidableEq κ] {key : α → κ} (hkey : (t.map key).Nodup) {k : κ}
    (hp : ∀ r, p r → key r = k) {e : ε} {row : α} {t' : List α} :
    updateOne p f e t = .ok (row, t') ↔
      ∃ r ∈ t, p r ∧ row = f r ∧ t' = updateWhere (fun a ↦ key a = k) f t := by
  have hlength : (t.filter p).length = rowcount p t := List.countP_eq_length_filter.symm
  constructor
  · intro h
    rw [updateOne] at h
    split at h
    · next r hr =>
      have hmem : r ∈ t.filter p := hr ▸ List.mem_singleton_self r
      obtain ⟨hr', hpr⟩ := List.mem_filter.mp hmem
      rw [hr] at hlength
      obtain ⟨_, _, _, hset⟩ := exists_of_rowcount_eq_one (f := f) hkey hp hlength.symm
      cases h
      exact ⟨r, hr', of_decide_eq_true hpr, rfl, hset⟩
    · exact nomatch h
  · rintro ⟨r, hr, hpr, rfl, rfl⟩
    have hone : rowcount p t = 1 := (rowcount_eq_one hkey fun r _ ↦ hp r).mpr ⟨r, hr, hpr⟩
    obtain ⟨_, _, _, hset⟩ := exists_of_rowcount_eq_one (f := f) hkey hp hone
    rw [hone, List.length_eq_one_iff] at hlength
    obtain ⟨a, ha⟩ := hlength
    have hra : r = a := List.mem_singleton.mp (ha ▸ List.mem_filter.mpr ⟨hr, decide_eq_true hpr⟩)
    rw [updateOne, ha, hra, hset]

end Update

/-! ## Insert -/

/-- `INSERT` of a row under unique constraints: refused with `e` when `clash` holds between a row
of the table and the new one. -/
def insertUnique (clash : α → α → Prop) [DecidableRel clash] (e : α → ε) (row : α) (t : List α) :
    Except ε (List α) :=
  if ∃ r ∈ t, clash r row then .error (e row) else .ok (t ++ [row])

section Insert

variable {clash : α → α → Prop} [DecidableRel clash] {e : α → ε} {row : α} {t t' : List α}

theorem insertUnique_eq_ok :
    insertUnique clash e row t = .ok t' ↔ (∀ r ∈ t, ¬clash r row) ∧ t' = t ++ [row] := by
  rw [insertUnique, ite_error_eq_ok, Except.ok.injEq, eq_comm (a := t ++ [row])]
  simp only [not_exists, not_and]

theorem insertUnique_of_fresh (h : ∀ r ∈ t, ¬clash r row) :
    insertUnique clash e row t = .ok (t ++ [row]) :=
  insertUnique_eq_ok.mpr ⟨h, rfl⟩

/-- An insert raises nothing but the violation. -/
theorem not_raises_insertUnique {P : ε → Prop} (h : ¬P (e row)) :
    ¬Raises P (insertUnique clash e row t) := by
  rw [insertUnique]
  split
  · exact raises_error.not.mpr h
  · exact not_raises_ok

/-- Rows that clash neither with the table nor with one another. -/
def Appendable (clash : α → α → Prop) (t rows : List α) : Prop :=
  (∀ r ∈ t, ∀ row ∈ rows, ¬clash r row) ∧ rows.Pairwise fun a b ↦ ¬clash a b

omit [DecidableRel clash] in
theorem appendable_cons {rows : List α} :
    Appendable clash t (row :: rows) ↔
      (∀ r ∈ t, ¬clash r row) ∧ Appendable clash (t ++ [row]) rows := by
  rw [Appendable, Appendable, List.pairwise_cons]
  constructor
  · rintro ⟨hall, hfirst, hpair⟩
    refine ⟨fun r hr ↦ hall r hr row List.mem_cons_self, fun r hr x hx ↦ ?_, hpair⟩
    rcases List.mem_append.mp hr with hr | hr
    · exact hall r hr x (List.mem_cons_of_mem _ hx)
    · rw [List.mem_singleton.mp hr]
      exact hfirst x hx
  · rintro ⟨hrow, hrest, hpair⟩
    refine ⟨fun r hr x hx ↦ ?_, fun x hx ↦ ?_, hpair⟩
    · rcases List.mem_cons.mp hx with rfl | hx
      · exact hrow r hr
      · exact hrest r (List.mem_append_left _ hr) x hx
    · exact hrest row (List.mem_append_right _ (List.mem_singleton_self row)) x hx

/-- **Inserting rows one by one** succeeds exactly when no row clashes with the table or with an
earlier row, and then appends them all. -/
theorem foldlM_insertUnique {rows : List α} :
    rows.foldlM (fun t row ↦ insertUnique clash e row t) t = .ok t' ↔
      Appendable clash t rows ∧ t' = t ++ rows := by
  induction rows generalizing t with
  | nil =>
    rw [List.foldlM_nil, pure_eq_ok, List.append_nil, eq_comm]
    exact (and_iff_right ⟨fun _ _ ↦ List.forall_mem_nil _, List.Pairwise.nil⟩).symm
  | cons row rows ih =>
    rw [List.foldlM_cons, bind_eq_ok, appendable_cons, and_assoc]
    simp only [insertUnique_eq_ok, ih]
    constructor
    · rintro ⟨_, ⟨hrow, rfl⟩, hrest, rfl⟩
      exact ⟨hrow, hrest, by rw [List.append_assoc]; rfl⟩
    · rintro ⟨hrow, hrest, rfl⟩
      exact ⟨_, ⟨hrow, rfl⟩, hrest, by rw [List.append_assoc]; rfl⟩

/-- `INSERT` into a table with `CHECK` constraints and foreign keys, `check`. -/
def insertRow (check : α → Prop) [DecidablePred check] (clash : α → α → Prop) [DecidableRel clash]
    (violated conflict : ε) (t : List α) (row : α) : Except ε (List α) := do
  require (check row) violated
  insertUnique clash (fun _ ↦ conflict) row t

theorem insertRow_eq_ok {check : α → Prop} [DecidablePred check] {violated conflict : ε} :
    insertRow check clash violated conflict t row = .ok t' ↔
      check row ∧ (∀ r ∈ t, ¬clash r row) ∧ t' = t ++ [row] := by
  rw [insertRow, require_bind_eq_ok, insertUnique_eq_ok]

/-- Rows are inserted one by one exactly when each passes its checks and none clashes. -/
theorem foldlM_insertRow {check : α → Prop} [DecidablePred check] {violated conflict : ε}
    {rows : List α} :
    rows.foldlM (insertRow check clash violated conflict) t = .ok t' ↔
      (∀ row ∈ rows, check row) ∧ Appendable clash t rows ∧ t' = t ++ rows := by
  induction rows generalizing t with
  | nil =>
    rw [List.foldlM_nil, pure_eq_ok, List.append_nil, eq_comm]
    refine (and_iff_right (List.forall_mem_nil _)).trans (and_iff_right ?_) |>.symm
    exact ⟨fun _ _ ↦ List.forall_mem_nil _, List.Pairwise.nil⟩
  | cons row rows ih =>
    rw [List.foldlM_cons, bind_eq_ok, appendable_cons, List.forall_mem_cons]
    simp only [insertRow_eq_ok, ih]
    constructor
    · rintro ⟨_, ⟨hcheck, hrow, rfl⟩, hrest, happendable, rfl⟩
      exact ⟨⟨hcheck, hrest⟩, ⟨hrow, happendable⟩, by rw [List.append_assoc]; rfl⟩
    · rintro ⟨⟨hcheck, hrest⟩, ⟨hrow, happendable⟩, rfl⟩
      exact ⟨_, ⟨hcheck, hrow, rfl⟩, hrest, happendable, by rw [List.append_assoc]; rfl⟩

end Insert

/-- `INSERT … ON CONFLICT DO NOTHING`. -/
def insertIgnore (clash : α → α → Prop) [DecidableRel clash] (row : α) (t : List α) : List α :=
  if ∃ r ∈ t, clash r row then t else t ++ [row]

section Ignore

variable {clash : α → α → Prop} [DecidableRel clash] {row : α} {t : List α}

theorem insertIgnore_of_fresh (h : ∀ r ∈ t, ¬clash r row) :
    insertIgnore clash row t = t ++ [row] :=
  if_neg fun ⟨r, hr, hc⟩ ↦ h r hr hc

theorem insertIgnore_of_clash (h : ∃ r ∈ t, clash r row) : insertIgnore clash row t = t :=
  if_pos h

/-- The table only grows at its end. -/
theorem prefix_insertIgnore : t <+: insertIgnore clash row t := by
  rw [insertIgnore]
  split
  · exact List.prefix_rfl
  · exact List.prefix_append t [row]

theorem mem_insertIgnore {r : α} (h : r ∈ insertIgnore clash row t) : r ∈ t ∨ r = row := by
  rw [insertIgnore] at h
  split at h
  · exact Or.inl h
  · exact (List.mem_append.mp h).imp_right List.mem_singleton.mp

/-- A conflict on a key keeps that key unique. -/
theorem nodup_map_insertIgnore {key : α → κ} (hclash : ∀ a b, key a = key b → clash a b)
    (h : (t.map key).Nodup) : ((insertIgnore clash row t).map key).Nodup := by
  rw [insertIgnore]
  split
  · exact h
  · next hnew =>
    rw [List.map_append, List.map_cons, List.map_nil]
    refine h.append (List.nodup_singleton _) ?_
    intro k hk hk'
    obtain ⟨r, hr, rfl⟩ := List.mem_map.mp hk
    exact hnew ⟨r, hr, hclash r row (List.mem_singleton.mp hk')⟩

/-! A loop of such inserts, one row for each of `xs`. -/

variable {make : β → α} {xs : List β}

theorem prefix_foldl_insertIgnore :
    t <+: xs.foldl (fun t x ↦ insertIgnore clash (make x) t) t := by
  induction xs generalizing t with
  | nil => exact List.prefix_rfl
  | cons x xs ih =>
    rw [List.foldl_cons]
    exact prefix_insertIgnore.trans ih

theorem mem_foldl_insertIgnore {r : α}
    (h : r ∈ xs.foldl (fun t x ↦ insertIgnore clash (make x) t) t) :
    r ∈ t ∨ ∃ x ∈ xs, r = make x := by
  induction xs generalizing t with
  | nil => exact Or.inl h
  | cons x xs ih =>
    rw [List.foldl_cons] at h
    rcases ih h with h | ⟨y, hy, rfl⟩
    · rcases mem_insertIgnore h with h | rfl
      · exact Or.inl h
      · exact Or.inr ⟨x, List.mem_cons_self, rfl⟩
    · exact Or.inr ⟨y, List.mem_cons_of_mem x hy, rfl⟩

theorem nodup_map_foldl_insertIgnore {key : α → κ} (hclash : ∀ a b, key a = key b → clash a b)
    (h : (t.map key).Nodup) :
    ((xs.foldl (fun t x ↦ insertIgnore clash (make x) t) t).map key).Nodup := by
  induction xs generalizing t with
  | nil => exact h
  | cons x xs ih =>
    rw [List.foldl_cons]
    apply ih
    exact nodup_map_insertIgnore hclash h

end Ignore

/-- A key stays unique when the appended row's key is new. -/
theorem nodup_map_append_singleton {key : α → κ} {t : List α} {row : α}
    (h : (t.map key).Nodup) (hnew : ∀ r ∈ t, key r ≠ key row) :
    ((t ++ [row]).map key).Nodup := by
  rw [List.map_append, List.map_cons, List.map_nil]
  refine h.append (List.nodup_singleton _) ?_
  intro k hk hk'
  obtain ⟨r, hr, rfl⟩ := List.mem_map.mp hk
  exact hnew r hr (List.mem_singleton.mp hk')

/-- Two rows of a table with the same value of a unique key are one row. -/
theorem eq_of_key_eq {key : α → κ} {t : List α} (h : (t.map key).Nodup) {a b : α} (ha : a ∈ t)
    (hb : b ∈ t) (hab : key a = key b) : a = b :=
  List.inj_on_of_nodup_map h ha hb hab

/-- An update that fixes a key keeps a row with the key of each row. -/
theorem exists_mem_updateWhere {p : α → Prop} [DecidablePred p] {f : α → α} {key : α → κ}
    {t : List α} {a : α} (ha : a ∈ t) (hf : ∀ r, key (f r) = key r) :
    ∃ b ∈ updateWhere p f t, key b = key a := by
  by_cases hp : p a
  · exact ⟨f a, mem_updateWhere_of_mem ha hp, hf a⟩
  · exact ⟨a, mem_updateWhere_of_not ha hp, rfl⟩

/-- What an update makes of one row, told by a unique key that it keeps. -/
theorem updateWhere_of_key_eq {p : α → Prop} [DecidablePred p] {f : α → α} {key : α → κ}
    {t : List α} (h : (t.map key).Nodup) {a b : α} (ha : a ∈ t) (hb : b ∈ updateWhere p f t)
    (hab : key b = key a) (hf : ∀ r, key (f r) = key r) : (p a ∧ b = f a) ∨ (¬p a ∧ b = a) := by
  rcases mem_updateWhere.mp hb with ⟨r, hr, hp, rfl⟩ | ⟨hb, hp⟩
  · rw [← eq_of_key_eq h hr ha ((hf r).symm.trans hab)]
    exact Or.inl ⟨hp, rfl⟩
  · rw [← eq_of_key_eq h hb ha hab]
    exact Or.inr ⟨hp, rfl⟩

/-- The rows with the key of one row are that row. -/
theorem filter_key_eq_singleton [DecidableEq κ] {key : α → κ} {t : List α} (h : (t.map key).Nodup)
    {r : α} (hr : r ∈ t) : t.filter (key · = key r) = [r] := by
  induction t with
  | nil => exact absurd hr List.not_mem_nil
  | cons a t ih =>
    rw [List.map_cons, List.nodup_cons] at h
    rcases List.mem_cons.mp hr with rfl | hr
    · have hnone : t.filter (key · = key r) = [] := by
        rw [List.filter_eq_nil_iff]
        intro b hb heq
        exact h.1 (of_decide_eq_true heq ▸ List.mem_map_of_mem hb)
      rw [List.filter_cons_of_pos (by simp), hnone]
    · have hne : key a ≠ key r := fun heq ↦ h.1 (heq ▸ List.mem_map_of_mem hr)
      rw [List.filter_cons_of_neg (by simpa using hne), ih h.2 hr]

/-- Looking a row up by a unique key. -/
theorem find?_eq_some_of_key {key : α → κ} {t : List α} (h : (t.map key).Nodup) {k : κ}
    {p : α → Bool} (hp : ∀ r, p r = true → key r = k) {r : α} :
    t.find? p = some r ↔ r ∈ t ∧ p r = true := by
  constructor
  · exact fun hr ↦ ⟨List.mem_of_find?_eq_some hr, List.find?_some hr⟩
  · rintro ⟨hr, hpr⟩
    obtain ⟨a, ha⟩ := Option.isSome_iff_exists.mp (List.find?_isSome.mpr ⟨r, hr, hpr⟩)
    have hpa : p a = true := List.find?_some ha
    rw [ha, eq_of_key_eq h (List.mem_of_find?_eq_some ha) hr ((hp a hpa).trans (hp r hpr).symm)]

/-! ## Ordered selection -/

section Select

variable [LinearOrder κ] {key : α → κ} {p : α → Bool} {t : List α} {r : α}

/-- `SELECT … WHERE p ORDER BY key LIMIT 1`. -/
def selectFirst (key : α → κ) (p : α → Bool) (t : List α) : Option α :=
  (t.filter p).argmin key

/-- `SELECT … WHERE p ORDER BY key DESC LIMIT 1`. -/
def selectLast (key : α → κ) (p : α → Bool) (t : List α) : Option α :=
  (t.filter p).argmax key

theorem selectFirst_mem (h : selectFirst key p t = some r) : r ∈ t ∧ p r = true :=
  List.mem_filter.mp (List.argmin_mem h)

theorem selectLast_mem (h : selectLast key p t = some r) : r ∈ t ∧ p r = true :=
  List.mem_filter.mp (List.argmax_mem h)

theorem selectLast_ge (h : selectLast key p t = some r) {a : α} (ha : a ∈ t)
    (hp : p a = true) : key a ≤ key r :=
  List.le_of_mem_argmax (List.mem_filter.mpr ⟨ha, hp⟩) h

theorem selectLast_eq_none : selectLast key p t = none ↔ ∀ a ∈ t, ¬p a = true := by
  rw [selectLast, List.argmax_eq_none, List.filter_eq_nil_iff]

theorem selectLast_isSome {a : α} (ha : a ∈ t) (hp : p a = true) :
    ∃ r, selectLast key p t = some r := by
  cases h : selectLast key p t with
  | none => exact absurd hp (selectLast_eq_none.mp h a ha)
  | some r => exact ⟨r, rfl⟩

end Select

end Table
