import Mathlib.Data.List.Forall2
import Mathlib.Tactic.Common

/-!
# Fallible steps and transactions

A step that may raise is a value of `Except ε α`. This file holds the few rules by which a proof
takes a successful chain of such steps apart, and the reading of a transaction: a body that
computes a new state is committed when it returns and leaves the state alone when it raises.

The rules are stated as equivalences with `.ok`, so that one `simp only` or one `obtain` peels a
guard or a bind, and no proof has to unfold the monad.
-/

namespace Outcome

universe u v

variable {ε : Type u} {α β σ : Type v}

/-- Raise `e` unless `c` holds. -/
def require (c : Prop) [Decidable c] (e : ε) : Except ε PUnit.{v + 1} :=
  if c then .ok ⟨⟩ else .error e

@[simp] theorem require_eq_ok {c : Prop} [Decidable c] {e : ε} {w : PUnit.{v + 1}} :
    require c e = .ok w ↔ c := by
  by_cases h : c <;> simp [require, h]

theorem require_of {c : Prop} [Decidable c] {e : ε} (h : c) :
    require.{u, v} c e = .ok ⟨⟩ :=
  if_pos h

theorem require_of_not {c : Prop} [Decidable c] {e : ε} (h : ¬c) :
    require.{u, v} c e = .error e :=
  if_neg h

/-! ## Chains -/

theorem bind_eq_ok {x : Except ε α} {f : α → Except ε β} {b : β} :
    x >>= f = .ok b ↔ ∃ a, x = .ok a ∧ f a = .ok b := by
  cases x with
  | error e => exact ⟨nofun, fun ⟨_, h, _⟩ ↦ nomatch h⟩
  | ok a => exact ⟨fun h ↦ ⟨a, rfl, h⟩, fun ⟨_, h, hb⟩ ↦ by cases h; exact hb⟩

theorem pure_eq_ok {a b : α} : (pure a : Except ε α) = .ok b ↔ a = b :=
  Except.ok.injEq a b ▸ Iff.rfl

@[simp] theorem ok_bind (a : α) (f : α → Except ε β) : (.ok a : Except ε α) >>= f = f a := rfl

@[simp] theorem error_bind (e : ε) (f : α → Except ε β) :
    (.error e : Except ε α) >>= f = .error e := rfl

/-- A guarded chain returns exactly when the guard holds and the rest returns. -/
theorem require_bind_eq_ok {c : Prop} [Decidable c] {e : ε} {f : PUnit → Except ε β}
    {b : β} : require c e >>= f = .ok b ↔ c ∧ f ⟨⟩ = .ok b := by
  rw [bind_eq_ok]
  exact ⟨fun ⟨_, h, hf⟩ ↦ ⟨require_eq_ok.mp h, hf⟩,
    fun ⟨h, hf⟩ ↦ ⟨⟨⟩, require_of h, hf⟩⟩

theorem ite_error_eq_ok {c : Prop} [Decidable c] {e : ε} {x : Except ε β} {b : β} :
    (if c then .error e else x) = .ok b ↔ ¬c ∧ x = .ok b := by
  by_cases h : c <;> simp [h]

/-- What a loop over `xs` has established when it returns: an invariant that every step which
returns carries over. -/
theorem foldlM_invariant {f : σ → α → Except ε σ} (P : List α → σ → Prop) {s s' : σ}
    {xs : List α} (h : xs.foldlM f s = .ok s') (start : P [] s)
    (step : ∀ done x t t', P done t → f t x = .ok t' → P (done ++ [x]) t') : P xs s' := by
  suffices general : ∀ done t, P done t → xs.foldlM f t = .ok s' → P (done ++ xs) s' from
    general [] s start h
  clear start h
  intro done t hP ht
  induction xs generalizing done t with
  | nil =>
    rw [List.foldlM_nil, pure_eq_ok] at ht
    rwa [List.append_nil, ← ht]
  | cons x xs ih =>
    rw [List.foldlM_cons, bind_eq_ok] at ht
    obtain ⟨t₁, hx, ht₁⟩ := ht
    rw [← List.singleton_append, ← List.append_assoc]
    exact ih (done ++ [x]) t₁ (step done x t t₁ hP hx) ht₁

/-- A `mapM` returns exactly when each step does. -/
theorem mapM_eq_ok {f : α → Except ε β} {xs : List α} {ys : List β} :
    xs.mapM f = .ok ys ↔ List.Forall₂ (fun x y ↦ f x = .ok y) xs ys := by
  induction xs generalizing ys with
  | nil =>
    rw [List.mapM_nil, pure_eq_ok, List.forall₂_nil_left_iff, eq_comm]
  | cons x xs ih =>
    rw [List.mapM_cons, bind_eq_ok, List.forall₂_cons_left_iff]
    constructor
    · rintro ⟨y, hy, hrest⟩
      obtain ⟨zs, hzs, hys⟩ := bind_eq_ok.mp hrest
      exact ⟨y, zs, hy, ih.mp hzs, (pure_eq_ok.mp hys).symm⟩
    · rintro ⟨y, zs, hy, hzs, rfl⟩
      exact ⟨y, hy, bind_eq_ok.mpr ⟨zs, ih.mpr hzs, pure_eq_ok.mpr rfl⟩⟩

theorem length_mapM {f : α → Except ε β} {xs : List α} {ys : List β} (h : xs.mapM f = .ok ys) :
    ys.length = xs.length :=
  (mapM_eq_ok.mp h).length_eq.symm

/-- Each result of a `mapM` is that of one of its steps. -/
theorem exists_of_mem_mapM {f : α → Except ε β} {xs : List α} {ys : List β}
    (h : xs.mapM f = .ok ys) {y : β} (hy : y ∈ ys) : ∃ x ∈ xs, f x = .ok y := by
  induction mapM_eq_ok.mp h with
  | nil => exact absurd hy List.not_mem_nil
  | cons hxy hrest ih =>
    rcases List.mem_cons.mp hy with rfl | hy
    · exact ⟨_, List.mem_cons_self, hxy⟩
    · obtain ⟨x, hx, hfx⟩ := ih (mapM_eq_ok.mpr hrest) hy
      exact ⟨x, List.mem_cons_of_mem _ hx, hfx⟩

theorem exists_mem_mapM {f : α → Except ε β} {xs : List α} {ys : List β}
    (h : xs.mapM f = .ok ys) {x : α} (hx : x ∈ xs) : ∃ y ∈ ys, f x = .ok y := by
  induction mapM_eq_ok.mp h with
  | nil => exact absurd hx List.not_mem_nil
  | cons hxy hrest ih =>
    rcases List.mem_cons.mp hx with rfl | hx
    · exact ⟨_, List.mem_cons_self, hxy⟩
    · obtain ⟨y, hy, hfx⟩ := ih (mapM_eq_ok.mpr hrest) hx
      exact ⟨y, List.mem_cons_of_mem _ hy, hfx⟩

/-- A loop over checks returns exactly when each check does. -/
theorem forM_eq_ok {f : α → Except ε PUnit} {xs : List α} {w : PUnit} :
    xs.forM f = .ok w ↔ ∀ x ∈ xs, f x = .ok ⟨⟩ := by
  induction xs with
  | nil => exact ⟨fun _ ↦ List.forall_mem_nil _, fun _ ↦ rfl⟩
  | cons x xs ih =>
    change (f x >>= fun _ ↦ xs.forM f) = _ ↔ _
    rw [bind_eq_ok, List.forall_mem_cons]
    exact ⟨fun ⟨_, hx, hrest⟩ ↦ ⟨hx, ih.mp hrest⟩, fun ⟨hx, hrest⟩ ↦ ⟨_, hx, ih.mpr hrest⟩⟩

/-! ## Exceptions of a kind -/

/-- The step raises an exception of the kind `P`. -/
def Raises (P : ε → Prop) (x : Except ε α) : Prop := ∃ e, x = .error e ∧ P e

section Raises

variable {P : ε → Prop}

@[simp] theorem not_raises_ok {a : α} : ¬Raises P (.ok a : Except ε α) :=
  fun ⟨_, h, _⟩ ↦ nomatch h

@[simp] theorem raises_error {e : ε} : Raises P (.error e : Except ε α) ↔ P e :=
  ⟨fun ⟨_, h, hP⟩ ↦ Except.error.inj h ▸ hP, fun h ↦ ⟨e, rfl, h⟩⟩

theorem not_raises_of_ok {x : Except ε α} {a : α} (h : x = .ok a) : ¬Raises P x :=
  h ▸ not_raises_ok

/-- A chain raises in its first step, or in the rest after the first step returned. -/
theorem raises_bind {x : Except ε α} {f : α → Except ε β} :
    Raises P (x >>= f) ↔ Raises P x ∨ ∃ a, x = .ok a ∧ Raises P (f a) := by
  cases x with
  | error e => simp
  | ok a => simp

/-- A guard whose exception is of another kind only lets the rest raise. -/
theorem raises_require_bind {c : Prop} [Decidable c] {e : ε} {f : PUnit → Except ε β}
    (he : ¬P e) : Raises P (require c e >>= f) ↔ c ∧ Raises P (f ⟨⟩) := by
  by_cases h : c
  · rw [require_of h, ok_bind]
    exact (and_iff_right h).symm
  · rw [require_of_not h, error_bind, raises_error]
    exact ⟨fun hP ↦ absurd hP he, fun hc ↦ absurd hc.1 h⟩

theorem not_raises_require {c : Prop} [Decidable c] {e : ε} (he : ¬P e) :
    ¬Raises.{u, v} P (require c e) := by
  by_cases h : c
  · rw [require_of h]
    exact not_raises_ok
  · rw [require_of_not h, raises_error]
    exact he

/-- A first step that never raises the kind: the rest does, after it. -/
theorem raises_bind_of_not {x : Except ε α} {f : α → Except ε β} (h : ¬Raises P x) :
    Raises P (x >>= f) ↔ ∃ a, x = .ok a ∧ Raises P (f a) := by
  rw [raises_bind, or_iff_right h]

/-- A loop raises at the first element that its body does not get past. -/
theorem raises_foldlM {f : σ → α → Except ε σ} {s : σ} {xs : List α} :
    Raises P (xs.foldlM f s) ↔
      ∃ pre x post t, xs = pre ++ x :: post ∧ pre.foldlM f s = .ok t ∧ Raises P (f t x) := by
  constructor
  · intro h
    induction xs generalizing s with
    | nil => exact absurd h not_raises_ok
    | cons x xs ih =>
      rw [List.foldlM_cons, raises_bind] at h
      rcases h with h | ⟨t, hx, h⟩
      · exact ⟨[], x, xs, s, rfl, rfl, h⟩
      · obtain ⟨pre, y, post, t', rfl, hpre, hy⟩ := ih h
        refine ⟨x :: pre, y, post, t', rfl, ?_, hy⟩
        rw [List.foldlM_cons, hx]
        exact hpre
  · rintro ⟨pre, x, post, t, rfl, hpre, hx⟩
    rw [List.foldlM_append, hpre, ok_bind, List.foldlM_cons, raises_bind]
    exact Or.inl hx

/-- A chain whose steps never raise the kind does not either. -/
theorem not_raises_bind {x : Except ε α} {f : α → Except ε β} (h : ¬Raises P x)
    (hf : ∀ a, x = .ok a → ¬Raises P (f a)) : ¬Raises P (x >>= f) := by
  rw [raises_bind_of_not h]
  rintro ⟨a, ha, hraises⟩
  exact hf a ha hraises

theorem not_raises_foldlM {f : σ → α → Except ε σ} {xs : List α}
    (h : ∀ t, ∀ x ∈ xs, ¬Raises P (f t x)) {s : σ} : ¬Raises P (xs.foldlM f s) := by
  rw [raises_foldlM]
  rintro ⟨pre, x, post, t, rfl, -, hx⟩
  exact h t x (List.mem_append_right _ List.mem_cons_self) hx

theorem not_raises_mapM {f : α → Except ε β} {xs : List α} (h : ∀ x ∈ xs, ¬Raises P (f x)) :
    ¬Raises P (xs.mapM f) := by
  induction xs with
  | nil => exact not_raises_ok
  | cons x xs ih =>
    obtain ⟨hx, hxs⟩ := List.forall_mem_cons.mp h
    rw [List.mapM_cons]
    exact not_raises_bind hx fun _ _ ↦ not_raises_bind (ih hxs) fun _ _ ↦ not_raises_ok

theorem raises_forM {f : α → Except ε PUnit.{v + 1}} {xs : List α} :
    Raises P (xs.forM f) ↔
      ∃ pre x post, xs = pre ++ x :: post ∧ (∀ y ∈ pre, f y = .ok ⟨⟩) ∧ Raises P (f x) := by
  induction xs with
  | nil =>
    refine iff_of_false not_raises_ok ?_
    rintro ⟨pre, x, post, hsplit, -⟩
    exact List.append_ne_nil_of_right_ne_nil pre (List.cons_ne_nil x post) hsplit.symm
  | cons x xs ih =>
    change Raises P (f x >>= fun _ ↦ xs.forM f) ↔ _
    rw [raises_bind]
    constructor
    · rintro (h | ⟨w, hx, h⟩)
      · exact ⟨[], x, xs, rfl, List.forall_mem_nil _, h⟩
      · obtain ⟨pre, y, post, rfl, hpre, hy⟩ := ih.mp h
        exact ⟨x :: pre, y, post, rfl, List.forall_mem_cons.mpr ⟨hx, hpre⟩, hy⟩
    · rintro ⟨pre, y, post, hsplit, hpre, hy⟩
      rcases List.cons_eq_append_iff.mp hsplit with ⟨rfl, heq⟩ | ⟨pre', rfl, rfl⟩
      · cases heq
        exact Or.inl hy
      · obtain ⟨hx, hpre'⟩ := List.forall_mem_cons.mp hpre
        exact Or.inr ⟨_, hx, ih.mpr ⟨pre', y, post, rfl, hpre', hy⟩⟩

theorem not_raises_forM {f : α → Except ε PUnit.{v + 1}} {xs : List α} (h : ∀ x ∈ xs, ¬Raises P (f x)) :
    ¬Raises P (xs.forM f) := by
  rw [raises_forM]
  rintro ⟨pre, x, post, rfl, -, hx⟩
  exact h x (List.mem_append_right _ List.mem_cons_self) hx

/-- `try: x`, where an exception of the kind `P` is raised again as `e'`. -/
def recast (P : ε → Prop) [DecidablePred P] (e' : ε) : Except ε α → Except ε α
  | .ok a => .ok a
  | .error e => .error (if P e then e' else e)

theorem recast_eq_ok [DecidablePred P] {e' : ε} {x : Except ε α} {a : α} :
    recast P e' x = .ok a ↔ x = .ok a := by
  cases x <;> simp [recast]

theorem not_raises_recast [DecidablePred P] {Q : ε → Prop} {e' : ε} {x : Except ε α} (he' : ¬Q e')
    (hx : ¬Raises (fun e ↦ ¬P e) x) : ¬Raises Q (recast P e' x) := by
  cases x with
  | ok a => exact not_raises_ok
  | error e =>
    rw [raises_error, not_not] at hx
    rw [recast, if_pos hx, raises_error]
    exact he'

/-- Two loops return alike when their bodies do. -/
theorem foldlM_ok_congr {f g : σ → α → Except ε σ} (h : ∀ s x t, f s x = .ok t ↔ g s x = .ok t)
    {xs : List α} {s t : σ} : xs.foldlM f s = .ok t ↔ xs.foldlM g s = .ok t := by
  induction xs generalizing s with
  | nil => exact Iff.rfl
  | cons x xs ih =>
    rw [List.foldlM_cons, List.foldlM_cons, bind_eq_ok, bind_eq_ok]
    exact exists_congr fun u ↦ and_congr (h s x u) ih

end Raises

/-! ## Transactions -/

/-- Run a transaction body on `s`: its new state is committed when it returns, and every write is
rolled back when it raises. -/
def transaction (s : σ) (body : Except ε (α × σ)) : Except ε α × σ :=
  match body with
  | .ok (a, s') => (.ok a, s')
  | .error e => (.error e, s)

@[simp] theorem transaction_ok (s s' : σ) (a : α) :
    transaction s (.ok (a, s') : Except ε (α × σ)) = (.ok a, s') := rfl

@[simp] theorem transaction_error (s : σ) (e : ε) :
    transaction s (.error e : Except ε (α × σ)) = (.error e, s) := rfl

/-- **Atomicity.** A transaction that raises leaves the state as it was. -/
theorem transaction_rollback {s : σ} {body : Except ε (α × σ)} {e : ε}
    (h : (transaction s body).1 = .error e) : (transaction s body).2 = s := by
  cases body with
  | error e' => rfl
  | ok r => exact nomatch h

theorem transaction_fst_eq_ok {s : σ} {body : Except ε (α × σ)} {a : α} :
    (transaction s body).1 = .ok a ↔ body = .ok (a, (transaction s body).2) := by
  cases body with
  | error e => exact ⟨nofun, nofun⟩
  | ok r => simp [transaction, Prod.ext_iff]

/-- A transaction raises what its body raises. -/
theorem raises_transaction {P : ε → Prop} {s : σ} {body : Except ε (α × σ)} :
    Raises P (transaction s body).1 ↔ Raises P body := by
  cases body with
  | error e => rw [transaction_error, raises_error, raises_error]
  | ok r => exact iff_of_false not_raises_ok not_raises_ok

/-- A property of the state survives a transaction when every body that returns keeps it. -/
theorem transaction_snd_of {P : σ → Prop} {s : σ} {body : Except ε (α × σ)} (hs : P s)
    (h : ∀ a s', body = .ok (a, s') → P s') : P (transaction s body).2 := by
  cases body with
  | error e => exact hs
  | ok r => exact h r.1 r.2 rfl

end Outcome
