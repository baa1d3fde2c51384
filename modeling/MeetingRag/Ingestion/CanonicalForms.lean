import MeetingRag.Ingestion.Canonical

/-!
# Canonical forms of any value

`canonicalize_json` is a guarded map. What it maps a value to is `canonicalForm`, with its leaves in
canonical form and its texts and keys normalized; it raises if a number is not finite or if two keys of
an object become one (`canonicalizeJson_eq_ok`). On values whose numbers are binary64 values the map is
a projection, since rounding to six decimals is one, and what it arrives at can be told from its text.

Two values that differ in the order of their keys, in newlines or in the composition of characters are
`Variant`s. Their canonical forms differ in the order of the keys alone.
-/

open Outcome Py Py.Json

namespace MeetingRag

/-! ## The map -/

section Map

variable (U : Nfc)

mutual

/-- What a value is mapped to. -/
def canonicalForm : Json → Json
  | .array items => .array (canonicalFormItems items)
  | .object fields => .object (canonicalFormFields fields)
  | v => canonicalLeaf U v

def canonicalFormItems : List Json → List Json
  | [] => []
  | v :: items => canonicalForm v :: canonicalFormItems items

def canonicalFormFields : Fields → Fields
  | [] => []
  | (key, v) :: fields => (U.normalizeText key, canonicalForm v) :: canonicalFormFields fields

end

/-- A field of an object is mapped with its key. -/
def canonicalField (f : Str × Json) : Str × Json := (U.normalizeText f.1, canonicalForm U f.2)

/-- A finite number, or no number with a fraction. -/
def FiniteLeaf (v : Json) : Prop := ∀ x, v = .float x → x.isFinite = true

/-- Numbers are finite and normalized keys distinct. -/
def Canonicalizable : Json → Prop :=
  Each FiniteLeaf fun ks ↦ (ks.map U.normalizeText).Nodup

end Map

variable {U : Nfc}

theorem canonicalForm_array (items : List Json) :
    canonicalForm U (.array items) = .array (items.map (canonicalForm U)) := by
  have hitems : canonicalFormItems U items = items.map (canonicalForm U) := by
    induction items with
    | nil => rfl
    | cons v items ih => rw [canonicalFormItems, ih, List.map_cons]
  rw [canonicalForm, hitems]

theorem canonicalForm_object (fields : Fields) :
    canonicalForm U (.object fields) = .object (fields.map (canonicalField U)) := by
  have hfields : canonicalFormFields U fields = fields.map (canonicalField U) := by
    induction fields with
    | nil => rfl
    | cons f fields ih =>
      rw [canonicalFormFields, ih]
      rfl
  rw [canonicalForm, hfields]

theorem canonicalForm_leaf {v : Json} (h : IsLeaf v) : canonicalForm U v = canonicalLeaf U v := by
  cases v with
  | array items => exact h.elim
  | object fields => exact h.elim
  | _ => rfl

/-- The keys of a mapped object. -/
theorem keys_canonicalField (fields : Fields) : (fields.map (canonicalField U)).map Prod.fst =
    (fields.map Prod.fst).map U.normalizeText := by
  rw [List.map_map, List.map_map]
  rfl

theorem canonicalizeLeaf_eq_ok {m : String} {v c : Json} (hleaf : IsLeaf v) :
    canonicalizeJson U m v = .ok c ↔ FiniteLeaf v ∧ c = canonicalLeaf U v := by
  have hplain : ∀ {w}, (∀ x, w ≠ .float x) → canonicalizeJson U m w = .ok (canonicalLeaf U w) →
      (canonicalizeJson U m w = .ok c ↔ FiniteLeaf w ∧ c = canonicalLeaf U w) := by
    intro w hw h
    rw [h, Except.ok.injEq, eq_comm]
    exact (and_iff_right fun x hx ↦ absurd hx (hw x)).symm
  cases v with
  | array items => exact hleaf.elim
  | object fields => exact hleaf.elim
  | float x =>
    cases x with
    | finite q =>
      have hfinite : FiniteLeaf (.float (.finite q)) := fun x hx ↦ by
        cases hx
        rfl
      have hrounded : normalizeFloat (.finite q) = .ok (canonicalLeaf U (.float (.finite q))) := by
        rw [normalizeFloat, canonicalLeaf]
        cases roundDigits q <;> rfl
      rw [and_iff_right hfinite, canonicalizeJson, hrounded, Except.ok.injEq, eq_comm]
    | inf | negInf | nan =>
      refine iff_of_false (by rintro ⟨⟩) fun h ↦ ?_
      exact absurd (h.1 _ rfl) (by decide)
  | null | bool | int | str => exact hplain (by rintro _ ⟨⟩) rfl

theorem canonicalizeItems_eq_ok {m : String} {items ws : List Json}
    (h : ∀ v ∈ items, ∀ c, canonicalizeJson U m v = .ok c ↔
      Canonicalizable U v ∧ c = canonicalForm U v) :
    canonicalizeItems U m items = .ok ws ↔
      (∀ v ∈ items, Canonicalizable U v) ∧ ws = items.map (canonicalForm U) := by
  induction items generalizing ws with
  | nil => simp [canonicalizeItems, eq_comm]
  | cons v items ih =>
    obtain ⟨hv, hitems⟩ := List.forall_mem_cons.mp h
    simp only [canonicalizeItems, bind_eq_ok, hv, ih hitems, Except.ok.injEq]
    constructor
    · rintro ⟨_, ⟨hcan, rfl⟩, _, ⟨hall, rfl⟩, rfl⟩
      exact ⟨List.forall_mem_cons.mpr ⟨hcan, hall⟩, rfl⟩
    · rintro ⟨hall, rfl⟩
      obtain ⟨hcan, hall⟩ := List.forall_mem_cons.mp hall
      exact ⟨_, ⟨hcan, rfl⟩, _, ⟨hall, rfl⟩, rfl⟩

theorem canonicalizeFields_eq_ok {m : String} {fields ws : Fields}
    (h : ∀ f ∈ fields, ∀ c, canonicalizeJson U m f.2 = .ok c ↔
      Canonicalizable U f.2 ∧ c = canonicalForm U f.2) (done : Fields) :
    canonicalizeFields U m fields done = .ok ws ↔
      (((fields.map (canonicalField U)).map Prod.fst).Nodup ∧
        ∀ k ∈ (fields.map (canonicalField U)).map Prod.fst, k ∉ done.map Prod.fst) ∧
      (∀ f ∈ fields, Canonicalizable U f.2) ∧ ws = done ++ fields.map (canonicalField U) := by
  induction fields generalizing done with
  | nil => simp [canonicalizeFields, eq_comm]
  | cons f fields ih =>
    obtain ⟨key, v⟩ := f
    obtain ⟨hv, hfields⟩ := List.forall_mem_cons.mp h
    have hv : ∀ c, canonicalizeJson U m v = .ok c ↔ Canonicalizable U v ∧ c = canonicalForm U v := hv
    simp only [canonicalizeFields, ite_error_eq_ok, bind_eq_ok, hv, ih hfields, List.map_cons,
      List.nodup_cons, List.forall_mem_cons, List.map_append, List.mem_append, List.map_nil,
      List.mem_singleton, not_or, canonicalField, List.append_assoc, List.singleton_append]
    constructor
    · rintro ⟨hfresh, _, ⟨hcan, rfl⟩, ⟨hnodup, hapart⟩, hall, rfl⟩
      exact ⟨⟨⟨fun hmem ↦ (hapart _ hmem).2 rfl, hnodup⟩, hfresh, fun k hk ↦ (hapart k hk).1⟩,
        ⟨hcan, hall⟩, rfl⟩
    · rintro ⟨⟨⟨hnot, hnodup⟩, hfresh, hapart⟩, ⟨hcan, hall⟩, rfl⟩
      refine ⟨hfresh, _, ⟨hcan, rfl⟩, ⟨hnodup, fun k hk ↦ ⟨hapart k hk, ?_⟩⟩, hall, rfl⟩
      rintro rfl
      exact hnot hk

/-- **Canonicalisation is a guarded map.** -/
theorem canonicalizeJson_eq_ok {m : String} {v : Json} : ∀ c,
    canonicalizeJson U m v = .ok c ↔ Canonicalizable U v ∧ c = canonicalForm U v := by
  induction v using leafInduct with
  | leaf v hleaf =>
    intro c
    rw [canonicalizeLeaf_eq_ok hleaf, canonicalForm_leaf hleaf, Canonicalizable, each_of_leaf hleaf]
  | array items ih =>
    intro c
    rw [canonicalForm_array, Canonicalizable, each_array, canonicalizeJson, bind_eq_ok]
    simp only [canonicalizeItems_eq_ok ih, Except.ok.injEq]
    constructor
    · rintro ⟨_, ⟨hall, hws⟩, hc⟩
      exact ⟨hall, by rw [← hc, hws]⟩
    · rintro ⟨hall, hc⟩
      exact ⟨_, ⟨hall, rfl⟩, hc.symm⟩
  | object fields ih =>
    intro c
    rw [canonicalForm_object, Canonicalizable, each_object, canonicalizeJson, bind_eq_ok,
      ← keys_canonicalField]
    simp only [canonicalizeFields_eq_ok ih, Except.ok.injEq, List.map_nil, List.not_mem_nil,
      not_false_eq_true, implies_true, and_true, List.nil_append]
    constructor
    · rintro ⟨_, ⟨hnodup, hall, hws⟩, hc⟩
      exact ⟨⟨hnodup, hall⟩, by rw [← hc, hws]⟩
    · rintro ⟨⟨hnodup, hall⟩, hc⟩
      exact ⟨_, ⟨hnodup, hall, rfl⟩, hc.symm⟩

/-! ## Binary64 numbers -/

/-- A float is a binary64 value. -/
def DoubleLeaf (v : Json) : Prop := ∀ q, v = .float (.finite q) → IsDouble q

/-- Every float of a value is one. -/
def Doubles : Json → Prop := Each DoubleLeaf fun _ ↦ True

/-- A leaf that canonicalisation leaves alone. -/
def CanonicalLeaf (U : Nfc) (v : Json) : Prop := FiniteLeaf v ∧ canonicalLeaf U v = v ∧ Readable v

/-- The canonical form of a binary64 leaf. -/
theorem canonicalLeaf_canonicalLeaf_of_double {v : Json} (hleaf : IsLeaf v) (hfinite : FiniteLeaf v)
    (hdouble : DoubleLeaf v) : IsLeaf (canonicalLeaf U v) ∧ CanonicalLeaf U (canonicalLeaf U v) := by
  refine ⟨isLeaf_canonicalLeaf hleaf, ?_⟩
  have hplain : ∀ {w : Json}, (∀ x, w ≠ .float x) → canonicalLeaf U w = w → CanonicalLeaf U w :=
    fun hw hsame ↦ ⟨fun x hx ↦ absurd hx (hw x), hsame, fun q hq ↦ absurd hq (hw _)⟩
  cases v with
  | array items => exact hleaf.elim
  | object fields => exact hleaf.elim
  | str s => exact hplain (by rintro _ ⟨⟩) (congrArg Json.str (U.normalizeText_normalizeText s))
  | null | bool | int => exact hplain (by rintro _ ⟨⟩) rfl
  | float x =>
    cases x with
    | inf | negInf | nan => exact absurd (hfinite _ rfl) (by decide)
    | finite q =>
      obtain ⟨r, hround, hr, hagain⟩ := exists_roundDigits_of_isDouble (hdouble q rfl)
      have hform : canonicalLeaf U (.float (.finite q)) =
          if r.isInt then .int r.num else .float (.finite r) := by rw [canonicalLeaf, hround]
      rw [hform]
      by_cases hint : r.isInt = true
      · rw [if_pos hint]
        exact hplain (by rintro _ ⟨⟩) rfl
      · rw [if_neg hint]
        refine ⟨fun x hx ↦ ?_, ?_, fun q' hq' ↦ ?_⟩
        · cases hx
          rfl
        · rw [canonicalLeaf, hagain]
          exact if_neg hint
        · obtain rfl : r = q' := PyFloat.finite.inj (Json.float.inj hq')
          refine ofRat_floatRepr ?_ hr
          rintro rfl
          exact hint rfl

/-- The leaves and the keys of a canonical form are canonical. -/
theorem each_canonicalForm {v : Json} (hcan : Canonicalizable U v) (hdoubles : Doubles v) :
    Each (CanonicalLeaf U) (fun ks ↦ ks.Nodup ∧ ∀ k ∈ ks, U.normalizeText k = k)
      (canonicalForm U v) := by
  induction v using leafInduct with
  | leaf v hleaf =>
    rw [canonicalForm_leaf hleaf]
    obtain ⟨hleaf', hcanonical⟩ := canonicalLeaf_canonicalLeaf_of_double (U := U) hleaf
      ((each_of_leaf hleaf).mp hcan) ((each_of_leaf hleaf).mp hdoubles)
    exact Each.leaf hleaf' hcanonical
  | array items ih =>
    rw [canonicalForm_array]
    refine Each.array (List.forall_mem_map.mpr fun v hv ↦ ?_)
    exact ih v hv (each_array.mp hcan v hv) (each_array.mp hdoubles v hv)
  | object fields ih =>
    obtain ⟨hkeys, hfields⟩ := each_object.mp hcan
    rw [canonicalForm_object]
    refine Each.object ?_ (List.forall_mem_map.mpr fun f hf ↦ ?_)
    · rw [keys_canonicalField]
      exact ⟨hkeys, List.forall_mem_map.mpr fun k _ ↦ U.normalizeText_normalizeText k⟩
    · exact ih f hf (hfields f hf) ((each_object.mp hdoubles).2 f hf)

/-- A value with canonical leaves and keys is canonicalized to itself. -/
theorem canonicalForm_eq_self {v : Json}
    (h : Each (CanonicalLeaf U) (fun ks ↦ ks.Nodup ∧ ∀ k ∈ ks, U.normalizeText k = k) v) :
    Canonicalizable U v ∧ canonicalForm U v = v := by
  induction v using leafInduct with
  | leaf v hleaf =>
    obtain ⟨hfinite, hsame, -⟩ := (each_of_leaf hleaf).mp h
    exact ⟨Each.leaf hleaf hfinite, (canonicalForm_leaf hleaf).trans hsame⟩
  | array items ih =>
    have hitems := fun v hv ↦ ih v hv (each_array.mp h v hv)
    refine ⟨Each.array fun v hv ↦ (hitems v hv).1, ?_⟩
    rw [canonicalForm_array]
    exact congrArg Json.array
      ((List.map_congr_left fun v hv ↦ (hitems v hv).2).trans (List.map_id' items))
  | object fields ih =>
    obtain ⟨⟨hnodup, hkeys⟩, hfields⟩ := each_object.mp h
    have hfields' := fun f hf ↦ ih f hf (hfields f hf)
    have hsame : (fields.map Prod.fst).map U.normalizeText = fields.map Prod.fst :=
      (List.map_congr_left hkeys).trans (List.map_id' _)
    refine ⟨Each.object (by rw [hsame]; exact hnodup) fun f hf ↦ (hfields' f hf).1, ?_⟩
    have hfield : ∀ f ∈ fields, canonicalField U f = f := fun f hf ↦
      Prod.ext (hkeys _ (List.mem_map_of_mem hf)) (hfields' f hf).2
    rw [canonicalForm_object]
    exact congrArg Json.object ((List.map_congr_left hfield).trans (List.map_id' fields))

/-- **Canonicalisation is a projection.** -/
theorem canonicalizeJson_canonicalForm (m : String) {v c : Json} (hdoubles : Doubles v)
    (h : canonicalizeJson U m v = .ok c) : canonicalizeJson U m c = .ok c := by
  obtain ⟨hcan, rfl⟩ := (canonicalizeJson_eq_ok c).mp h
  obtain ⟨hcan', hsame⟩ := canonicalForm_eq_self (each_canonicalForm hcan hdoubles)
  exact (canonicalizeJson_eq_ok _).mpr ⟨hcan', hsame.symm⟩

/-! ## Texts -/

/-- Every value nests to some depth. -/
theorem exists_within (v : Json) : ∃ n, ∀ m, n ≤ m → Within m v := by
  have hbound : ∀ {α : Type} (l : List α) (value : α → Json),
      (∀ a ∈ l, ∃ n, ∀ m, n ≤ m → Within m (value a)) →
      ∃ n, ∀ m, n ≤ m → ∀ a ∈ l, Within m (value a) := by
    intro α l value h
    induction l with
    | nil => exact ⟨0, fun _ _ ↦ List.forall_mem_nil _⟩
    | cons a l ih =>
      obtain ⟨ha, hl⟩ := List.forall_mem_cons.mp h
      obtain ⟨n₁, hn₁⟩ := ha
      obtain ⟨n₂, hn₂⟩ := ih hl
      refine ⟨max n₁ n₂, fun m hm ↦ List.forall_mem_cons.mpr ⟨hn₁ m ?_, hn₂ m ?_⟩⟩
      · exact (le_max_left _ _).trans hm
      · exact (le_max_right _ _).trans hm
  have hsucc : ∀ {P : ℕ → Prop} {n : ℕ}, (∀ m, n ≤ m → P (m + 1)) → ∀ m, n + 1 ≤ m → P m := by
    intro P n h m hm
    obtain ⟨k, rfl⟩ := Nat.exists_eq_add_of_le' (Nat.le_of_add_left_le hm)
    exact h k (Nat.le_of_succ_le_succ hm)
  induction v using leafInduct with
  | leaf v hleaf => exact ⟨0, fun _ _ ↦ Within.leaf hleaf⟩
  | array items ih =>
    obtain ⟨n, hn⟩ := hbound items id ih
    exact ⟨n + 1, hsucc fun m hm ↦ Within.array (hn m hm)⟩
  | object fields ih =>
    obtain ⟨n, hn⟩ := hbound fields Prod.snd ih
    exact ⟨n + 1, hsucc fun m hm ↦ Within.object (hn m hm)⟩

/-- **A canonical form can be told from its text**, up to the order of its keys. -/
theorem sortKeys_eq_of_dumps {c c' : Json} {text : Str} (hc : Each Readable List.Nodup c)
    (hc' : Each Readable List.Nodup c') (h : dumps c = .ok text) (h' : dumps c' = .ok text) :
    sortKeys c = sortKeys c' := by
  obtain ⟨n, hn⟩ := exists_within c
  obtain ⟨n', hn'⟩ := exists_within c'
  have hobject : ∀ fields : Fields, (fields.map Prod.fst).Nodup →
      (Hooks.mk Except.ok fun _ ↦ .error .jsonDecodeError).object fields = .ok fields := fun _ _ ↦ rfl
  have hread := loads_dumps hobject h hc (hn _ (le_max_left n n'))
  have hread' := loads_dumps hobject h' hc' (hn' _ (le_max_right n n'))
  exact Except.ok.inj (hread.symm.trans hread')

/-! ## Variants -/

/-- Texts that differ in newlines, or in the composition of characters. -/
inductive TextVariant (U : Nfc) (s t : Str) : Prop
  | newlines (h : toLf s = toLf t)
  | composed (hs : (13 : CodePoint) ∉ s) (ht : (13 : CodePoint) ∉ t) (h : U.nfc s = U.nfc t)

theorem TextVariant.normalizeText_eq {s t : Str} (h : TextVariant U s t) :
    U.normalizeText s = U.normalizeText t := by
  cases h with
  | newlines h => rw [Nfc.normalizeText, h, Nfc.normalizeText]
  | composed hs ht h =>
    rw [Nfc.normalizeText, toLf_of_not_mem hs, h, Nfc.normalizeText, toLf_of_not_mem ht]

/-- One difference somewhere in a value: a text, a key, or the order of some keys. -/
inductive VariantStep (U : Nfc) : Json → Json → Prop
  | text {s t : Str} (h : TextVariant U s t) : VariantStep U (.str s) (.str t)
  | key {before after : Fields} {k k' : Str} {v : Json} (h : TextVariant U k k') :
      VariantStep U (.object (before ++ (k, v) :: after)) (.object (before ++ (k', v) :: after))
  | order {fields fields' : Fields} (h : fields.Perm fields') :
      VariantStep U (.object fields) (.object fields')
  | item {before after : List Json} {v w : Json} (h : VariantStep U v w) :
      VariantStep U (.array (before ++ v :: after)) (.array (before ++ w :: after))
  | value {before after : Fields} {k : Str} {v w : Json} (h : VariantStep U v w) :
      VariantStep U (.object (before ++ (k, v) :: after)) (.object (before ++ (k, w) :: after))

/-- Values that any number of such differences tell apart. -/
abbrev Variant (U : Nfc) : Json → Json → Prop := Relation.EqvGen (VariantStep U)

/-- Values with the same canonical form, up to the order of its keys. -/
def SameForm (U : Nfc) (v w : Json) : Prop :=
  (Canonicalizable U v ↔ Canonicalizable U w) ∧
    (Canonicalizable U v → sortKeys (canonicalForm U v) = sortKeys (canonicalForm U w))

theorem SameForm.refl (v : Json) : SameForm U v v := ⟨Iff.rfl, fun _ ↦ rfl⟩

theorem SameForm.symm {v w : Json} (h : SameForm U v w) : SameForm U w v :=
  ⟨h.1.symm, fun hw ↦ (h.2 (h.1.mpr hw)).symm⟩

theorem SameForm.trans {u v w : Json} (h : SameForm U u v) (h' : SameForm U v w) : SameForm U u w :=
  ⟨h.1.trans h'.1, fun hu ↦ (h.2 hu).trans (h'.2 (h.1.mp hu))⟩

/-- The order of distinct keys does not survive sorting. -/
theorem sortedFields_eq_of_perm {fields fields' : Fields} (h : fields.Perm fields')
    (hnodup : (fields.map Prod.fst).Nodup) : sortedFields fields = sortedFields fields' := by
  have htotal : Std.Total fun p q : Str × Json ↦ p.1 ≤ q.1 := ⟨fun p q ↦ le_total p.1 q.1⟩
  have htrans : IsTrans (Str × Json) fun p q ↦ p.1 ≤ q.1 := ⟨fun p q r ↦ le_trans⟩
  have hperm : (sortedFields fields).Perm (sortedFields fields') :=
    ((sortedFields_perm fields).trans h).trans (sortedFields_perm fields').symm
  -- two fields with one key are the same field
  refine hperm.eq_of_pairwise ?_ (List.pairwise_insertionSort _ fields)
    (List.pairwise_insertionSort _ fields')
  intro p q hp hq hpq hqp
  have hp' : p ∈ fields := (sortedFields_perm fields).mem_iff.mp hp
  have hq' : q ∈ fields := h.mem_iff.mpr ((sortedFields_perm fields').mem_iff.mp hq)
  exact List.inj_on_of_nodup_map hnodup hp' hq' (le_antisymm hpq hqp)

/-- The fields before and after one field are as they were. -/
theorem sameForm_field {before after : Fields} {f g : Str × Json}
    (hkey : U.normalizeText f.1 = U.normalizeText g.1) (h : SameForm U f.2 g.2) :
    SameForm U (.object (before ++ f :: after)) (.object (before ++ g :: after)) := by
  have hkeys : ((before ++ f :: after).map Prod.fst).map U.normalizeText =
      ((before ++ g :: after).map Prod.fst).map U.normalizeText := by
    simp only [List.map_append, List.map_cons, hkey]
  constructor
  · simp only [Canonicalizable, each_object, hkeys, List.forall_mem_append, List.forall_mem_cons]
    exact and_congr_right fun _ ↦ and_congr_right fun _ ↦ and_congr_left fun _ ↦ h.1
  · intro hcan
    have hvalue : sortKeys (canonicalForm U f.2) = sortKeys (canonicalForm U g.2) :=
      h.2 ((each_object.mp hcan).2 f (List.mem_append_right _ List.mem_cons_self))
    rw [canonicalForm_object, canonicalForm_object, sortKeys_object, sortKeys_object]
    simp only [mapValues, List.map_append, List.map_cons, canonicalField, hkey, hvalue]

theorem VariantStep.sameForm {v w : Json} (h : VariantStep U v w) : SameForm U v w := by
  induction h with
  | @text s t h =>
    refine ⟨iff_of_true ?_ ?_, fun _ ↦ ?_⟩
    · exact Each.leaf trivial fun _ heq ↦ nomatch heq
    · exact Each.leaf trivial fun _ heq ↦ nomatch heq
    · have hsame : canonicalForm U (.str s) = canonicalForm U (.str t) :=
        congrArg Json.str h.normalizeText_eq
      rw [hsame]
  | key h => exact sameForm_field h.normalizeText_eq (.refl _)
  | order h =>
    constructor
    · have hkeys := ((h.map Prod.fst).map U.normalizeText).nodup_iff
      simp only [Canonicalizable, each_object, hkeys, h.mem_iff]
    · intro hcan
      rw [canonicalForm_object, canonicalForm_object, sortKeys_object, sortKeys_object]
      refine congrArg Json.object (sortedFields_eq_of_perm ((h.map _).map _) ?_)
      rw [keys_mapValues, keys_canonicalField]
      exact (each_object.mp hcan).1
  | item h ih =>
    constructor
    · simp only [Canonicalizable, each_array, List.forall_mem_append, List.forall_mem_cons]
      exact and_congr_right fun _ ↦ and_congr_left fun _ ↦ ih.1
    · intro hcan
      have hitem := ih.2 (each_array.mp hcan _ (List.mem_append_right _ List.mem_cons_self))
      rw [canonicalForm_array, canonicalForm_array, sortKeys_array, sortKeys_array]
      simp only [List.map_append, List.map_cons, hitem]
  | value h ih => exact sameForm_field rfl ih

theorem Variant.sameForm {v w : Json} (h : Variant U v w) : SameForm U v w := by
  induction h with
  | rel v w hstep => exact hstep.sameForm
  | refl v => exact .refl v
  | symm v w _ ih => exact ih.symm
  | trans u v w _ _ ih ih' => exact ih.trans ih'

/-- The text of a value is that of its canonical form. -/
theorem canonicalJson_eq_ok {m : String} {v : Json} {text : Str} :
    canonicalJson U m v = .ok text ↔ Canonicalizable U v ∧ dumps (canonicalForm U v) = .ok text := by
  rw [canonicalJson, bind_eq_ok]
  constructor
  · rintro ⟨c, hc, htext⟩
    obtain ⟨hcan, rfl⟩ := (canonicalizeJson_eq_ok c).mp hc
    exact ⟨hcan, htext⟩
  · rintro ⟨hcan, htext⟩
    exact ⟨_, (canonicalizeJson_eq_ok _).mpr ⟨hcan, rfl⟩, htext⟩

/-- **Variants have one text**, or none. -/
theorem canonicalJson_eq_of_variant (m : String) {v w : Json} (h : Variant U v w) (text : Str) :
    canonicalJson U m v = .ok text ↔ canonicalJson U m w = .ok text := by
  obtain ⟨hiff, hform⟩ := h.sameForm
  rw [canonicalJson_eq_ok, canonicalJson_eq_ok]
  constructor
  · rintro ⟨hcan, htext⟩
    rw [dumps, hform hcan] at htext
    exact ⟨hiff.mp hcan, htext⟩
  · rintro ⟨hcan, htext⟩
    rw [dumps, ← hform (hiff.mpr hcan)] at htext
    exact ⟨hiff.mpr hcan, htext⟩

end MeetingRag
