import MeetingRag.Library.JsonText

/-!
# The order of the fields

The fields of an object have an order in a text and none in a program: a lookup does not see it as long
as the keys are distinct. `sortKeys` puts every object of a value in one order, and what a program reads
of the value stays the same.

`Each` says that every leaf of a value and the keys of every object have a property.
-/

open Outcome

namespace Py

namespace Json

/-- A value that is neither an array nor an object. -/
def IsLeaf : Json → Prop
  | .array _ | .object _ => False
  | _ => True

/-- Induction where the leaves are one case. -/
theorem leafInduct {motive : Json → Prop} (leaf : ∀ v, IsLeaf v → motive v)
    (array : ∀ items, (∀ v ∈ items, motive v) → motive (.array items))
    (object : ∀ fields, (∀ p ∈ fields, motive p.2) → motive (.object fields)) (v : Json) : motive v :=
  induct (leaf _ trivial) (fun _ ↦ leaf _ trivial) (fun _ ↦ leaf _ trivial) (fun _ ↦ leaf _ trivial)
    (fun _ ↦ leaf _ trivial) array object v

/-- Every leaf has the property `p`, and the keys of every object the property `q`. -/
inductive Each (p : Json → Prop) (q : List Str → Prop) : Json → Prop
  | leaf {v} (hleaf : IsLeaf v) (h : p v) : Each p q v
  | array {items} (h : ∀ v ∈ items, Each p q v) : Each p q (.array items)
  | object {fields : Fields} (hkeys : q (fields.map Prod.fst)) (h : ∀ f ∈ fields, Each p q f.2) :
    Each p q (.object fields)

section Each

variable {p : Json → Prop} {q : List Str → Prop}

theorem each_of_leaf {v : Json} (hleaf : IsLeaf v) : Each p q v ↔ p v := by
  constructor
  · rintro (⟨-, h⟩ | ⟨-⟩ | ⟨-, -⟩)
    · exact h
    · exact hleaf.elim
    · exact hleaf.elim
  · exact Each.leaf hleaf

theorem each_array {items : List Json} : Each p q (.array items) ↔ ∀ v ∈ items, Each p q v := by
  constructor
  · rintro (⟨hleaf, -⟩ | ⟨h⟩)
    · exact hleaf.elim
    · exact h
  · exact Each.array

theorem each_object {fields : Fields} :
    Each p q (.object fields) ↔ q (fields.map Prod.fst) ∧ ∀ f ∈ fields, Each p q f.2 := by
  constructor
  · rintro (⟨hleaf, -⟩ | - | ⟨hkeys, h⟩)
    · exact hleaf.elim
    · exact ⟨hkeys, h⟩
  · exact fun ⟨hkeys, h⟩ ↦ Each.object hkeys h

/-- An object under distinct names. -/
theorem Each.obj {r : Str → Prop} {fields : List (String × Json)} (hkeys : (fields.map Prod.fst).Nodup)
    (hnames : ∀ f ∈ fields, r (lit f.1)) (hq : ∀ ks : List Str, ks.Nodup → (∀ k ∈ ks, r k) → q ks)
    (h : ∀ f ∈ fields, Each p q f.2) : Each p q (.object (Json.obj fields)) := by
  refine Each.object (hq _ ?_ ?_) (List.forall_mem_map.mpr h)
  · rw [keys_obj]
    exact hkeys.map lit_injective
  · rw [keys_obj]
    exact List.forall_mem_map.mpr (List.forall_mem_map.mpr hnames)

/-- Weaker properties of leaves and keys. -/
theorem Each.imp {p' : Json → Prop} {q' : List Str → Prop} {v : Json} (h : Each p q v)
    (hp : ∀ v, p v → p' v) (hq : ∀ ks, q ks → q' ks) : Each p' q' v := by
  induction v using leafInduct with
  | leaf v hleaf => exact (each_of_leaf hleaf).mpr (hp v ((each_of_leaf hleaf).mp h))
  | array items ih => exact each_array.mpr fun v hv ↦ ih v hv (each_array.mp h v hv)
  | object fields ih =>
    obtain ⟨hkeys, hfields⟩ := each_object.mp h
    exact each_object.mpr ⟨hq _ hkeys, fun f hf ↦ ih f hf (hfields f hf)⟩

end Each

/-! ## Lookups -/

theorem find?_eq_some_iff_of_nodup {fields : Fields} (h : (fields.map Prod.fst).Nodup) {name : String}
    {f : Str × Json} :
    (fields.find? fun p ↦ p.1 = lit name) = some f ↔ f ∈ fields ∧ f.1 = lit name := by
  constructor
  · intro hfind
    have hname := List.find?_some hfind
    exact ⟨List.mem_of_find?_eq_some hfind, of_decide_eq_true hname⟩
  · rintro ⟨hmem, hname⟩
    cases hfind : fields.find? fun p ↦ p.1 = lit name with
    | none => exact absurd (decide_eq_true hname) (List.find?_eq_none.mp hfind f hmem)
    | some g =>
      have hg := List.find?_some hfind
      have hkey : g.1 = f.1 := (of_decide_eq_true hg).trans hname.symm
      rw [List.inj_on_of_nodup_map h (List.mem_of_find?_eq_some hfind) hmem hkey]

/-- A lookup in distinct keys does not see their order. -/
theorem get_perm {fields fields' : Fields} (hperm : fields.Perm fields')
    (hnodup : (fields.map Prod.fst).Nodup) (name : String) : get fields name = get fields' name := by
  have hnodup' : (fields'.map Prod.fst).Nodup := (hperm.map _).nodup_iff.mp hnodup
  have hfind : (fields.find? fun p ↦ p.1 = lit name) = fields'.find? fun p ↦ p.1 = lit name := by
    ext f
    rw [find?_eq_some_iff_of_nodup hnodup, find?_eq_some_iff_of_nodup hnodup', hperm.mem_iff]
  rw [get, get, hfind]

/-- The fields of an object with every value mapped. -/
def mapValues (f : Json → Json) (fields : Fields) : Fields := fields.map fun p ↦ (p.1, f p.2)

@[simp] theorem keys_mapValues (f : Json → Json) (fields : Fields) :
    (mapValues f fields).map Prod.fst = fields.map Prod.fst := by
  rw [mapValues, List.map_map]
  rfl

theorem get_mapValues {f : Json → Json} (hnull : f .null = .null) (fields : Fields) (name : String) :
    get (mapValues f fields) name = f (get fields name) := by
  rw [get, get, mapValues, List.find?_map]
  cases hfind : fields.find? fun p ↦ p.1 = lit name with
  | none =>
    have hnone : fields.find? ((fun p : Str × Json ↦ decide (p.1 = lit name)) ∘ fun p ↦ (p.1, f p.2)) = none :=
      hfind
    rw [hnone]
    exact hnull.symm
  | some p =>
    have hsome : fields.find? ((fun p : Str × Json ↦ decide (p.1 = lit name)) ∘ fun p ↦ (p.1, f p.2)) =
        some p := hfind
    rw [hsome]
    rfl

/-! ## Texts -/

mutual

/-- The texts of a value, the keys of its objects included. -/
def texts : Json → List Str
  | .str s => [s]
  | .array items => itemTexts items
  | .object fields => fieldTexts fields
  | .null | .bool _ | .int _ | .float _ => []

def itemTexts : List Json → List Str
  | [] => []
  | v :: items => texts v ++ itemTexts items

def fieldTexts : Fields → List Str
  | [] => []
  | (key, v) :: fields => key :: texts v ++ fieldTexts fields

end

/-! ## Mapped leaves -/

mutual

/-- The value with every leaf mapped. -/
def mapLeaves (f : Json → Json) : Json → Json
  | .array items => .array (mapItems f items)
  | .object fields => .object (mapMembers f fields)
  | v => f v

def mapItems (f : Json → Json) : List Json → List Json
  | [] => []
  | v :: items => mapLeaves f v :: mapItems f items

def mapMembers (f : Json → Json) : Fields → Fields
  | [] => []
  | (key, v) :: fields => (key, mapLeaves f v) :: mapMembers f fields

end

section MapLeaves

variable {f : Json → Json}

theorem mapLeaves_array (items : List Json) :
    mapLeaves f (.array items) = .array (items.map (mapLeaves f)) := by
  have hitems : mapItems f items = items.map (mapLeaves f) := by
    induction items with
    | nil => rfl
    | cons v items ih => rw [mapItems, ih, List.map_cons]
  rw [mapLeaves, hitems]

theorem mapLeaves_object (fields : Fields) :
    mapLeaves f (.object fields) = .object (mapValues (mapLeaves f) fields) := by
  have hfields : mapMembers f fields = mapValues (mapLeaves f) fields := by
    induction fields with
    | nil => rfl
    | cons p fields ih =>
      rw [mapMembers, ih]
      rfl
  rw [mapLeaves, hfields]

theorem mapLeaves_leaf {v : Json} (h : IsLeaf v) : mapLeaves f v = f v := by
  cases v with
  | array items => exact h.elim
  | object fields => exact h.elim
  | _ => rfl

/-- What holds of the mapped leaves. -/
theorem each_mapLeaves {p p' : Json → Prop} {q : List Str → Prop} {v : Json}
    (hf : ∀ v, IsLeaf v → p v → IsLeaf (f v) ∧ p' (f v)) (h : Each p q v) : Each p' q (mapLeaves f v) := by
  induction v using leafInduct with
  | leaf v hleaf =>
    obtain ⟨hleaf', hp⟩ := hf v hleaf ((each_of_leaf hleaf).mp h)
    rw [mapLeaves_leaf hleaf]
    exact Each.leaf hleaf' hp
  | array items ih =>
    rw [mapLeaves_array]
    refine each_array.mpr fun v hv ↦ ?_
    obtain ⟨w, hw, rfl⟩ := List.mem_map.mp hv
    exact ih w hw (each_array.mp h w hw)
  | object fields ih =>
    obtain ⟨hkeys, hfields⟩ := each_object.mp h
    rw [mapLeaves_object]
    refine each_object.mpr ⟨by rwa [keys_mapValues], fun g hg ↦ ?_⟩
    obtain ⟨w, hw, rfl⟩ := List.mem_map.mp hg
    exact ih w hw (hfields w hw)

/-- A map that leaves the leaves alone. -/
theorem mapLeaves_eq_self {v : Json} {q : List Str → Prop} (h : Each (fun v ↦ f v = v) q v) :
    mapLeaves f v = v := by
  induction v using leafInduct with
  | leaf v hleaf => rw [mapLeaves_leaf hleaf, (each_of_leaf hleaf).mp h]
  | array items ih =>
    rw [mapLeaves_array]
    exact congrArg Json.array ((List.map_congr_left fun v hv ↦ ih v hv (each_array.mp h v hv)).trans
      (List.map_id' items))
  | object fields ih =>
    obtain ⟨-, hfields⟩ := each_object.mp h
    have hkept : ∀ g ∈ fields, (g.1, mapLeaves f g.2) = g := fun g hg ↦
      Prod.ext rfl (ih g hg (hfields g hg))
    rw [mapLeaves_object]
    exact congrArg Json.object ((List.map_congr_left hkept).trans (List.map_id' fields))

end MapLeaves

/-! ## Sorted keys -/

theorem sortItems_eq (items : List Json) : sortItems items = items.map sortKeys := by
  induction items with
  | nil => rfl
  | cons v items ih => rw [sortItems, ih, List.map_cons]

theorem sortMembers_eq (fields : Fields) : sortMembers fields = mapValues sortKeys fields := by
  induction fields with
  | nil => rfl
  | cons p fields ih =>
    rw [sortMembers, ih]
    rfl

theorem sortKeys_array (items : List Json) : sortKeys (.array items) = .array (items.map sortKeys) := by
  rw [sortKeys, sortItems_eq]

theorem sortKeys_object (fields : Fields) :
    sortKeys (.object fields) = .object (sortedFields (mapValues sortKeys fields)) := by
  rw [sortKeys, sortMembers_eq]

theorem sortKeys_leaf {v : Json} (h : IsLeaf v) : sortKeys v = v := by
  cases v with
  | array items => exact h.elim
  | object fields => exact h.elim
  | _ => rfl

theorem sortedFields_perm (fields : Fields) : (sortedFields fields).Perm fields :=
  List.perm_insertionSort _ fields

/-- Sorting looks at the keys alone. -/
theorem mapValues_sortedFields (f : Json → Json) (fields : Fields) :
    mapValues f (sortedFields fields) = sortedFields (mapValues f fields) :=
  List.map_insertionSort _ _ _ _ fun _ _ _ _ ↦ Iff.rfl

theorem sortedFields_sortedFields (fields : Fields) :
    sortedFields (sortedFields fields) = sortedFields fields := by
  have htotal : Std.Total fun p q : Str × Json ↦ p.1 ≤ q.1 := ⟨fun p q ↦ le_total p.1 q.1⟩
  have htrans : IsTrans (Str × Json) fun p q ↦ p.1 ≤ q.1 := ⟨fun p q r ↦ le_trans⟩
  exact (List.pairwise_insertionSort _ fields).insertionSort_eq

/-- Sorting twice is sorting once. -/
theorem sortKeys_sortKeys (v : Json) : sortKeys (sortKeys v) = sortKeys v := by
  induction v using leafInduct with
  | leaf v hleaf => rw [sortKeys_leaf hleaf, sortKeys_leaf hleaf]
  | array items ih =>
    rw [sortKeys_array, sortKeys_array, List.map_map]
    exact congrArg Json.array (List.map_congr_left ih)
  | object fields ih =>
    rw [sortKeys_object, sortKeys_object, mapValues_sortedFields, sortedFields_sortedFields]
    have hfields : mapValues sortKeys (mapValues sortKeys fields) = mapValues sortKeys fields := by
      rw [mapValues, mapValues, List.map_map]
      exact List.map_congr_left fun p hp ↦ Prod.ext rfl (ih p hp)
    rw [hfields]

theorem each_sortKeys {p : Json → Prop} {q : List Str → Prop}
    (hperm : ∀ ks ks' : List Str, ks.Perm ks' → q ks → q ks') {v : Json} (h : Each p q v) :
    Each p q (sortKeys v) := by
  induction v using leafInduct with
  | leaf v hleaf => rwa [sortKeys_leaf hleaf]
  | array items ih =>
    rw [sortKeys_array]
    refine each_array.mpr fun v hv ↦ ?_
    obtain ⟨w, hw, rfl⟩ := List.mem_map.mp hv
    exact ih w hw (each_array.mp h w hw)
  | object fields ih =>
    rw [sortKeys_object]
    obtain ⟨hkeys, hfields⟩ := each_object.mp h
    have hsorted := sortedFields_perm (mapValues sortKeys fields)
    refine each_object.mpr ⟨?_, fun f hf ↦ ?_⟩
    · refine hperm _ _ (hsorted.symm.map _) ?_
      rwa [keys_mapValues]
    · obtain ⟨g, hg, rfl⟩ := List.mem_map.mp (hsorted.mem_iff.mp hf)
      exact ih g hg (hfields g hg)

/-- What a program looks up in an object with distinct keys after sorting. -/
theorem get_sorted {fields : Fields} (hnodup : (fields.map Prod.fst).Nodup) (name : String) :
    get (sortedFields (mapValues sortKeys fields)) name = sortKeys (get fields name) := by
  have hkeys : ((mapValues sortKeys fields).map Prod.fst).Nodup := by rwa [keys_mapValues]
  rw [← get_perm (sortedFields_perm _).symm hkeys, get_mapValues rfl]

end Json

end Py
