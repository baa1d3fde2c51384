import Mathlib.Data.List.Flatten
import Mathlib.Data.List.Nodup
import MeetingRag.Library.Str

/-!
# Element trees

A parsed XML document is a tree of elements. An element has the searches of `ElementTree`: its children
with a tag (`findall`), the first of them (`find`), and all elements with a tag in it, in document order
(`iter`).

Two elements may be equal, so what is said about an element is said about its *position*: the list of
the numbers of the children on the way to it (`located`). Positions are distinct, and those in a part of
the tree start with the position of that part.
-/

namespace Py

/-- An element: its tag, its attributes, the text before its first child, and its children. -/
inductive XmlElement
  | mk (tag : String) (attributes : List (String × Str)) (text : Option Str)
    (children : List XmlElement)

namespace XmlElement

def tag : XmlElement → String
  | mk tag _ _ _ => tag

/-- `element.get(name)`. -/
def get (name : String) : XmlElement → Option Str
  | mk _ attributes _ _ => attributes.lookup name

/-- `element.text or ""`. -/
def ownText : XmlElement → Str
  | mk _ _ text _ => text.getD []

def children : XmlElement → List XmlElement
  | mk _ _ _ children => children

/-- `element.findall(tag)`. -/
def findall (name : String) (e : XmlElement) : List XmlElement := e.children.filter (·.tag = name)

/-- `element.find(tag)`. -/
def find (name : String) (e : XmlElement) : Option XmlElement := e.children.find? (·.tag = name)

mutual

/-- `element.iter(tag)`. -/
def iter (name : String) : XmlElement → List XmlElement
  | mk tag attributes text children =>
    (if tag = name then [mk tag attributes text children] else []) ++ iterIn name children

def iterIn (name : String) : List XmlElement → List XmlElement
  | [] => []
  | child :: rest => iter name child ++ iterIn name rest

end

mutual

/-- The elements with a tag, each with its position, in an element at a position. -/
def located (name : String) (position : List ℕ) : XmlElement → List (List ℕ × XmlElement)
  | mk tag attributes text children =>
    (if tag = name then [(position, mk tag attributes text children)] else []) ++
      locatedIn name position 0 children

/-- The same in the children from number `i` on. -/
def locatedIn (name : String) (position : List ℕ) (i : ℕ) :
    List XmlElement → List (List ℕ × XmlElement)
  | [] => []
  | child :: rest => located name (position ++ [i]) child ++ locatedIn name position (i + 1) rest

end

/-- The children with a tag and their numbers. -/
def numbered (name : String) (e : XmlElement) : List (XmlElement × ℕ) :=
  e.children.zipIdx.filter (·.1.tag = name)

/-- The tags on the way to a position. -/
def tagPath : XmlElement → List ℕ → List String
  | _, [] => []
  | e, i :: rest => e.children[i]?.elim [] fun child ↦ child.tag :: tagPath child rest

/-- Induction over an element. -/
@[elab_as_elim]
theorem induct {motive : XmlElement → Prop}
    (mk : ∀ tag attributes text children, (∀ e ∈ children, motive e) →
      motive (mk tag attributes text children)) (e : XmlElement) : motive e :=
  @XmlElement.rec motive (fun children ↦ ∀ e ∈ children, motive e)
    (fun tag attributes text children ih ↦ mk tag attributes text children ih) (List.forall_mem_nil _)
    (fun _ _ he hrest ↦ List.forall_mem_cons.mpr ⟨he, hrest⟩) e

variable {name : String} {position : List ℕ}

theorem map_snd_located (e : XmlElement) (position : List ℕ) :
    (located name position e).map Prod.snd = iter name e := by
  induction e using induct generalizing position with
  | mk tag attributes text children ih =>
    have hchildren : ∀ i, (locatedIn name position i children).map Prod.snd = iterIn name children := by
      induction children with
      | nil => exact fun _ ↦ rfl
      | cons e rest hind =>
        obtain ⟨he, hrest⟩ := List.forall_mem_cons.mp ih
        intro i
        rw [locatedIn, iterIn, List.map_append, he, hind hrest]
    rw [located, iter, List.map_append, hchildren]
    split <;> rfl

/-- The children, each under its number. -/
theorem locatedIn_eq (children : List XmlElement) (i : ℕ) : locatedIn name position i children =
    (children.zipIdx i).flatMap fun c ↦ located name (position ++ [c.2]) c.1 := by
  induction children generalizing i with
  | nil => rfl
  | cons e rest ih => rw [locatedIn, ih, List.zipIdx_cons, List.flatMap_cons]

/-- Positions in a part start with its position. -/
theorem prefix_of_mem_located (e : XmlElement) {position : List ℕ} :
    ∀ p ∈ located name position e, position <+: p.1 := by
  induction e using induct generalizing position with
  | mk tag attributes text children ih =>
    intro p hp
    rw [located, locatedIn_eq, List.mem_append] at hp
    rcases hp with hp | hp
    · split at hp
      · have hposition : p.1 = position := congrArg Prod.fst (List.mem_singleton.mp hp)
        exact hposition ▸ List.prefix_refl p.1
      · exact absurd hp List.not_mem_nil
    · obtain ⟨c, hc, hp⟩ := List.mem_flatMap.mp hp
      exact (List.prefix_append _ _).trans (ih c.1 (List.fst_mem_of_mem_zipIdx hc) p hp)

/-- What is found in children starts with the number of one of them. -/
theorem prefix_of_mem_locatedIn {children : List XmlElement} {i : ℕ} {p : List ℕ × XmlElement}
    (hp : p ∈ locatedIn name position i children) : ∃ j, i ≤ j ∧ position ++ [j] <+: p.1 := by
  rw [locatedIn_eq] at hp
  obtain ⟨c, hc, hp⟩ := List.mem_flatMap.mp hp
  exact ⟨c.2, List.le_snd_of_mem_zipIdx hc, prefix_of_mem_located c.1 p hp⟩

/-- Positions under different numbers are different. -/
theorem eq_of_prefix {i j : ℕ} {p : List ℕ} (hi : position ++ [i] <+: p) (hj : position ++ [j] <+: p) :
    i = j := by
  obtain ⟨s, rfl⟩ := hi
  obtain ⟨t, ht⟩ := hj
  rw [List.append_assoc, List.append_assoc, List.append_cancel_left_eq] at ht
  exact (List.cons.inj ht).1.symm

/-- **No position comes twice.** -/
theorem nodup_located (e : XmlElement) (position : List ℕ) :
    ((located name position e).map Prod.fst).Nodup := by
  induction e using induct generalizing position with
  | mk tag attributes text children ih =>
    have hchildren : ∀ i, ((locatedIn name position i children).map Prod.fst).Nodup := by
      induction children with
      | nil => exact fun _ ↦ List.nodup_nil
      | cons e rest hind =>
        obtain ⟨he, hrest⟩ := List.forall_mem_cons.mp ih
        intro i
        rw [locatedIn, List.map_append]
        refine List.nodup_append.mpr ⟨he _, hind hrest _, ?_⟩
        rintro a ha b hb rfl
        obtain ⟨p, hp, rfl⟩ := List.mem_map.mp ha
        obtain ⟨q, hq, heq⟩ := List.mem_map.mp hb
        obtain ⟨j, hle, hj⟩ := prefix_of_mem_locatedIn hq
        have hsame := eq_of_prefix (prefix_of_mem_located e p hp) (heq ▸ hj)
        omega
    rw [located, List.map_append]
    refine List.nodup_append.mpr ⟨?_, hchildren 0, ?_⟩
    · split
      · exact List.nodup_singleton _
      · exact List.nodup_nil
    · rintro a ha b hb rfl
      split at ha
      · rw [List.map_singleton, List.mem_singleton] at ha
        obtain ⟨q, hq, heq⟩ := List.mem_map.mp hb
        obtain ⟨j, -, hj⟩ := prefix_of_mem_locatedIn hq
        have hposition : q.1 = position := heq.trans ha
        have hlength := (hposition ▸ hj).length_le
        rw [List.length_append, List.length_singleton] at hlength
        omega
      · exact absurd ha List.not_mem_nil

/-! ## Parts of a tree -/

theorem mem_numbered {e child : XmlElement} {i : ℕ} :
    (child, i) ∈ e.numbered name ↔ e.children[i]? = some child ∧ child.tag = name := by
  rw [numbered, List.mem_filter, List.mem_zipIdx_iff_getElem?, decide_eq_true_iff]

/-- The first tags on the way to a position. -/
theorem cons_prefix_tagPath {e : XmlElement} {names : List String} {p : List ℕ} :
    name :: names <+: e.tagPath p ↔
      ∃ child i rest, (child, i) ∈ e.numbered name ∧ p = i :: rest ∧ names <+: child.tagPath rest := by
  cases p with
  | nil => simp [tagPath]
  | cons i rest =>
    constructor
    · intro h
      rw [tagPath] at h
      cases hchild : e.children[i]? with
      | none => simp [hchild] at h
      | some child =>
        rw [hchild, Option.elim_some, List.cons_prefix_cons] at h
        exact ⟨child, i, rest, mem_numbered.mpr ⟨hchild, h.1.symm⟩, rfl, h.2⟩
    · rintro ⟨child, j, rest', hchild, heq, h⟩
      obtain ⟨rfl, rfl⟩ := List.cons.inj heq
      obtain ⟨hget, rfl⟩ := mem_numbered.mp hchild
      rw [tagPath, hget, Option.elim_some]
      exact List.cons_prefix_cons.mpr ⟨rfl, h⟩

/-- What has a position under a child is in the child. -/
theorem mem_located_child {e child : XmlElement} {i : ℕ} {p : List ℕ × XmlElement}
    (hchild : e.children[i]? = some child) (hp : p ∈ located name position e)
    (hbelow : position ++ [i] <+: p.1) : p ∈ located name (position ++ [i]) child := by
  obtain ⟨tag, attributes, text, children⟩ := e
  rw [located, locatedIn_eq, List.mem_append] at hp
  rcases hp with hp | hp
  · split at hp
    · rw [List.mem_singleton.mp hp] at hbelow
      have hlength : (position ++ [i]).length ≤ position.length := hbelow.length_le
      rw [List.length_append, List.length_singleton] at hlength
      omega
    · exact absurd hp List.not_mem_nil
  · obtain ⟨⟨other, j⟩, hother, hp⟩ := List.mem_flatMap.mp hp
    have hj : i = j := eq_of_prefix hbelow (prefix_of_mem_located other p hp)
    have hsame : children[i]? = some other := hj ▸ List.mem_zipIdx_iff_getElem?.mp hother
    have heq : child = other := Option.some.inj (hchild.symm.trans hsame)
    exact heq ▸ hj ▸ hp

/-- Parts of the children with a tag, in order, are parts of the whole in order. -/
theorem flatMap_numbered_sublist {tag : String} (e : XmlElement)
    {f : XmlElement × ℕ → List (List ℕ × XmlElement)}
    (h : ∀ c ∈ e.numbered tag, (f c).Sublist (located name (position ++ [c.2]) c.1)) :
    ((e.numbered tag).flatMap f).Sublist (located name position e) := by
  have hchildren : (locatedIn name position 0 e.children).Sublist (located name position e) := by
    obtain ⟨tag, attributes, text, children⟩ := e
    exact List.sublist_append_right _ _
  refine (List.Sublist.flatMap_right _ h).trans (List.Sublist.trans ?_ hchildren)
  rw [locatedIn_eq]
  exact List.Sublist.flatMap List.filter_sublist _

end XmlElement

end Py
