import Mathlib.Algebra.Order.Field.Rat
import Mathlib.Logic.Function.Iterate
import Mathlib.Tactic.Linarith
import Mathlib.Tactic.FieldSimp
import Mathlib.Tactic.Ring
import MeetingRag.Ingestion.XmlParts
import MeetingRag.Library.Json

/-!
# The boxes of a PDF page

A PDF page gives the box of a text in the coordinates of its canvas, where up is positive. The box of
an anchor lies in the unit square, from the top left of the page as it is shown. In between the box is
moved into the crop box of the page, a little slack at the border is cut off, and what is left is turned
with the page.

The coordinates are rational here, so nothing is rounded. A turn by `r` degrees is `r / 90` quarter
turns of the unit square, whatever happens before it. The slack is where the two checks on the way
disagree: a box that lies in it alone passes the first one, is cut to a line, and has no area left for
the second.

## Main results

* `cornersBox_eq`: the box of the turned corners is the turned box.
* `normalizePdfBbox_eq`: what becomes of a box.
* `normalises_iff`: which boxes are normalised soundly.
-/

open Outcome Py

namespace MeetingRag

namespace Pdf

/-! ## Boxes -/

/-- `CanvasBBox`: a positive box in the coordinates of the canvas. -/
structure CanvasBBox where
  left : ℚ
  bottom : ℚ
  right : ℚ
  top : ℚ
  left_lt_right : left < right
  bottom_lt_top : bottom < top

/-- `BBox`: a box of positive area in the unit square, from the top left. -/
structure BBox where
  left : ℚ
  top : ℚ
  right : ℚ
  bottom : ℚ
  left_nonneg : 0 ≤ left
  top_nonneg : 0 ≤ top
  right_le_one : right ≤ 1
  bottom_le_one : bottom ≤ 1
  left_lt_right : left < right
  top_lt_bottom : top < bottom
deriving DecidableEq

/-- `BBox.__post_init__`. -/
def BBox.new (left top right bottom : ℚ) : Except Exc BBox :=
  if hunit : ∀ value ∈ [left, top, right, bottom], 0 ≤ value ∧ value ≤ 1 then
    if harea : left < right ∧ top < bottom then
      .ok ⟨left, top, right, bottom, (hunit left (by simp)).1, (hunit top (by simp)).1,
        (hunit right (by simp)).2, (hunit bottom (by simp)).2, harea.1, harea.2⟩
    else .error (.valueError "bbox must have positive area")
  else .error (.valueError "bbox coordinates must be in [0, 1]")

/-- What the function raises: the failure of an extraction, or anything else. -/
inductive BoxError
  | failure (f : ExtractionFailure)
  | exc (e : Exc)
deriving DecidableEq

/-! ## Normalisation -/

/-- `_rotate_point`. -/
def rotatePoint (x y : ℚ) (rotation : ℕ) : Except Exc (ℚ × ℚ) :=
  if rotation = 0 then .ok (x, y)
  else if rotation = 90 then .ok (1 - y, x)
  else if rotation = 180 then .ok (1 - x, 1 - y)
  else if rotation = 270 then .ok (y, 1 - x)
  else .error (.valueError "PDF rotation must be 0, 90, 180, or 270")

/-- The box around the rotated corners. -/
def cornersBox (left top right bottom : ℚ) (rotation : ℕ) : Except Exc BBox := do
  let a ← rotatePoint left top rotation
  let b ← rotatePoint right top rotation
  let c ← rotatePoint right bottom rotation
  let d ← rotatePoint left bottom rotation
  BBox.new (min (min (min a.1 b.1) c.1) d.1) (min (min (min a.2 b.2) c.2) d.2)
    (max (max (max a.1 b.1) c.1) d.1) (max (max (max a.2 b.2) c.2) d.2)

def tolerance : ℚ := 1 / 1000000

/-- `min(max(value, 0.0), 1.0)`. -/
def clamp (value : ℚ) : ℚ := min (max value 0) 1

/-- The sides of a box as fractions of the crop box. -/
def unitLeft (crop bbox : CanvasBBox) : ℚ := (bbox.left - crop.left) / (crop.right - crop.left)

def unitRight (crop bbox : CanvasBBox) : ℚ := (bbox.right - crop.left) / (crop.right - crop.left)

def unitTop (crop bbox : CanvasBBox) : ℚ := 1 - (bbox.top - crop.bottom) / (crop.top - crop.bottom)

def unitBottom (crop bbox : CanvasBBox) : ℚ :=
  1 - (bbox.bottom - crop.bottom) / (crop.top - crop.bottom)

def outsidePage : ExtractionFailure :=
  ⟨"INVALID_COORDINATE", "PDF text box is outside the cropped page"⟩

/-- Apply crop, then clockwise page rotation. -/
def normalizePdfBbox (bbox crop : CanvasBBox) (rotation : ℕ) : Except BoxError BBox :=
  if ∃ value ∈ [unitLeft crop bbox, unitTop crop bbox, unitRight crop bbox, unitBottom crop bbox],
      value < -tolerance ∨ value > 1 + tolerance then
    .error (.failure outsidePage)
  else
    match cornersBox (clamp (unitLeft crop bbox)) (clamp (unitTop crop bbox))
        (clamp (unitRight crop bbox)) (clamp (unitBottom crop bbox)) rotation with
    | .error e => .error (.exc e)
    | .ok box => .ok box

/-! ## Quarter turns -/

/-- The clockwise quarter turn of the unit square. -/
def BBox.quarterTurn (box : BBox) : BBox where
  left := 1 - box.bottom
  top := box.left
  right := 1 - box.top
  bottom := box.right
  left_nonneg := sub_nonneg.mpr box.bottom_le_one
  top_nonneg := box.left_nonneg
  right_le_one := sub_le_self 1 box.top_nonneg
  bottom_le_one := box.right_le_one
  left_lt_right := sub_lt_sub_left box.top_lt_bottom 1
  top_lt_bottom := box.left_lt_right

/-- The rotations that a page may have. -/
def rotations : List ℕ := [0, 90, 180, 270]

section Turns

variable {left top right bottom : ℚ}

theorem new_eq_ok (hleft : 0 ≤ left) (htop : 0 ≤ top) (hright : right ≤ 1) (hbottom : bottom ≤ 1)
    (hx : left < right) (hy : top < bottom) :
    BBox.new left top right bottom =
      .ok ⟨left, top, right, bottom, hleft, htop, hright, hbottom, hx, hy⟩ := by
  have hunit : ∀ value ∈ [left, top, right, bottom], 0 ≤ value ∧ value ≤ 1 := by
    simp only [List.forall_mem_cons, List.not_mem_nil, false_implies, implies_true, and_true]
    exact ⟨⟨hleft, by linarith⟩, ⟨htop, by linarith⟩, ⟨by linarith, hright⟩, by linarith, hbottom⟩
  rw [BBox.new, dif_pos hunit, dif_pos ⟨hx, hy⟩]

theorem new_eq_error (hunit : ∀ value ∈ [left, top, right, bottom], 0 ≤ value ∧ value ≤ 1)
    (harea : ¬(left < right ∧ top < bottom)) :
    BBox.new left top right bottom = .error (.valueError "bbox must have positive area") := by
  rw [BBox.new, dif_pos hunit, dif_neg harea]

/-- What the extremes of the corners are, along one side of the box and along the other. -/
theorem corner_extremes {u v : ℚ} (h : u ≤ v) :
    (min (min (min u v) v) u = u ∧ max (max (max u v) v) u = v) ∧
    (min (min (min u u) v) v = u ∧ max (max (max u u) v) v = v) ∧
    (min (min (min v u) u) v = u ∧ max (max (max v u) u) v = v) ∧
    min (min (min v v) u) u = u ∧ max (max (max v v) u) u = v := by
  simp [h]

/-- The box around the corners, after each rotation. -/
theorem cornersBox_rotated (hx : left ≤ right) (hy : top ≤ bottom) :
    cornersBox left top right bottom 0 = BBox.new left top right bottom ∧
    cornersBox left top right bottom 90 = BBox.new (1 - bottom) left (1 - top) right ∧
    cornersBox left top right bottom 180 =
      BBox.new (1 - right) (1 - bottom) (1 - left) (1 - top) ∧
    cornersBox left top right bottom 270 = BBox.new top (1 - right) bottom (1 - left) := by
  have hx' : 1 - right ≤ 1 - left := sub_le_sub_left hx 1
  have hy' : 1 - bottom ≤ 1 - top := sub_le_sub_left hy 1
  obtain ⟨⟨xmin, xmax⟩, -, -, -, -⟩ := corner_extremes hx
  obtain ⟨-, ⟨ymin, ymax⟩, -, -, -⟩ := corner_extremes hy
  obtain ⟨-, -, ⟨xmin', xmax'⟩, -, -⟩ := corner_extremes hx'
  obtain ⟨-, -, -, ymin', ymax'⟩ := corner_extremes hy'
  refine ⟨?_, ?_, ?_, ?_⟩
  all_goals
    simp only [cornersBox, rotatePoint, OfNat.ofNat_ne_zero, if_true, if_false, ok_bind,
      Nat.reduceEqDiff, xmin, xmax, ymin, ymax, xmin', xmax', ymin', ymax']

/-- A rotated box with nothing in it is refused as the upright one is. -/
theorem new_degenerate {l t r b : ℚ}
    (hunit : ∀ value ∈ [l, t, r, b], 0 ≤ value ∧ value ≤ 1) (harea : ¬(l < r ∧ t < b))
    (n : ℕ) : (BBox.new l t r b).map (BBox.quarterTurn^[n]) =
      .error (.valueError "bbox must have positive area") := by
  rw [new_eq_error hunit harea]
  rfl

/-- **The box of the turned corners is the turned box**, a quarter turn for each 90 degrees. -/
theorem cornersBox_eq (hleft : 0 ≤ left) (htop : 0 ≤ top) (hright : right ≤ 1)
    (hbottom : bottom ≤ 1) (hx : left ≤ right) (hy : top ≤ bottom) {rotation : ℕ}
    (hrotation : rotation ∈ rotations) :
    cornersBox left top right bottom rotation =
      (BBox.new left top right bottom).map BBox.quarterTurn^[rotation / 90] := by
  have hsides : cornersBox left top right bottom rotation =
      BBox.new left top right bottom ∧ rotation / 90 = 0 ∨
      cornersBox left top right bottom rotation =
        BBox.new (1 - bottom) left (1 - top) right ∧ rotation / 90 = 1 ∨
      cornersBox left top right bottom rotation =
        BBox.new (1 - right) (1 - bottom) (1 - left) (1 - top) ∧ rotation / 90 = 2 ∨
      cornersBox left top right bottom rotation =
        BBox.new top (1 - right) bottom (1 - left) ∧ rotation / 90 = 3 := by
    simp only [rotations, List.mem_cons, List.not_mem_nil, or_false] at hrotation
    obtain ⟨hzero, hquarter, hhalf, hthree⟩ := cornersBox_rotated hx hy
    obtain rfl | rfl | rfl | rfl := hrotation
    · exact .inl ⟨hzero, rfl⟩
    · exact .inr (.inl ⟨hquarter, rfl⟩)
    · exact .inr (.inr (.inl ⟨hhalf, rfl⟩))
    · exact .inr (.inr (.inr ⟨hthree, rfl⟩))
  have hunit : ∀ l t r b : ℚ, 0 ≤ l → l ≤ r → r ≤ 1 → 0 ≤ t → t ≤ b → b ≤ 1 →
      ∀ value ∈ [l, t, r, b], 0 ≤ value ∧ value ≤ 1 := by
    intro l t r b hl hlr hr ht htb hb
    simp only [List.forall_mem_cons, List.not_mem_nil, false_implies, implies_true, and_true]
    exact ⟨⟨hl, hlr.trans hr⟩, ⟨ht, htb.trans hb⟩, ⟨hl.trans hlr, hr⟩, ht.trans htb, hb⟩
  by_cases harea : left < right ∧ top < bottom
  · -- Every turn of a box with an area is built in the same way.
    obtain ⟨hx', hy'⟩ := harea
    rw [new_eq_ok hleft htop hright hbottom hx' hy']
    obtain ⟨h, hn⟩ | ⟨h, hn⟩ | ⟨h, hn⟩ | ⟨h, hn⟩ := hsides
    · rw [h, hn, new_eq_ok hleft htop hright hbottom hx' hy']
      rfl
    · rw [h, hn, new_eq_ok (sub_nonneg.mpr hbottom) hleft (sub_le_self 1 htop) hright
        (sub_lt_sub_left hy' 1) hx']
      rfl
    · rw [h, hn, new_eq_ok (sub_nonneg.mpr hright) (sub_nonneg.mpr hbottom) (sub_le_self 1 hleft)
        (sub_le_self 1 htop) (sub_lt_sub_left hx' 1) (sub_lt_sub_left hy' 1)]
      rfl
    · rw [h, hn, new_eq_ok htop (sub_nonneg.mpr hright) hbottom (sub_le_self 1 hleft) hy'
        (sub_lt_sub_left hx' 1)]
      simp [Except.map, BBox.quarterTurn]
  · rw [new_degenerate (hunit _ _ _ _ hleft hx hright htop hy hbottom) harea]
    obtain ⟨h, -⟩ | ⟨h, -⟩ | ⟨h, -⟩ | ⟨h, -⟩ := hsides
    · rw [h, new_eq_error (hunit _ _ _ _ hleft hx hright htop hy hbottom) harea]
    · rw [h, new_eq_error (hunit _ _ _ _ (by linarith) (by linarith) (by linarith) hleft hx hright)]
      rintro ⟨h1, h2⟩
      exact harea ⟨h2, by linarith⟩
    · rw [h, new_eq_error (hunit _ _ _ _ (by linarith) (by linarith) (by linarith) (by linarith)
        (by linarith) (by linarith))]
      rintro ⟨h1, h2⟩
      exact harea ⟨by linarith, by linarith⟩
    · rw [h, new_eq_error (hunit _ _ _ _ htop hy hbottom (by linarith) (by linarith) (by linarith))]
      rintro ⟨h1, h2⟩
      exact harea ⟨by linarith, h1⟩

end Turns

/-! ## Clamped sides -/

theorem clamp_nonneg (value : ℚ) : 0 ≤ clamp value := le_min (le_max_right _ _) zero_le_one

theorem clamp_le_one (value : ℚ) : clamp value ≤ 1 := min_le_right _ _

theorem clamp_mono {v w : ℚ} (h : v ≤ w) : clamp v ≤ clamp w :=
  min_le_min_right 1 (max_le_max_right 0 h)

/-- Two sides stay apart if they are not cut off at the same border. -/
theorem clamp_lt_clamp {v w : ℚ} (h : v < w) : clamp v < clamp w ↔ v < 1 ∧ 0 < w := by
  simp only [clamp, lt_min_iff, min_lt_iff, max_lt_iff, lt_max_iff]
  constructor
  · rintro ⟨(⟨-, hw⟩ | h1), (⟨hv, -⟩ | h2)⟩
    all_goals grind
  · rintro ⟨hv, hw⟩
    grind

section Sides

variable (crop bbox : CanvasBBox)

theorem width_pos : 0 < crop.right - crop.left := sub_pos.mpr crop.left_lt_right

theorem height_pos : 0 < crop.top - crop.bottom := sub_pos.mpr crop.bottom_lt_top

theorem unitLeft_lt_unitRight : unitLeft crop bbox < unitRight crop bbox :=
  div_lt_div_of_pos_right (sub_lt_sub_right bbox.left_lt_right _) (width_pos crop)

theorem unitTop_lt_unitBottom : unitTop crop bbox < unitBottom crop bbox :=
  sub_lt_sub_left (div_lt_div_of_pos_right (sub_lt_sub_right bbox.bottom_lt_top _)
    (height_pos crop)) 1

/-- The box of the clamped sides, before the page is turned. -/
def uprightBox : Except Exc BBox :=
  BBox.new (clamp (unitLeft crop bbox)) (clamp (unitTop crop bbox)) (clamp (unitRight crop bbox))
    (clamp (unitBottom crop bbox))

/-- Some side of the box lies further outside the page than the tolerance. -/
def Beyond : Prop :=
  bbox.left < crop.left - tolerance * (crop.right - crop.left) ∨
    crop.right + tolerance * (crop.right - crop.left) < bbox.right ∨
    bbox.bottom < crop.bottom - tolerance * (crop.top - crop.bottom) ∨
    crop.top + tolerance * (crop.top - crop.bottom) < bbox.top

/-- The box and the page share an area. -/
structure Meets : Prop where
  left : bbox.left < crop.right
  right : crop.left < bbox.right
  bottom : bbox.bottom < crop.top
  top : crop.bottom < bbox.top

theorem exists_outside_iff :
    (∃ value ∈ [unitLeft crop bbox, unitTop crop bbox, unitRight crop bbox, unitBottom crop bbox],
      value < -tolerance ∨ value > 1 + tolerance) ↔ Beyond crop bbox := by
  have hx := unitLeft_lt_unitRight crop bbox
  have hy := unitTop_lt_unitBottom crop bbox
  have hleft : unitLeft crop bbox < -tolerance ↔
      bbox.left < crop.left - tolerance * (crop.right - crop.left) := by
    rw [unitLeft, div_lt_iff₀ (width_pos crop)]
    constructor <;> intro h <;> linarith
  have hright : 1 + tolerance < unitRight crop bbox ↔
      crop.right + tolerance * (crop.right - crop.left) < bbox.right := by
    rw [unitRight, lt_div_iff₀ (width_pos crop)]
    constructor <;> intro h <;> linarith
  have hbottom : 1 + tolerance < unitBottom crop bbox ↔
      bbox.bottom < crop.bottom - tolerance * (crop.top - crop.bottom) := by
    rw [unitBottom, lt_sub_comm, sub_add_cancel_left, div_lt_iff₀ (height_pos crop)]
    constructor <;> intro h <;> linarith
  have htop : unitTop crop bbox < -tolerance ↔
      crop.top + tolerance * (crop.top - crop.bottom) < bbox.top := by
    rw [unitTop, sub_lt_comm, sub_neg_eq_add, lt_div_iff₀ (height_pos crop)]
    constructor <;> intro h <;> linarith
  simp only [List.exists_mem_cons_iff, List.not_mem_nil, false_and, exists_false, or_false,
    gt_iff_lt, Beyond, ← hleft, ← hright, ← hbottom, ← htop]
  -- The right side is beyond the left border only if the left side is, and so on.
  constructor
  · rintro ((h | h) | (h | h) | (h | h) | (h | h))
    · exact .inl h
    · exact .inr (.inl (h.trans hx))
    · exact .inr (.inr (.inr h))
    · exact .inr (.inr (.inl (h.trans hy)))
    · exact .inl (hx.trans h)
    · exact .inr (.inl h)
    · exact .inr (.inr (.inr (hy.trans h)))
    · exact .inr (.inr (.inl h))
  · rintro (h | h | h | h)
    · exact .inl (.inl h)
    · exact .inr (.inr (.inl (.inr h)))
    · exact .inr (.inr (.inr (.inr h)))
    · exact .inr (.inl (.inl h))

/-- Clamping leaves an area exactly where the box and the page share one. -/
theorem clamped_iff_meets :
    (clamp (unitLeft crop bbox) < clamp (unitRight crop bbox) ∧
      clamp (unitTop crop bbox) < clamp (unitBottom crop bbox)) ↔ Meets crop bbox := by
  rw [clamp_lt_clamp (unitLeft_lt_unitRight crop bbox),
    clamp_lt_clamp (unitTop_lt_unitBottom crop bbox)]
  have hleft : unitLeft crop bbox < 1 ↔ bbox.left < crop.right := by
    rw [unitLeft, div_lt_one (width_pos crop), sub_lt_sub_iff_right]
  have hright : 0 < unitRight crop bbox ↔ crop.left < bbox.right := by
    rw [unitRight, div_pos_iff_of_pos_right (width_pos crop), sub_pos]
  have htop : unitTop crop bbox < 1 ↔ crop.bottom < bbox.top := by
    rw [unitTop, sub_lt_self_iff, div_pos_iff_of_pos_right (height_pos crop), sub_pos]
  have hbottom : 0 < unitBottom crop bbox ↔ bbox.bottom < crop.top := by
    rw [unitBottom, sub_pos, div_lt_one (height_pos crop), sub_lt_sub_iff_right]
  rw [hleft, hright, htop, hbottom]
  constructor
  · rintro ⟨⟨h1, h2⟩, h3, h4⟩
    exact ⟨h1, h2, h4, h3⟩
  · rintro ⟨h1, h2, h3, h4⟩
    exact ⟨⟨h1, h2⟩, h4, h3⟩

/-- A box that shares an area with the page has an upright box. -/
theorem uprightBox_of_meets (h : Meets crop bbox) : ∃ box, uprightBox crop bbox = .ok box ∧
    box.left = clamp (unitLeft crop bbox) ∧ box.top = clamp (unitTop crop bbox) ∧
    box.right = clamp (unitRight crop bbox) ∧ box.bottom = clamp (unitBottom crop bbox) := by
  obtain ⟨hx, hy⟩ := (clamped_iff_meets crop bbox).mpr h
  exact ⟨_, new_eq_ok (clamp_nonneg _) (clamp_nonneg _) (clamp_le_one _) (clamp_le_one _) hx hy,
    rfl, rfl, rfl, rfl⟩

/-- A box that lies outside the page, or along its border, has none. -/
theorem uprightBox_of_not_meets (h : ¬Meets crop bbox) :
    uprightBox crop bbox = .error (.valueError "bbox must have positive area") := by
  refine new_eq_error ?_ fun harea ↦ h ((clamped_iff_meets crop bbox).mp harea)
  simp [clamp_nonneg, clamp_le_one]

/-- An outcome of the second check, with its errors as they reach the caller. -/
def raised : Except Exc BBox → Except BoxError BBox
  | .error e => .error (.exc e)
  | .ok box => .ok box

/-- **What becomes of a box**: beyond the tolerance it is refused; anything else is clamped to the
page and turned with it, if an area is left. -/
theorem normalizePdfBbox_eq {rotation : ℕ} (hrotation : rotation ∈ rotations) :
    (Beyond crop bbox → normalizePdfBbox bbox crop rotation = .error (.failure outsidePage)) ∧
    (¬Beyond crop bbox → normalizePdfBbox bbox crop rotation =
      raised ((uprightBox crop bbox).map BBox.quarterTurn^[rotation / 90])) := by
  constructor
  · intro h
    rw [normalizePdfBbox, if_pos ((exists_outside_iff crop bbox).mpr h)]
  · intro h
    rw [normalizePdfBbox, if_neg fun hout ↦ h ((exists_outside_iff crop bbox).mp hout),
      cornersBox_eq (clamp_nonneg _) (clamp_nonneg _) (clamp_le_one _) (clamp_le_one _)
        (clamp_mono (unitLeft_lt_unitRight crop bbox).le)
        (clamp_mono (unitTop_lt_unitBottom crop bbox).le) hrotation, uprightBox]
    rfl

end Sides

/-! ## Containment -/

/-- One box of the canvas lies in another. -/
structure CanvasBBox.Within (inner outer : CanvasBBox) : Prop where
  left : outer.left ≤ inner.left
  bottom : outer.bottom ≤ inner.bottom
  right : inner.right ≤ outer.right
  top : inner.top ≤ outer.top

/-- One box of the unit square lies in another. -/
structure BBox.Within (inner outer : BBox) : Prop where
  left : outer.left ≤ inner.left
  top : outer.top ≤ inner.top
  right : inner.right ≤ outer.right
  bottom : inner.bottom ≤ outer.bottom

theorem BBox.Within.quarterTurn {inner outer : BBox} (h : inner.Within outer) :
    inner.quarterTurn.Within outer.quarterTurn :=
  ⟨sub_le_sub_left h.bottom 1, h.left, sub_le_sub_left h.top 1, h.right⟩

theorem BBox.Within.turned {inner outer : BBox} (h : inner.Within outer) (n : ℕ) :
    (BBox.quarterTurn^[n] inner).Within (BBox.quarterTurn^[n] outer) := by
  induction n generalizing inner outer with
  | zero => exact h
  | succ n ih => exact ih h.quarterTurn

/-- A box that is normalised is the turned upright box. -/
theorem normalizePdfBbox_eq_ok {crop bbox : CanvasBBox} {rotation : ℕ} {box : BBox}
    (hrotation : rotation ∈ rotations) (h : normalizePdfBbox bbox crop rotation = .ok box) :
    ∃ upright, box = BBox.quarterTurn^[rotation / 90] upright ∧
      upright.left = clamp (unitLeft crop bbox) ∧ upright.top = clamp (unitTop crop bbox) ∧
      upright.right = clamp (unitRight crop bbox) ∧
      upright.bottom = clamp (unitBottom crop bbox) := by
  obtain ⟨hbeyond, hnear⟩ := normalizePdfBbox_eq crop bbox hrotation
  have hin : ¬Beyond crop bbox := by
    intro hout
    rw [hbeyond hout] at h
    exact nomatch h
  rw [hnear hin] at h
  by_cases hmeets : Meets crop bbox
  · obtain ⟨upright, hupright, hsides⟩ := uprightBox_of_meets crop bbox hmeets
    rw [hupright] at h
    exact ⟨upright, (Except.ok.inj h).symm, hsides⟩
  · rw [uprightBox_of_not_meets crop bbox hmeets] at h
    exact nomatch h

/-- **Containment is preserved.** -/
theorem normalizePdfBbox_within {crop inner outer : CanvasBBox} {rotation : ℕ}
    {innerBox outerBox : BBox} (hrotation : rotation ∈ rotations) (hwithin : inner.Within outer)
    (hinner : normalizePdfBbox inner crop rotation = .ok innerBox)
    (houter : normalizePdfBbox outer crop rotation = .ok outerBox) :
    innerBox.Within outerBox := by
  obtain ⟨a, rfl, hal, hat, har, hab⟩ := normalizePdfBbox_eq_ok hrotation hinner
  obtain ⟨b, rfl, hbl, hbt, hbr, hbb⟩ := normalizePdfBbox_eq_ok hrotation houter
  have hw := (width_pos crop).le
  have hh := (height_pos crop).le
  refine BBox.Within.turned ⟨?_, ?_, ?_, ?_⟩ _
  · rw [hal, hbl]
    exact clamp_mono (div_le_div_of_nonneg_right (sub_le_sub_right hwithin.left _) hw)
  · rw [hat, hbt]
    exact clamp_mono (sub_le_sub_left
      (div_le_div_of_nonneg_right (sub_le_sub_right hwithin.top _) hh) 1)
  · rw [har, hbr]
    exact clamp_mono (div_le_div_of_nonneg_right (sub_le_sub_right hwithin.right _) hw)
  · rw [hab, hbb]
    exact clamp_mono (sub_le_sub_left
      (div_le_div_of_nonneg_right (sub_le_sub_right hwithin.bottom _) hh) 1)

/-- **A rotation is a number of quarter turns**, of whatever comes out without it. -/
theorem normalizePdfBbox_turned {rotation : ℕ} (crop bbox : CanvasBBox)
    (hrotation : rotation ∈ rotations) : normalizePdfBbox bbox crop rotation =
      (normalizePdfBbox bbox crop 0).map BBox.quarterTurn^[rotation / 90] := by
  obtain ⟨hbeyond, hnear⟩ := normalizePdfBbox_eq crop bbox hrotation
  obtain ⟨hbeyond0, hnear0⟩ := @normalizePdfBbox_eq crop bbox 0 (by decide)
  by_cases hout : Beyond crop bbox
  · rw [hbeyond hout, hbeyond0 hout]
    rfl
  · rw [hnear hout, hnear0 hout]
    cases uprightBox crop bbox with
    | error e => rfl
    | ok box => rfl

/-! ## Which boxes are normalised -/

/-- A box is normalised soundly: it is refused with the typed failure or it gives a box of the unit
square, which has an area; a box inside it gives a box inside that one; and a turned page gives the
turned box. -/
structure Normalises (crop bbox : CanvasBBox) (rotation : ℕ) : Prop where
  total : normalizePdfBbox bbox crop rotation = .error (.failure outsidePage) ∨
    ∃ box, normalizePdfBbox bbox crop rotation = .ok box
  contains : ∀ inner : CanvasBBox, inner.Within bbox → ∀ innerBox box,
    normalizePdfBbox inner crop rotation = .ok innerBox →
      normalizePdfBbox bbox crop rotation = .ok box → innerBox.Within box
  turned : normalizePdfBbox bbox crop rotation =
    (normalizePdfBbox bbox crop 0).map BBox.quarterTurn^[rotation / 90]

/-- **Which boxes are normalised soundly**: those beyond the tolerance, and those that share an area
with the page. A box that lies in the slack alone is neither. -/
theorem normalises_iff (crop bbox : CanvasBBox) (rotation : ℕ) (hrotation : rotation ∈ rotations) :
    Normalises crop bbox rotation ↔ Beyond crop bbox ∨ Meets crop bbox := by
  obtain ⟨hbeyond, hnear⟩ := normalizePdfBbox_eq crop bbox hrotation
  constructor
  · intro h
    by_contra hneither
    obtain ⟨hin, hmeets⟩ := not_or.mp hneither
    -- What is left of a box in the slack is a line.
    have hline : normalizePdfBbox bbox crop rotation =
        .error (.exc (.valueError "bbox must have positive area")) := by
      rw [hnear hin, uprightBox_of_not_meets crop bbox hmeets]
      rfl
    obtain htyped | ⟨box, hbox⟩ := h.total
    · rw [hline] at htyped
      exact nomatch htyped
    · rw [hline] at hbox
      exact nomatch hbox
  · intro h
    refine ⟨?_, fun inner hwithin innerBox box hinner hbox ↦
      normalizePdfBbox_within hrotation hwithin hinner hbox,
      normalizePdfBbox_turned crop bbox hrotation⟩
    by_cases hout : Beyond crop bbox
    · exact .inl (hbeyond hout)
    · obtain ⟨box, hbox, -⟩ := uprightBox_of_meets crop bbox (h.resolve_left hout)
      exact .inr ⟨BBox.quarterTurn^[rotation / 90] box, by rw [hnear hout, hbox]; rfl⟩

/-- The page of a letter. -/
def letterPage : CanvasBBox := ⟨0, 0, 612, 792, by norm_num, by norm_num⟩

/-- A box to the left of the page, by less than the tolerance. -/
def inMargin : CanvasBBox := ⟨-1 / 10000, 10, 0, 20, by norm_num, by norm_num⟩

/-- The box in the margin is not refused, and its line is no box. -/
theorem inMargin_raises : normalizePdfBbox inMargin letterPage 0 =
    .error (.exc (.valueError "bbox must have positive area")) ∧
    ¬∀ crop bbox : CanvasBBox, ∀ rotation ∈ rotations, Normalises crop bbox rotation := by
  have hline : normalizePdfBbox inMargin letterPage 0 =
      .error (.exc (.valueError "bbox must have positive area")) := by decide +kernel
  refine ⟨hline, fun h ↦ ?_⟩
  obtain htyped | ⟨box, hbox⟩ := (h letterPage inMargin 0 (by decide)).total
  · rw [hline] at htyped
    exact nomatch htyped
  · rw [hline] at hbox
    exact nomatch hbox

/-- The whole page, turned by a quarter, is the whole square. -/
theorem normalises_letterPage : 90 ∈ rotations ∧
    (Normalises letterPage letterPage 90 ↔
      Beyond letterPage letterPage ∨ Meets letterPage letterPage) :=
  ⟨by decide, normalises_iff letterPage letterPage 90 (by decide)⟩

end Pdf

end MeetingRag
