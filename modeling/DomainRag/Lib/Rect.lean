import Mathlib.Algebra.Order.Group.Defs
import Mathlib.Order.Lattice

/-! # Rectangles

Rectangles with sides parallel to the axes, over any ordered group of coordinates, ordered by
containment. The union of two is the smallest rectangle that contains both. Two intersect if what
they share is not empty, so touching edges do not count.
-/

structure Rect (α : Type) where
  x0 : α
  y0 : α
  x1 : α
  y1 : α
  deriving DecidableEq

namespace Rect

variable {α : Type}

section Order

variable [LinearOrder α]

instance : LE (Rect α) where
  le a b := b.x0 ≤ a.x0 ∧ b.y0 ≤ a.y0 ∧ a.x1 ≤ b.x1 ∧ a.y1 ≤ b.y1

theorem le_def {a b : Rect α} :
    a ≤ b ↔ b.x0 ≤ a.x0 ∧ b.y0 ≤ a.y0 ∧ a.x1 ≤ b.x1 ∧ a.y1 ≤ b.y1 := Iff.rfl

instance : DecidableLE (Rect α) := fun _ _ => decidable_of_iff _ le_def.symm

def union (a b : Rect α) : Rect α where
  x0 := min a.x0 b.x0
  y0 := min a.y0 b.y0
  x1 := max a.x1 b.x1
  y1 := max a.y1 b.y1

instance : SemilatticeSup (Rect α) where
  le_refl a := ⟨le_rfl, le_rfl, le_rfl, le_rfl⟩
  le_trans a b c hab hbc :=
    ⟨hbc.1.trans hab.1, hbc.2.1.trans hab.2.1, hab.2.2.1.trans hbc.2.2.1,
      hab.2.2.2.trans hbc.2.2.2⟩
  le_antisymm a b hab hba := by
    obtain ⟨hx0, hy0, hx1, hy1⟩ := hab
    obtain ⟨hx0', hy0', hx1', hy1'⟩ := hba
    cases a
    cases b
    simp only [mk.injEq]
    exact ⟨le_antisymm hx0' hx0, le_antisymm hy0' hy0, le_antisymm hx1 hx1', le_antisymm hy1 hy1'⟩
  sup := union
  le_sup_left a b := ⟨min_le_left _ _, min_le_left _ _, le_max_left _ _, le_max_left _ _⟩
  le_sup_right a b := ⟨min_le_right _ _, min_le_right _ _, le_max_right _ _, le_max_right _ _⟩
  sup_le a b c hac hbc :=
    ⟨le_min hac.1 hbc.1, le_min hac.2.1 hbc.2.1, max_le hac.2.2.1 hbc.2.2.1,
      max_le hac.2.2.2 hbc.2.2.2⟩

def intersect (a b : Rect α) : Rect α where
  x0 := max a.x0 b.x0
  y0 := max a.y0 b.y0
  x1 := min a.x1 b.x1
  y1 := min a.y1 b.y1

def isEmpty (r : Rect α) : Bool := r.x1 ≤ r.x0 || r.y1 ≤ r.y0

def intersects (a b : Rect α) : Bool := !(a.intersect b).isEmpty

/-- The rectangle has points inside. -/
def Proper (r : Rect α) : Prop := r.x0 < r.x1 ∧ r.y0 < r.y1

variable {a a' b b' r : Rect α}

theorem isEmpty_eq_false_iff : r.isEmpty = false ↔ r.Proper := by
  simp [isEmpty, Proper]

theorem Proper.mono (h : r.Proper) (hle : r ≤ a) : a.Proper := by
  obtain ⟨hx0, hy0, hx1, hy1⟩ := hle
  exact ⟨hx0.trans_lt (h.1.trans_le hx1), hy0.trans_lt (h.2.trans_le hy1)⟩

theorem intersects_iff : a.intersects b = true ↔ (a.intersect b).Proper := by
  rw [intersects, Bool.not_eq_true', isEmpty_eq_false_iff]

theorem intersect_mono (ha : a ≤ a') (hb : b ≤ b') : a.intersect b ≤ a'.intersect b' :=
  ⟨max_le_max ha.1 hb.1, max_le_max ha.2.1 hb.2.1, min_le_min ha.2.2.1 hb.2.2.1,
    min_le_min ha.2.2.2 hb.2.2.2⟩

theorem intersects_mono (ha : a ≤ a') (hb : b ≤ b') (h : a.intersects b = true) :
    a'.intersects b' = true := by
  rw [intersects_iff] at h ⊢
  exact h.mono (intersect_mono ha hb)

theorem Proper.intersects (h : r.Proper) (ha : r ≤ a) (hb : r ≤ b) : a.intersects b = true := by
  rw [intersects_iff]
  apply h.mono
  exact ⟨max_le ha.1 hb.1, max_le ha.2.1 hb.2.1, le_min ha.2.2.1 hb.2.2.1,
    le_min ha.2.2.2 hb.2.2.2⟩

end Order

section Group

variable [AddCommGroup α] [LinearOrder α]

/-- A rectangle with its corners the wrong way round has no width. -/
def width (r : Rect α) : α := max 0 (r.x1 - r.x0)

def height (r : Rect α) : α := max 0 (r.y1 - r.y0)

def inflate (gap : α) (r : Rect α) : Rect α where
  x0 := r.x0 - gap
  y0 := r.y0 - gap
  x1 := r.x1 + gap
  y1 := r.y1 + gap

variable [IsOrderedAddMonoid α] {gap : α} {a b r : Rect α}

theorem width_pos_and_height_pos_iff : 0 < r.width ∧ 0 < r.height ↔ r.Proper := by
  simp [width, height, Proper]

theorem le_inflate (hgap : 0 ≤ gap) (r : Rect α) : r ≤ r.inflate gap :=
  ⟨sub_le_self _ hgap, sub_le_self _ hgap, le_add_of_nonneg_right hgap,
    le_add_of_nonneg_right hgap⟩

theorem inflate_mono (gap : α) (h : a ≤ b) : a.inflate gap ≤ b.inflate gap :=
  ⟨sub_le_sub_right h.1 gap, sub_le_sub_right h.2.1 gap, add_le_add_left h.2.2.1 gap,
    add_le_add_left h.2.2.2 gap⟩

/-- It does not matter which of two rectangles is inflated. -/
theorem intersects_inflate_symm (hgap : 0 ≤ gap) (ha : a.Proper) (hb : b.Proper)
    (h : (a.inflate gap).intersects b = true) : (b.inflate gap).intersects a = true := by
  rw [intersects_iff] at h ⊢
  obtain ⟨hx, hy⟩ := h
  have hb' := hb.mono (le_inflate hgap b)
  simp only [intersect, inflate, max_lt_iff, lt_min_iff] at hx hy
  refine ⟨max_lt (lt_min hb'.1 ?_) (lt_min ?_ ha.1), max_lt (lt_min hb'.2 ?_) (lt_min ?_ ha.2)⟩
  · exact sub_lt_iff_lt_add.mpr hx.1.2
  · exact sub_lt_iff_lt_add.mp hx.2.1
  · exact sub_lt_iff_lt_add.mpr hy.1.2
  · exact sub_lt_iff_lt_add.mp hy.2.1

end Group

end Rect
