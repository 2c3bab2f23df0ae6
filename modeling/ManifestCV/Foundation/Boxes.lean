import Mathlib.Algebra.Order.Monoid.Defs
import Mathlib.Data.Set.Lattice
import Mathlib.Data.Set.Prod
import Mathlib.Order.CompletePartialOrder
import Mathlib.Order.Interval.Set.Basic

namespace ManifestCV.Foundation

structure Box (α : Type) where
  left : α
  bottom : α
  width : α
  height : α

namespace Box

variable {α : Type} [AddCommGroup α] [LinearOrder α] {a b : Box α}

def region (b : Box α) : Set (α × α) :=
  Set.Ico b.left (b.left + b.width) ×ˢ Set.Ico b.bottom (b.bottom + b.height)

def Apart (a b : Box α) : Prop := Disjoint a.region b.region

theorem apart_of_left (beside : a.left + a.width ≤ b.left) : a.Apart b :=
  Set.disjoint_left.mpr fun _ inA inB => absurd (lt_of_lt_of_le inA.1.2 beside) (not_lt.mpr inB.1.1)

theorem apart_of_above (below : b.bottom + b.height ≤ a.bottom) : a.Apart b :=
  Set.disjoint_left.mpr fun _ inA inB => absurd (lt_of_lt_of_le inB.2.2 below) (not_lt.mpr inA.2.1)

theorem region_empty (thin : b.width = 0) : b.region = ∅ := by
  rw [region, thin, add_zero, Set.Ico_self, Set.empty_prod]

theorem apart_of_thin (thin : a.width = 0 ∨ b.width = 0) : a.Apart b := by
  rcases thin with thin | thin
  · rw [Apart, region_empty thin]
    exact Set.empty_disjoint _
  · rw [Apart, region_empty thin]
    exact Set.disjoint_empty _

variable [IsOrderedAddMonoid α]

theorem not_apart (same : a.left = b.left) (wideA : 0 < a.width) (wideB : 0 < b.width) (tall : 0 < a.height)
    (above : b.bottom ≤ a.bottom) (reaches : a.bottom < b.bottom + b.height) : ¬ a.Apart b := by
  intro apart
  have inA : (a.left, a.bottom) ∈ a.region :=
    ⟨⟨le_refl _, lt_add_of_pos_right _ wideA⟩, le_refl _, lt_add_of_pos_right _ tall⟩
  have inB : (a.left, a.bottom) ∈ b.region :=
    ⟨⟨ge_of_eq same, by rw [same]; exact lt_add_of_pos_right _ wideB⟩, above, reaches⟩
  exact Set.disjoint_left.mp apart inA inB

def strip (left right : α) : Set (α × α) := Set.Ico left right ×ˢ Set.univ

theorem region_subset_strip (tall : 0 < b.height) {width : α} (some_width : 0 ≤ width) :
    b.region ⊆ strip b.left (b.left + width) ↔ b.width ≤ width := by
  constructor
  · intro inside
    by_contra wider
    have beyond : width < b.width := not_le.mp wider
    have inB : (b.left + width, b.bottom) ∈ b.region :=
      ⟨⟨le_add_of_nonneg_right some_width, by simpa using beyond⟩, le_refl _, lt_add_of_pos_right _ tall⟩
    exact lt_irrefl _ (inside inB).1.2
  · rintro narrow p ⟨⟨least, most⟩, _⟩
    exact ⟨⟨least, lt_of_lt_of_le most (by simpa using narrow)⟩, trivial⟩

end Box

end ManifestCV.Foundation
