import Mathlib.Tactic
import Mathlib.Data.List.InsertIdx
import Mathlib.Order.Interval.Set.Basic
import Mathlib.Order.CompletePartialOrder

/-!
# Sorted tables of disjoint regions

The general part of a first-fit allocator that records only its occupied
regions.  A table is *packed* between two bounds when its regions come in order,
are nonempty, and neither overlap nor leave the bounds.  First fit looks for the
leftmost gap that is wide enough; inserting the region it chose and deleting any
region both keep a packed table packed.
-/

namespace VgiRpc.Lib

/-- A half-open range of addresses. -/
structure Region where
  offset : Nat
  length : Nat
  deriving DecidableEq, Repr

namespace Region

/-- First address after the region. -/
def finish (region : Region) : Nat := region.offset + region.length

/-- The addresses a region occupies. -/
def addresses (region : Region) : Set Nat := Set.Ico region.offset region.finish

theorem disjoint_addresses {left right : Region} (le : left.finish ≤ right.offset) :
    Disjoint left.addresses right.addresses := by
  rw [Set.disjoint_left]
  intro address inLeft inRight
  exact absurd (inLeft.2.trans_le le) (not_lt.mpr inRight.1)

end Region

/-- The regions come in order inside `[low, high)`, nonempty and without
overlap. -/
def Packed (high : Nat) : Nat → List Region → Prop
  | low, [] => low ≤ high
  | low, region :: rest =>
      low ≤ region.offset ∧ 0 < region.length ∧ Packed high region.finish rest

/-- Where the scan of a first-fit allocator stops: in front of the region at an
index, or behind the last region. -/
inductive Gap where
  | before (index offset : Nat)
  | last (offset : Nat)
  deriving DecidableEq, Repr

/-- Leftmost gap in front of a region that holds `want` addresses.  `index`
counts the regions already passed and `low` is the end of the last of them. -/
def firstGap (want : Nat) : (index low : Nat) → List Region → Gap
  | _, low, [] => .last low
  | index, low, region :: rest =>
      if low + want ≤ region.offset then
        .before index low
      else
        firstGap want (index + 1) region.finish rest

/-- First fit: the position and the offset of the region to insert, if any gap
below `high` is wide enough. -/
def firstFit (high want low : Nat) (regions : List Region) : Option (Nat × Nat) :=
  match firstGap want 0 low regions with
  | .before index offset => some (index, offset)
  | .last offset => if offset + want ≤ high then some (regions.length, offset) else none

namespace Packed

variable {high low : Nat} {regions : List Region}

theorem low_le (packed : Packed high low regions) : low ≤ high := by
  induction regions generalizing low with
  | nil => exact packed
  | cons region rest ih =>
      obtain ⟨lower, positive, tail⟩ := packed
      have tailLow := ih tail
      simp only [Region.finish] at tailLow
      omega

/-- Raising the lower bound is sound as long as the first region stays above
it. -/
theorem mono {low' : Nat} (packed : Packed high low regions) (le : low' ≤ low) :
    Packed high low' regions := by
  cases regions with
  | nil => exact le.trans packed
  | cons region rest => exact ⟨le.trans packed.1, packed.2⟩

/-- Every region of a packed table is nonempty and lies inside the bounds. -/
theorem bounds (packed : Packed high low regions) {region : Region}
    (member : region ∈ regions) :
    low ≤ region.offset ∧ 0 < region.length ∧ region.finish ≤ high := by
  induction regions generalizing low with
  | nil => cases member
  | cons head rest ih =>
      obtain ⟨lower, positive, tail⟩ := packed
      rcases List.mem_cons.mp member with rfl | member
      · exact ⟨lower, positive, tail.low_le⟩
      · obtain ⟨tailLower, rest⟩ := ih tail member
        simp only [Region.finish] at tailLower
        exact ⟨by omega, rest⟩

/-- The regions of a packed table are ordered end to start. -/
theorem pairwise (packed : Packed high low regions) :
    regions.Pairwise fun left right => left.finish ≤ right.offset := by
  induction regions generalizing low with
  | nil => exact .nil
  | cons region rest ih =>
      obtain ⟨_, _, tail⟩ := packed
      refine .cons ?_ (ih tail)
      intro other member
      exact (tail.bounds member).1

theorem eraseIdx (packed : Packed high low regions) (index : Nat) :
    Packed high low (regions.eraseIdx index) := by
  induction regions generalizing low index with
  | nil => exact packed
  | cons region rest ih =>
      obtain ⟨lower, positive, tail⟩ := packed
      cases index with
      | zero =>
          refine tail.mono ?_
          simp only [Region.finish]
          omega
      | succ index => exact ⟨lower, positive, ih tail index⟩

end Packed

/-- What the scan promises about the gap it stopped at: a gap in front of a
region takes the new region there, and the last one takes it if it fits below
`high`. -/
def Gap.Takes (high want index low : Nat) (regions : List Region) : Gap → Prop
  | .before position offset => ∃ i, position = index + i ∧ i < regions.length ∧
      low ≤ offset ∧ Packed high low (regions.insertIdx i ⟨offset, want⟩)
  | .last offset => low ≤ offset ∧ offset ≤ high ∧ (offset + want ≤ high →
      Packed high low (regions.insertIdx regions.length ⟨offset, want⟩))

theorem firstGap_takes {high want index low : Nat} {regions : List Region}
    (positive : 0 < want) (packed : Packed high low regions) :
    (firstGap want index low regions).Takes high want index low regions := by
  induction regions generalizing index low with
  | nil =>
      refine ⟨le_rfl, packed, fun fits => ?_⟩
      exact ⟨le_rfl, positive, fits⟩
  | cons region rest ih =>
      obtain ⟨lower, regionPositive, tail⟩ := packed
      have passed : low ≤ region.finish := by
        simp only [Region.finish]
        omega
      by_cases fits : low + want ≤ region.offset
      · simp only [firstGap, if_pos fits]
        refine ⟨0, rfl, by simp, le_rfl, ?_⟩
        exact ⟨le_rfl, positive, fits, regionPositive, tail⟩
      · -- The gap is found further right, so the head stays where it is.
        simp only [firstGap, if_neg fits]
        have found : (firstGap want (index + 1) region.finish rest).Takes high want
            (index + 1) region.finish rest := ih tail
        cases scan : firstGap want (index + 1) region.finish rest with
        | before position offset =>
            rw [scan] at found
            obtain ⟨i, positionEq, bound, above, inserted⟩ := found
            refine ⟨i + 1, by omega, by simpa using bound, passed.trans above, ?_⟩
            exact ⟨lower, regionPositive, inserted⟩
        | last offset =>
            rw [scan] at found
            obtain ⟨above, below, inserted⟩ := found
            refine ⟨passed.trans above, below, fun room => ?_⟩
            exact ⟨lower, regionPositive, inserted room⟩

/-- Inserting the region that first fit chose keeps the table packed. -/
theorem firstFit_packed {high want low position offset : Nat} {regions : List Region}
    (positive : 0 < want) (packed : Packed high low regions)
    (found : firstFit high want low regions = some (position, offset)) :
    position ≤ regions.length ∧ low ≤ offset ∧
      Packed high low (regions.insertIdx position ⟨offset, want⟩) := by
  have spec : (firstGap want 0 low regions).Takes high want 0 low regions :=
    firstGap_takes positive packed
  cases scan : firstGap want 0 low regions with
  | before index gapOffset =>
      simp only [firstFit, scan, Option.some.injEq, Prod.mk.injEq] at found
      obtain ⟨rfl, rfl⟩ := found
      rw [scan] at spec
      obtain ⟨i, rfl, bound, above, inserted⟩ := spec
      rw [zero_add]
      exact ⟨bound.le, above, inserted⟩
  | last gapOffset =>
      simp only [firstFit, scan] at found
      split at found
      next fits =>
        simp only [Option.some.injEq, Prod.mk.injEq] at found
        obtain ⟨rfl, rfl⟩ := found
        rw [scan] at spec
        exact ⟨le_rfl, spec.1, spec.2.2 fits⟩
      next => simp at found

end VgiRpc.Lib
