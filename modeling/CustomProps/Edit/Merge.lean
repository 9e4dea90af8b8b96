import CustomProps.Edit.Basic

/-!
# Merging removals

Overlapping and touching ranges become one, in ascending order.  The merged ranges are then cut at
every given point that lies strictly inside one of them, so that such a point is always the start of
a range.
-/

set_option autoImplicit false

namespace CustomProps
namespace Removal

/-- Joins the ranges of an ascending list to `current` for as long as they overlap or touch it. -/
def mergeInto (current : Removal) : List Removal → List Removal
  | [] => [current]
  | r :: rs =>
    if r.start ≤ current.stop then mergeInto ⟨current.start, max current.stop r.stop⟩ rs
    else current :: mergeInto r rs

/-- Merges the ranges of an ascending list. -/
def mergeSorted : List Removal → List Removal
  | [] => []
  | r :: rs => mergeInto r rs

/-- Cuts a range at the points strictly inside it; the points are ascending. -/
def cutAt (r : Removal) : (points : List Int) → List Removal
  | [] => [r]
  | p :: points =>
    if r.start < p ∧ p < r.stop then ⟨r.start, p⟩ :: cutAt ⟨p, r.stop⟩ points
    else cutAt r points

/-- The merged ranges in ascending order, cut at the given points. -/
def merge (removals : List Removal) (points : List Int) : List Removal :=
  let cuts := (points.mergeSort (· ≤ ·)).eraseDups
  (mergeSorted (removals.mergeSort le)).flatMap (cutAt · cuts)

theorem cutAt_nil (r : Removal) : cutAt r [] = [r] := rfl

theorem merge_nil (points : List Int) : merge [] points = [] := by
  simp [merge, mergeSorted]

end Removal
end CustomProps
