import CustomProps.Text.Basic

/-!
# Edits

An edit of a text is either the removal of a range or the insertion of a text at a position.  All
positions are those of the unedited text, so edits can be gathered in any order and none of them
moves another.
-/

set_option autoImplicit false

namespace CustomProps

/-- The range from `start` up to, but not including, `stop` is to be removed. -/
structure Removal where
  start : Int
  stop : Int
deriving DecidableEq, Repr

namespace Removal

/-- Does the range hold the position? -/
def covers (r : Removal) (i : Int) : Bool := r.start ≤ i && i < r.stop

/-- Ranges are ordered by their start, then by their stop. -/
def le (r s : Removal) : Bool := r.start < s.start || (r.start == s.start && r.stop ≤ s.stop)

end Removal

/-- A text is to be inserted in front of the character at `index`. -/
structure Insertion where
  index : Int
  text : Text
deriving DecidableEq, Repr

/-- The edits of one text, in the order in which they were recorded. -/
structure EditSet where
  removals : List Removal
  insertions : List Insertion
deriving DecidableEq, Repr

namespace EditSet

/-- No edits. -/
def empty : EditSet := ⟨[], []⟩

/-- Records the removal of a range, unless the range is empty. -/
def remove (edits : EditSet) (start stop : Int) : EditSet :=
  if start < stop then { edits with removals := edits.removals ++ [⟨start, stop⟩] } else edits

/-- Records an insertion. -/
def insert (edits : EditSet) (index : Int) (text : Text) : EditSet :=
  { edits with insertions := edits.insertions ++ [⟨index, text⟩] }

/-- Is the position inside a recorded removal? -/
def covers (edits : EditSet) (i : Int) : Bool := edits.removals.any (·.covers i)

/-- Is nothing recorded? -/
def isEmpty (edits : EditSet) : Bool := edits.removals.isEmpty && edits.insertions.isEmpty

theorem covers_empty (i : Int) : empty.covers i = false := rfl

theorem covers_insert (edits : EditSet) (index i : Int) (text : Text) :
    (edits.insert index text).covers i = edits.covers i := rfl

theorem covers_remove (edits : EditSet) (start stop i : Int) :
    (edits.remove start stop).covers i = (edits.covers i || decide (start ≤ i ∧ i < stop)) := by
  unfold remove
  split
  · simp [covers, Removal.covers]
  · rename_i h
    have : ¬(start ≤ i ∧ i < stop) := by omega
    simp [this]

end EditSet
end CustomProps
