import CustomProps.Edit.Merge
import CustomProps.Text.Blank

/-!
# Applying edits

The removals are merged and cut at the points of insertion.  Each range is replaced by the text
inserted at its start, if there is one; an insertion anywhere else is a replacement of nothing.  The
replacements are carried out from right to left, so that none of them moves another, and the result
is trimmed.  Of several insertions at one point the last counts.
-/

set_option autoImplicit false

namespace CustomProps

/-- The range from `start` up to `stop` is to be replaced by a text. -/
structure Replacement where
  start : Int
  stop : Int
  text : Text
deriving DecidableEq, Repr

/-- What stands in the text after one replacement; positions beyond the end count as the end. -/
def Replacement.apply (r : Replacement) (t : Text) : Text :=
  t.take r.start.toNat ++ r.text ++ t.drop r.stop.toNat

namespace EditSet

/-- The text to be inserted at a point: the last one recorded for it. -/
def insertedAt (edits : EditSet) (index : Int) : Option Text :=
  (edits.insertions.reverse.find? (·.index == index)).map (·.text)

/-- The points of insertion, each once. -/
def points (edits : EditSet) : List Int := (edits.insertions.map (·.index)).eraseDups

/-- The insertions that count: one for each point, with the last text recorded for it. -/
def lastInsertions (edits : EditSet) : List Insertion :=
  edits.points.map fun p => ⟨p, (edits.insertedAt p).getD []⟩

/-- Turns ranges and insertions into replacements.  Each range takes the insertion at its start; the
insertions that no range has taken come last. -/
def pairUp (insertions : List Insertion) : (ranges : List Removal) → List Replacement
  | [] => insertions.map fun i => ⟨i.index, i.index, i.text⟩
  | r :: ranges =>
    let text := ((insertions.find? (·.index == r.start)).map (·.text)).getD []
    ⟨r.start, r.stop, text⟩ :: pairUp (insertions.filter (·.index != r.start)) ranges

/-- All replacements, from right to left. -/
def replacements (edits : EditSet) : List Replacement :=
  (pairUp edits.lastInsertions (Removal.merge edits.removals edits.points)).mergeSort
    fun a b => b.start ≤ a.start

/-- The edited text, trimmed. -/
def apply (edits : EditSet) (t : Text) : Text :=
  Text.trim (edits.replacements.foldl (fun t r => r.apply t) t)

theorem apply_empty (t : Text) : empty.apply t = Text.trim t := by
  simp [apply, replacements, pairUp, lastInsertions, points, empty, Removal.merge_nil]

end EditSet
end CustomProps
