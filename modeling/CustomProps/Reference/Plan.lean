import CustomProps.Edit.Apply
import CustomProps.Reference.Resolution
import CustomProps.Reference.Search

/-!
# Replacing the references of a value

Each reference adds its edits to one set of edits of the whole value.  The keyword, the parentheses,
the name and the comma always go.  A root value also removes the fallback and is inserted where the
reference started; a fallback that is kept only loses its leading blanks.

A reference whose keyword is already removed is dead: it stood in the name of another reference, or
in a fallback that gave way to a root value.  It is not resolved and adds nothing.
-/

set_option autoImplicit false

namespace CustomProps
namespace Reference

/-- Where the blanks behind the comma stop, at the closing parenthesis at the latest. -/
def blankStop (r : Reference) (value : Text) : Nat :=
  r.nameStop + ((value.slice r.nameStop r.closeParen).takeWhile Text.isBlank).length

/-- Adds the edits of a resolved reference. -/
def plan (r : Reference) (resolution : Resolution) (value : Text) (edits : EditSet) : EditSet :=
  let edits := edits.remove r.start r.nameStop
  let edits := edits.remove r.closeParen (r.closeParen + 1)
  match resolution with
  | .root text => (edits.remove r.nameStop r.closeParen).insert r.start text
  | .fallback => edits.remove r.nameStop (r.blankStop value)
  | .unresolved => edits

/-- The edits of resolved references, in turn. -/
def planAll (value : Text) (resolved : List (Reference × Resolution)) : EditSet :=
  resolved.foldl (fun edits (r, resolution) => r.plan resolution value edits) .empty

/-- The references that are alive, given the edits so far, each with its resolution. -/
def liveAfter (value : Text) (lookup : Lookup) (edits : EditSet) :
    List Reference → List (Reference × Resolution)
  | [] => []
  | r :: rs =>
    if edits.covers r.start then liveAfter value lookup edits rs
    else
      let resolution := r.resolve value lookup
      (r, resolution) :: liveAfter value lookup (r.plan resolution value edits) rs

/-- The live references of a value, each with its resolution; none when the parentheses do not
balance. -/
def live (value : Text) (lookup : Lookup) : List (Reference × Resolution) :=
  liveAfter value lookup .empty ((all? value).getD [])

/-- The value with every reference replaced by a literal text.  There is no such text when the value
has no references, when its parentheses do not balance, or when nothing is left of it. -/
def fallbackValue? (value : Text) (lookup : Lookup) : Option Text :=
  match live value lookup with
  | [] => none
  | resolved => some ((planAll value resolved).apply value) |>.filter (!·.isEmpty)

theorem live_eq_nil_of_all?_eq_none {value : Text} {lookup : Lookup} (h : all? value = none) :
    live value lookup = [] := by
  simp [live, h, liveAfter]

theorem fallbackValue?_ne_nil {value text : Text} {lookup : Lookup}
    (h : fallbackValue? value lookup = some text) : text ≠ [] := by
  unfold fallbackValue? at h
  split at h
  · cases h
  · simp only [Option.filter_eq_some_iff] at h
    simpa using h.2

end Reference
end CustomProps
