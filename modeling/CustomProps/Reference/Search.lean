import CustomProps.Reference.Basic
import CustomProps.Reference.Pairing
import CustomProps.Text.Word

/-!
# Finding the references of a value

A value is read once for the keyword `var` and for parentheses.  The parentheses are paired, and
every keyword with an opening parenthesis right behind it starts a reference, unless the keyword is
only the end of a longer identifier.  The references come in the order of their keywords, those
inside the fallback of another one too.

When the parentheses do not balance, nothing in the value can be told apart safely, and there is no
list of references at all; a balanced value without references has the empty list.
-/

set_option autoImplicit false

namespace CustomProps
namespace Reference

/-- The keyword that starts a reference. -/
def keyword : Text := ['v', 'a', 'r']

/-- Where the keyword occurs. -/
def keywordPositions (value : Text) : List Nat := Text.positions keyword.isPrefixOf value

/-- The pairs of parentheses of a value, or `none` when they do not balance. -/
def parentheses (value : Text) : Option (List (Nat × Nat)) :=
  Pairing.pair (value.positionsOf '(') (value.positionsOf ')')

/-- Is the character right before position `i` part of an identifier? -/
def afterIdent (value : Text) : (i : Nat) → Bool
  | 0 => false
  | i + 1 => value[i]?.any Text.isIdent

/-- The first comma strictly between two positions. -/
def commaBetween (value : Text) (openParen closeParen : Nat) : Option Nat :=
  ((value.slice (openParen + 1) closeParen).findIdx? (· == ',')).map (openParen + 1 + ·)

/-- The reference whose keyword stands at `start`, if one does. -/
def at? (value : Text) (pairs : List (Nat × Nat)) (start : Nat) : Option Reference :=
  if afterIdent value start then none
  else
    let openParen := start + keyword.length
    (pairs.lookup openParen).map fun closeParen =>
      { start, openParen, closeParen, comma := commaBetween value openParen closeParen }

/-- The references of a value in the order of their keywords, or `none` when its parentheses do not
balance. -/
def all? (value : Text) : Option (List Reference) :=
  (parentheses value).map fun pairs => (keywordPositions value).filterMap (at? value pairs)

theorem at?_start {value : Text} {pairs : List (Nat × Nat)} {start : Nat} {r : Reference}
    (h : at? value pairs start = some r) : r.start = start ∧ r.openParen = start + 3 := by
  simp only [at?] at h
  split at h
  · cases h
  · obtain ⟨closeParen, -, rfl⟩ := Option.map_eq_some_iff.1 h
    exact ⟨rfl, rfl⟩

theorem all?_eq_none_iff {value : Text} : all? value = none ↔ parentheses value = none := by
  simp [all?]

end Reference
end CustomProps
