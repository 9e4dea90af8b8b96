import CustomProps.Reference.Plan

/-!
# Declarations

A declaration `property: value` splits at its first colon.  Its fallback is the declaration of the
same property with every reference of the value replaced by a literal text.
-/

set_option autoImplicit false

namespace CustomProps
namespace Declaration

/-- What opens a reference. -/
def referenceOpening : Text := Reference.keyword ++ ['(']

/-- Does the declaration seem to hold a reference?  Declarations that do not are never looked at. -/
def hasReference (declaration : Text) : Bool := Text.occurs referenceOpening declaration

/-- The trimmed property before the first colon and the untrimmed value behind it; without a colon
the value is empty. -/
def split (declaration : Text) : Text × Text :=
  (Text.trim (declaration.takeWhile (· != ':')), (declaration.dropWhile (· != ':')).drop 1)

/-- The trimmed text before the first colon. -/
def property (declaration : Text) : Text := (split declaration).1

/-- The text behind the first colon, as it stands. -/
def value (declaration : Text) : Text := (split declaration).2

/-- The fallback of a declaration, if it has one. -/
def fallback? (declaration : Text) (lookup : Lookup) : Option Text :=
  if hasReference declaration then
    (Reference.fallbackValue? (value declaration) lookup).map (property declaration ++ ':' :: ·)
  else none

theorem fallback?_eq_none_of_not_hasReference {declaration : Text} {lookup : Lookup}
    (h : hasReference declaration = false) : fallback? declaration lookup = none := by
  simp [fallback?, h]

end Declaration
end CustomProps
