import CustomProps.Text.Blank

/-!
# References to custom properties

A reference is one place `var(--name, fallback)` in the value of a declaration.  It is recorded by
its positions in that value: where the keyword starts, its two parentheses, and the comma that ends
the name if there is one.
-/

set_option autoImplicit false

namespace CustomProps

/-- The positions of one reference inside a value. -/
structure Reference where
  /-- The position of the keyword. -/
  start : Nat
  openParen : Nat
  closeParen : Nat
  /-- The position of the comma that ends the name. -/
  comma : Option Nat
deriving DecidableEq, Repr

namespace Reference

/-- Does the reference have a fallback, perhaps an empty one? -/
def hasFallback (r : Reference) : Bool := r.comma.isSome

/-- Where the fallback text starts. -/
def fallbackStart (r : Reference) : Option Nat := r.comma.map (· + 1)

/-- The name between the opening parenthesis and the comma, or the closing parenthesis when there
is no comma, trimmed. -/
def name (r : Reference) (value : Text) : Text :=
  Text.trim (value.slice (r.openParen + 1) (r.comma.getD r.closeParen))

/-- The text between the comma and the closing parenthesis, as it stands. -/
def fallback (r : Reference) (value : Text) : Option Text :=
  r.comma.map fun comma => value.slice (comma + 1) r.closeParen

/-- Does the position lie on the reference, its keyword and its parentheses included? -/
def contains (r : Reference) (i : Int) : Bool := r.start ≤ i && i ≤ r.closeParen

/-- Where the removed head of the reference stops: behind the comma, or at the closing parenthesis
when there is no comma. -/
def nameStop (r : Reference) : Nat := r.fallbackStart.getD r.closeParen

end Reference
end CustomProps
