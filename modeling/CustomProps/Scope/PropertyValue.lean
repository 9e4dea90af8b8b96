import CustomProps.Text.Blank
import CustomProps.Text.Number

/-!
# Values given to custom properties

The values of a scope that somebody else fills need not be texts.  Numbers and truth values are
written out; an undefined value is none.
-/

set_option autoImplicit false

namespace CustomProps

/-- A value as it was given. -/
inductive PropertyValue where
  | text (t : Text)
  | undefined
  | integer (n : Int)
  | flag (b : Bool)
  /-- So many units of the last of the decimal places. -/
  | decimal (units : Int) (places : Nat)
deriving DecidableEq, Repr

namespace PropertyValue

/-- The value written out. -/
def toText? : PropertyValue → Option Text
  | text t => some t
  | undefined => none
  | integer n => some (Text.ofInt n)
  | flag true => some ['T', 'r', 'u', 'e']
  | flag false => some ['F', 'a', 'l', 's', 'e']
  | decimal units places => some (Text.ofDecimal units places)

/-- The value written out and trimmed, unless it is blank. -/
def clean? (value : PropertyValue) : Option Text := value.toText?.bind Text.nonBlank?

end PropertyValue
end CustomProps
