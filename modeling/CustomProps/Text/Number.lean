import CustomProps.Text.Basic

/-!
# Numbers as texts

Numbers are written in base ten, without separators, a negative one behind a hyphen.
-/

set_option autoImplicit false

namespace CustomProps
namespace Text

/-- The decimal digits of a number. -/
def ofNat (n : Nat) : Text := Nat.toDigits 10 n

/-- The decimal digits of an integer, with a sign if it is negative. -/
def ofInt : Int → Text
  | .ofNat n => ofNat n
  | .negSucc n => '-' :: ofNat (n + 1)

/-- A number of `units` in the last of `places` decimal places, as in `ofDecimal 15 1 = "1.5"`.
Without places there is no point. -/
def ofDecimal (units : Int) (places : Nat) : Text :=
  let scale := Nat.pow 10 places
  let whole := ofNat (units.natAbs / scale)
  let digits := ofNat (units.natAbs % scale)
  let fraction := List.replicate (places - digits.length) '0' ++ digits
  (if units < 0 then ['-'] else []) ++ whole ++ (if places = 0 then [] else '.' :: fraction)

end Text
end CustomProps
