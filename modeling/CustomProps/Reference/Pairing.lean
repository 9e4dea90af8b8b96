/-!
# Pairing opening and closing positions

Given the ascending positions of the opening and of the closing parentheses of a text, each closing
position takes the latest opening position before it that is still waiting.  There is no pairing
when the two lists differ in length or when some closing position finds nothing waiting.

The positions may be of any ordered type.  A pairing is listed in the order of its closing
positions.
-/

set_option autoImplicit false

namespace CustomProps
namespace Pairing

variable {α : Type} [LT α] [DecidableLT α]

/-- Pairs the closing positions in turn.  `waiting` holds the opening positions already passed and
not yet closed, the latest first. -/
def close (waiting opens : List α) : (closes : List α) → Option (List (α × α))
  | [] => some []
  | c :: closes =>
    match (opens.takeWhile (· < c)).reverse ++ waiting with
    | [] => none
    | o :: waiting =>
      (close waiting (opens.dropWhile (· < c)) closes).map ((o, c) :: ·)

/-- The pairs of opening and closing positions, or `none` when the parentheses do not balance. -/
def pair (opens closes : List α) : Option (List (α × α)) :=
  if opens.length = closes.length then close [] opens closes else none

theorem pair_eq_none_of_length_ne {opens closes : List α} (h : opens.length ≠ closes.length) :
    pair opens closes = none := by
  simp [pair, h]

end Pairing
end CustomProps
