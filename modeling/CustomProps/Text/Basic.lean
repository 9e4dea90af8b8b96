/-!
# Texts

A text is a list of characters, and every position in this library counts characters.  This file
holds what the other modules say about texts in general: cutting out a range, searching for a
position, and membership in a table of character ranges.
-/

set_option autoImplicit false

namespace CustomProps

/-- A text: the sequence of its characters. -/
abbrev Text := List Char

namespace Text

/-- Does the character lie in one of the ranges, both ends included? -/
def inRanges (ranges : List (Nat × Nat)) (c : Char) : Bool :=
  ranges.any fun (first, last) => first ≤ c.toNat && c.toNat ≤ last

/-- The characters at the positions from `start` up to, but not including, `stop`. -/
def slice (t : Text) (start stop : Nat) : Text := (t.drop start).take (stop - start)

/-- The positions, counted from `offset`, at which the rest of the text satisfies `p`. -/
def positionsFrom (p : Text → Bool) (offset : Nat) : Text → List Nat
  | [] => []
  | c :: cs =>
    if p (c :: cs) then offset :: positionsFrom p (offset + 1) cs
    else positionsFrom p (offset + 1) cs

/-- The positions at which the rest of the text satisfies `p`, in ascending order. -/
def positions (p : Text → Bool) (t : Text) : List Nat := positionsFrom p 0 t

/-- The positions of a character. -/
def positionsOf (c : Char) (t : Text) : List Nat := positions (·.head? == some c) t

/-- Does the pattern occur in the text? -/
def occurs (pattern t : Text) : Bool := !(positions pattern.isPrefixOf t).isEmpty

/-- Orders texts by their characters, the first difference deciding. -/
def before (a b : Text) : Bool := decide (a < b)

theorem length_slice_le (t : Text) (start stop : Nat) :
    (t.slice start stop).length ≤ stop - start := by
  simp only [slice, List.length_take]
  omega

theorem slice_self (t : Text) (start : Nat) : t.slice start start = [] := by
  simp [slice]

theorem positionsFrom_lt {p : Text → Bool} {t : Text} {offset i : Nat}
    (h : i ∈ positionsFrom p offset t) : offset ≤ i ∧ i < offset + t.length := by
  induction t generalizing offset with
  | nil => simp [positionsFrom] at h
  | cons c cs ih =>
    simp only [positionsFrom] at h
    split at h
    · rcases List.mem_cons.1 h with rfl | h
      · simp
      · have := ih h
        simp only [List.length_cons]
        omega
    · have := ih h
      simp only [List.length_cons]
      omega

end Text
end CustomProps
