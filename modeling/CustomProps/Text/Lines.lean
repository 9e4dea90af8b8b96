import CustomProps.Text.Basic

/-!
# Lines

Line ends as a text file is read, and the place of a position in a text as a line and a column.
-/

set_option autoImplicit false

namespace CustomProps
namespace Text

/-- Reads every line end, CR LF and a lone CR too, as one LF. -/
def unifyLineEnds : Text → Text
  | [] => []
  | '\r' :: '\n' :: cs => '\n' :: unifyLineEnds cs
  | c :: cs => (if c = '\r' then '\n' else c) :: unifyLineEnds cs

/-- A place in a text.  Lines and columns are counted from one. -/
structure Place where
  line : Nat
  column : Nat
deriving DecidableEq, Repr

/-- The place right behind a character: LF ends a line, and nothing else does. -/
def Place.after (place : Place) (c : Char) : Place :=
  if c = '\n' then ⟨place.line + 1, 1⟩ else ⟨place.line, place.column + 1⟩

/-- The place of the character at position `i`. -/
def placeOf (t : Text) (i : Nat) : Place := (t.take i).foldl Place.after ⟨1, 1⟩

/-- The characters that end a line of a printed text. -/
def endsLine (c : Char) : Bool :=
  inRanges [(0x0A, 0x0D), (0x1C, 0x1E), (0x85, 0x85), (0x2028, 0x2029)] c

/-- The lines of a printed text, without their ends.  CR LF ends one line, and the end of the text
needs no line end. -/
def lines : Text → List Text
  | [] => []
  | '\r' :: '\n' :: cs => [] :: lines cs
  | c :: cs =>
    if endsLine c then [] :: lines cs
    else
      match lines cs with
      | line :: rest => (c :: line) :: rest
      | [] => [[c]]

theorem cr_not_mem_unifyLineEnds (t : Text) : '\r' ∉ unifyLineEnds t := by
  fun_induction unifyLineEnds t with
  | case1 => simp
  | case2 cs ih => simp [ih]
  | case3 c cs _ ih =>
    simp only [List.mem_cons, not_or]
    refine ⟨?_, ih⟩
    split
    · decide
    · rename_i hc
      exact fun h => hc h.symm

end Text
end CustomProps
