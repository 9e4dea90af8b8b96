import CustomProps.Text.Basic

/-!
# Comments

A comment runs from `/*` to the first `*/` that starts at least two characters later.  A `/*` that
is never closed is no comment.  Blanking replaces each character of a comment by a space, so every
other character keeps its position.
-/

set_option autoImplicit false

namespace CustomProps
namespace Sheet

/-- The number of characters up to the end of the first `*/`, if there is one. -/
def closingLength? : Text → Option Nat
  | '*' :: '/' :: _ => some 2
  | _ :: cs => (closingLength? cs).map (· + 1)
  | [] => none

/-- The length of the comment at the start of a text, if there is one. -/
def commentLength? : Text → Option Nat
  | '/' :: '*' :: cs => (closingLength? cs).map (· + 2)
  | _ => none

/-- Blanks the first `inside` characters, the rest of a comment, and every later comment. -/
def blankAfter (inside : Nat) : Text → Text
  | [] => []
  | c :: cs =>
    if 0 < inside then ' ' :: blankAfter (inside - 1) cs
    else
      match commentLength? (c :: cs) with
      | some length => ' ' :: blankAfter (length - 1) cs
      | none => c :: blankAfter 0 cs

/-- The text with its comments blanked. -/
def blankComments (t : Text) : Text := blankAfter 0 t

theorem length_blankAfter (inside : Nat) (t : Text) : (blankAfter inside t).length = t.length := by
  induction t generalizing inside with
  | nil => rfl
  | cons c cs ih =>
    simp only [blankAfter]
    split
    · simp [ih]
    · split <;> simp [ih]

theorem length_blankComments (t : Text) : (blankComments t).length = t.length :=
  length_blankAfter 0 t

end Sheet
end CustomProps
