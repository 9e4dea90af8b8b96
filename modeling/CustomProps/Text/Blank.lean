import CustomProps.Text.Basic

/-!
# Blank characters and trimming

A blank is any of the Unicode space characters and the controls that separate lines, fields or
records.  The zero-width space U+200B and the mark U+FEFF are not blanks.
-/

set_option autoImplicit false

namespace CustomProps
namespace Text

/-- The ranges of blank characters, both ends included. -/
def blankRanges : List (Nat × Nat) :=
  [ (0x09, 0x0D), (0x1C, 0x20), (0x85, 0x85), (0xA0, 0xA0), (0x1680, 0x1680), (0x2000, 0x200A),
    (0x2028, 0x2029), (0x202F, 0x202F), (0x205F, 0x205F), (0x3000, 0x3000) ]

/-- Spaces of every width, tabs, line ends and the separating controls. -/
def isBlank (c : Char) : Bool := inRanges blankRanges c

/-- The text without its leading blanks. -/
def trimLeft (t : Text) : Text := t.dropWhile isBlank

/-- The text without its trailing blanks. -/
def trimRight (t : Text) : Text := (t.reverse.dropWhile isBlank).reverse

/-- The text without the blanks at its two ends. -/
def trim (t : Text) : Text := trimRight (trimLeft t)

/-- The text, trimmed, unless nothing is left of it. -/
def nonBlank? (t : Text) : Option Text :=
  match trim t with
  | [] => none
  | c :: cs => some (c :: cs)

theorem trim_nil : trim [] = [] := rfl

theorem nonBlank?_eq_none_iff {t : Text} : nonBlank? t = none ↔ trim t = [] := by
  unfold nonBlank?
  split <;> simp_all

theorem nonBlank?_eq_some_iff {t u : Text} : nonBlank? t = some u ↔ trim t = u ∧ u ≠ [] := by
  unfold nonBlank?
  split <;> rename_i h <;> simp only [h] <;> grind

end Text
end CustomProps
