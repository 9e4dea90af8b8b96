import CustomProps.Declaration
import CustomProps.Text.Split

/-!
# Blocks of declarations

A block is the content between the braces of a rule: declarations with a semicolon between them.
The semicolons inside quotes, comments or parentheses separate too.

Transforming a block puts the fallback of each declaration in front of it:
`color:var(--fg, red)` becomes `color:red;color:var(--fg, red);`.  A block in which no declaration
has a fallback is left alone.
-/

set_option autoImplicit false

namespace CustomProps
namespace Block

/-- What separates the declarations. -/
def separator : Char := ';'

/-- The declarations of a block; empty pieces are none. -/
def declarations (content : Text) : List Text :=
  (Text.splitOn separator content).filter (!·.isEmpty)

/-- A declaration with its fallback, if it has one, in front of it. -/
def withFallback (lookup : Lookup) (declaration : Text) : List Text :=
  (Declaration.fallback? declaration lookup).toList ++ [declaration]

/-- The declarations, each closed by a semicolon. -/
def render (declarations : List Text) : Text :=
  declarations.flatMap (· ++ [separator])

/-- The block with all fallbacks, or `none` when no declaration has one. -/
def transform (content : Text) (lookup : Lookup) : Option Text :=
  if (declarations content).any fun d => (Declaration.fallback? d lookup).isSome then
    some (render ((declarations content).flatMap (withFallback lookup)))
  else none

theorem render_append (ds es : List Text) : render (ds ++ es) = render ds ++ render es := by
  simp [render]

theorem transform_eq_none_iff {content : Text} {lookup : Lookup} :
    transform content lookup = none ↔
      ∀ d ∈ declarations content, Declaration.fallback? d lookup = none := by
  simp [transform]

end Block
end CustomProps
