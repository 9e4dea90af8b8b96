import CustomProps.Sheet.Rule
import CustomProps.Text.Map
import CustomProps.Text.Word

/-!
# The root properties of a sheet

The custom properties that the rules with the selector `:root` define.  A definition is a name, a
colon and a value, which goes on up to the next semicolon.  A blank value defines nothing, and of
several definitions of one name the last counts.
-/

set_option autoImplicit false

namespace CustomProps
namespace Sheet

/-- Reads `--name :` at the start of a text: the name and what follows the colon. -/
def nameAndColon? : Text → Option (Text × Text)
  | '-' :: '-' :: cs =>
    let ident := cs.takeWhile Text.isIdent
    if ident.isEmpty then none
    else
      match Text.trimLeft (cs.dropWhile Text.isIdent) with
      | ':' :: rest => some ('-' :: '-' :: ident, rest)
      | _ => none
  | _ => none

/-- The definitions in the rest of a body: each name with what stands between its colon and the next
semicolon, or the end.  The rest may start `within` a definition that was found already. -/
def scanDefinitions (within : Bool) : Text → List (Text × Text)
  | [] => []
  | c :: cs =>
    if within then scanDefinitions (c != ';') cs
    else
      match nameAndColon? (c :: cs) with
      | some (name, rest) => (name, rest.takeWhile (· != ';')) :: scanDefinitions true cs
      | none => scanDefinitions false cs

/-- The definitions that the body of a root rule makes, in order.  A blank value makes none. -/
def definitions (body : Text) : List (Text × Text) :=
  (scanDefinitions false (blankComments body)).filterMap fun (name, rest) =>
    (Text.nonBlank? rest).map (name, ·)

/-- The custom properties that the root rules of a sheet define. -/
def rootProperties (sheet : Text) : Properties :=
  TextMap.ofList (((rules sheet).filter (·.isRoot)).flatMap fun rule => definitions rule.body)

end Sheet
end CustomProps
