import CustomProps.Sheet.Comment
import CustomProps.Text.Blank
import CustomProps.Text.Split

/-!
# Rules

The rules of a sheet are its innermost ones: an opening brace whose next brace is a closing one,
with selectors in front of it.  The braces of a group such as `@media` enclose rules but are no rule
themselves.  Comments do not count, but all positions are those of the sheet with its comments.
-/

set_option autoImplicit false

namespace CustomProps

/-- A rule `selectors { body }`. -/
structure Rule where
  /-- The text in front of the brace, without comments and trimmed. -/
  selectorText : Text
  /-- The text between the braces, with its comments. -/
  body : Text
  /-- The position of the body in the sheet. -/
  start : Nat
  /-- The position of the closing brace. -/
  stop : Nat
deriving DecidableEq, Repr

namespace Sheet

/-- The selectors of a rule, separated by commas; blank ones are dropped. -/
def splitSelectors (selectorText : Text) : List Text :=
  ((Text.splitOn ',' selectorText).map Text.trim).filter (!·.isEmpty)

/-- The selector that makes the declarations of a rule root properties. -/
def rootSelector : Text := [':', 'r', 'o', 'o', 't']

/-- Is one of the selectors the root selector? -/
def hasRootSelector (selectors : List Text) : Bool :=
  selectors.any fun selector => Text.trim selector == rootSelector

/-- An opening brace whose next brace is still to come. -/
structure Opening where
  /-- What stands in front of the brace. -/
  head : Text
  /-- The position behind the brace. -/
  start : Nat

/-- Can the trimmed text in front of a brace be the selectors of a rule? -/
def isSelectorText (selectorText : Text) : Bool :=
  !selectorText.isEmpty && selectorText.head? != some '@'

/-- The rule between an opening brace and the closing brace at `stop`, unless the opening brace
belongs to a group. -/
def Opening.close? (opening : Opening) (sheet : Text) (stop : Nat) : Option Rule :=
  let selectorText := Text.trim opening.head
  if isSelectorText selectorText then
    some { selectorText, body := sheet.slice opening.start stop, start := opening.start, stop }
  else none

/-- Finds the rules in the rest of a comment-free text.  `pos` is the position of the rest, `run`
the characters since the last brace or semicolon, the latest first, and `opening` the last brace
when it was an opening one. -/
def scanRules (sheet : Text) (pos : Nat) (run : Text) (opening : Option Opening) :
    Text → List Rule
  | [] => []
  | c :: cs =>
    if c = '{' then scanRules sheet (pos + 1) [] (some ⟨run.reverse, pos + 1⟩) cs
    else if c = '}' then
      (opening.bind (·.close? sheet pos)).toList ++ scanRules sheet (pos + 1) [] none cs
    else if c = ';' then scanRules sheet (pos + 1) [] opening cs
    else scanRules sheet (pos + 1) (c :: run) opening cs

/-- The rules of a sheet, in order. -/
def rules (sheet : Text) : List Rule := scanRules sheet 0 [] none (blankComments sheet)

end Sheet

namespace Rule

/-- The selectors of the rule. -/
def selectors (rule : Rule) : List Text := Sheet.splitSelectors rule.selectorText

/-- Does the rule declare root properties? -/
def isRoot (rule : Rule) : Bool := rule.selectors.contains Sheet.rootSelector

end Rule

namespace Sheet

theorem body_of_close? {opening : Opening} {sheet : Text} {stop : Nat} {rule : Rule}
    (h : opening.close? sheet stop = some rule) :
    rule.body = sheet.slice rule.start rule.stop := by
  simp only [Opening.close?] at h
  split at h
  · obtain rfl := Option.some.inj h
    rfl
  · cases h

theorem body_of_mem_scanRules {sheet run rest : Text} {pos : Nat} {opening : Option Opening}
    {rule : Rule} (h : rule ∈ scanRules sheet pos run opening rest) :
    rule.body = sheet.slice rule.start rule.stop := by
  induction rest generalizing pos run opening with
  | nil => simp [scanRules] at h
  | cons c cs ih =>
    simp only [scanRules] at h
    split at h
    · exact ih h
    · split at h
      · rcases List.mem_append.1 h with h | h
        · obtain ⟨o, -, ho⟩ := Option.bind_eq_some_iff.1 (Option.mem_toList.1 h)
          exact body_of_close? ho
        · exact ih h
      · split at h <;> exact ih h

/-- The body of a rule is what stands at its positions in the sheet. -/
theorem body_of_mem_rules {sheet : Text} {rule : Rule} (h : rule ∈ rules sheet) :
    rule.body = sheet.slice rule.start rule.stop :=
  body_of_mem_scanRules h

end Sheet
end CustomProps
