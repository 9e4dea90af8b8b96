import CustomProps.Sheet.Rule
import CustomProps.Text.Lines

/-!
# Rewriting a sheet

The rules of a sheet are handed, one call each and in order, to whoever transforms blocks.  Every
body for which the answer is a text is replaced by it; all else stays as it was.  A report counts
the rules and can add up over several sheets.
-/

set_option autoImplicit false

namespace CustomProps

/-- One question to a transformer of blocks: a body, the selectors of its rule, and where it stands
in the sheet. -/
structure Call where
  content : Text
  selectors : List Text
  place : Text.Place
  length : Nat
deriving DecidableEq, Repr

/-- What has been done to the rules so far. -/
structure Report where
  rulesSeen : Nat
  rulesTransformed : Nat
  /-- The selector texts of the transformed rules, in order. -/
  transformedSelectors : List Text
  /-- Two lines for each sheet. -/
  summaryLines : List String
deriving DecidableEq, Repr

namespace Report

/-- Nothing seen yet. -/
def empty : Report := ⟨0, 0, [], []⟩

/-- Has any rule been transformed? -/
def hasChanges (report : Report) : Bool := report.rulesTransformed != 0

/-- Counts one rule and the answer to it. -/
def count (report : Report) (rule : Rule) (reply : Option Text) : Report :=
  match reply with
  | none => { report with rulesSeen := report.rulesSeen + 1 }
  | some _ =>
    { report with
      rulesSeen := report.rulesSeen + 1
      rulesTransformed := report.rulesTransformed + 1
      transformedSelectors := report.transformedSelectors ++ [rule.selectorText] }

/-- The lines that end the account of a sheet. -/
def summary (report : Report) : List String :=
  [s!"Rules seen: {report.rulesSeen}", s!"Rules with fallbacks: {report.rulesTransformed}"]

/-- Adds a sheet, given its rules and the answers to them. -/
def addSheet (report : Report) (answered : List (Rule × Option Text)) : Report :=
  let report := answered.foldl (fun report (rule, reply) => report.count rule reply) report
  { report with summaryLines := report.summaryLines ++ report.summary }

end Report

namespace Sheet

/-- The question that a rule of a sheet gives rise to. -/
def callOf (sheet : Text) (rule : Rule) : Call where
  content := rule.body
  selectors := rule.selectors
  place := sheet.placeOf rule.start
  length := rule.body.length

/-- Puts the answers in place of the bodies.  `rest` is what follows position `pos` of the sheet. -/
def spliceFrom (pos : Nat) (rest : Text) : List (Rule × Option Text) → Text
  | [] => rest
  | (rule, reply) :: answered =>
    rest.take (rule.start - pos) ++ reply.getD rule.body ++
      spliceFrom rule.stop (rest.drop (rule.stop - pos)) answered

/-- The sheet with the answers in place of the bodies. -/
def splice (sheet : Text) (answered : List (Rule × Option Text)) : Text :=
  spliceFrom 0 sheet answered

/-- Rewrites a sheet: asks about every rule, then puts the answers in place and reports. -/
def rewrite {m : Type → Type} [Monad m] (transformer : Call → m (Option Text)) (sheet : Text)
    (report : Report) : m (Text × Report) := do
  let answered ← (rules sheet).mapM fun rule => do
    return (rule, ← transformer (callOf sheet rule))
  return (splice sheet answered, report.addSheet answered)

theorem splice_nil (sheet : Text) : splice sheet [] = sheet := rfl

end Sheet
end CustomProps
