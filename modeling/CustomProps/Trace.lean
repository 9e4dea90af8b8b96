import CustomProps.Block
import CustomProps.Event

/-!
# What happens during a transformation

The result of a transformation depends on the root scope alone.  This file tells what happens on the
way: which names are asked for and which events arise, in order.  The first question matters to a
scope that reads a file only when it is asked.
-/

set_option autoImplicit false

namespace CustomProps

/-- A step on the way. -/
inductive Moment where
  /-- The root scope is asked for a name. -/
  | asked (name : Text)
  | noted (event : Event)
deriving DecidableEq, Repr

/-- Is the root scope asked? -/
def Moment.isQuestion : Moment → Bool
  | asked _ => true
  | noted _ => false

/-- The question about a name; a blank name is not asked for. -/
def Moment.askFor (name : Text) : List Moment := if name.isEmpty then [] else [.asked name]

/-- What happens when a live reference is resolved. -/
def Reference.moments (value : Text) (r : Reference) (resolution : Resolution) : List Moment :=
  Moment.askFor (r.name value) ++
    (if resolution = .unresolved then [.noted (.unresolved (r.name value))] else [])

/-- What happens when the references of a value are replaced. -/
def Reference.trace (value : Text) (lookup : Lookup) : List Moment :=
  match parentheses value with
  | none =>
    let count c := (value.positionsOf c).length
    [.noted (.unbalanced value (count '(') (count ')'))]
  | some _ => (live value lookup).flatMap fun (r, resolution) => r.moments value resolution

/-- What happens when the fallback of a declaration is looked for. -/
def Declaration.trace (declaration : Text) (lookup : Lookup) : List Moment :=
  if hasReference declaration then
    Reference.trace (value declaration) lookup ++
      (if (fallback? declaration lookup).isNone then [.noted (.noFallback declaration)] else [])
  else []

/-- What happens when a block is transformed. -/
def Block.trace (content : Text) (lookup : Lookup) : List Moment :=
  (declarations content).flatMap (Declaration.trace · lookup)

namespace Trace

/-- Was anything asked? -/
def asks (trace : List Moment) : Bool := trace.any (·.isQuestion)

/-- What happens before anything is asked. -/
def beforeQuestion (trace : List Moment) : List Moment := trace.takeWhile (!·.isQuestion)

/-- The events in order; those of `atFirstQuestion` arise when the scope is first asked. -/
def events (atFirstQuestion : List Event) : List Moment → List Event
  | [] => []
  | .asked _ :: trace => atFirstQuestion ++ events [] trace
  | .noted event :: trace => event :: events atFirstQuestion trace

/-- Without events of its own, the first question adds nothing to those that are noted. -/
theorem events_nil (trace : List Moment) :
    events [] trace = trace.filterMap fun
      | .asked _ => none
      | .noted event => some event := by
  induction trace with
  | nil => rfl
  | cons m trace ih => cases m <;> simp [events, ih]

end Trace
end CustomProps
