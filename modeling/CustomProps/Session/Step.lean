import CustomProps.Session.Basic

/-!
# Steps of a session

Whatever can be done in a session, as data, so that a run of a session is a list of steps and its
outcome a list of answers.  A step that fails is answered by the error, and the run goes on.
-/

set_option autoImplicit false

namespace CustomProps

/-- One thing to do. -/
inductive Step where
  | lookup (scope : Nat) (name : Text)
  | version (scope : Nat)
  | set (scope : Nat) (name : Text) (value : PropertyValue)
  | remove (scope : Nat) (name : Text)
  | clear (scope : Nat)
  | poke (scope : Nat) (name : Text) (value : PropertyValue)
  | unpoke (scope : Nat) (name : Text)
  | write (path : Path) (entry : Int → Entry) (time : Option Int)
  | delete (path : Path)
  | fetch (memo : Nat) (content : Text)
  | holds (memo : Nat) (content : Text)
  | forget (memo : Nat)
  | transform (scope : Nat) (content : Text)
  | call (plugin : Nat) (phase : Int) (content : Text) (selectors : List Text)
  | nativeCalls
  /-- Rewrites a sheet, adding to the report of the session or to a fresh one. -/
  | rewrite (plugin : Nat) (sheet : Text) (keepReport : Bool)

/-- What a step answers. -/
inductive Answer where
  | nothing
  | text (t : Option Text)
  | number (n : Nat)
  | truth (b : Bool)
  /-- The result for a block, the memo after the step, and how often blocks were transformed for it
  so far. -/
  | fetched (result : Option Text) (slot : MemoSlot) (runs : Nat)
  | rewritten (output : Text) (report : Report)
  | raised (error : FileError)
deriving DecidableEq, Repr

namespace Session

/-- Changes a scope and answers its version. -/
def modifyThenVersion (k : Nat) (change : Mapping → Mapping) : LookM Answer := do
  modifyScope k (.modifyMapping change)
  return .number (← version k)

/-- Rewrites a sheet, adding to the report of the session, and to no less than was done if the
plugin fails. -/
def rewriteKept (p : Nat) (sheet : Text) : LookM Answer := fun s =>
  match rewrite p sheet s.report s with
  | (.ok (output, report), later) => (.ok (.rewritten output report), { later with report })
  | (.error error, later) =>
    (.error error,
      { later with report := interrupted p sheet (Sheet.rules sheet) s.report s })

/-- Does one step, which may fail. -/
def act : Step → LookM Answer
  | .lookup k name => return .text (← lookup k name)
  | .version k => return .number (← version k)
  | .set k name value => modifyThenVersion k (·.set name value)
  | .remove k name => modifyThenVersion k (·.remove name)
  | .clear k => modifyThenVersion k (·.clear)
  | .poke k name value => do
    modifyScope k (.poke name value)
    return .nothing
  | .unpoke k name => do
    modifyScope k (.unpoke name)
    return .nothing
  | .write path entry time => do
    modify fun s => { s with files := s.files.install path entry time }
    return .nothing
  | .delete path => do
    modify fun s => { s with files := s.files.remove path }
    return .nothing
  | .fetch j content => do
    let result ← fetch (counting j transform) j content
    return .fetched result (← memoSlot j) ((← get).runs.countP (·.1 == j))
  | .holds j content => return .truth (← holds j content)
  | .forget j => do
    modifyMemo j (·.clear)
    return .number (← memoSlot j).memo.size
  | .transform k content => return .text (← transform k content)
  | .call p phase content selectors => return .text (← call p phase content selectors)
  | .nativeCalls => return .number (← get).nativeCalls
  | .rewrite p sheet true => rewriteKept p sheet
  | .rewrite p sheet false => do
    let (output, report) ← rewrite p sheet .empty
    return .rewritten output report

/-- Does one step. -/
def perform (step : Step) : SessionM Answer := do
  match ← (act step).run with
  | .ok answer => return answer
  | .error error => return .raised error

/-- Does the steps in turn. -/
def performAll (steps : List Step) : SessionM (List Answer) := steps.mapM perform

theorem performAll_cons (step : Step) (steps : List Step) (s : Session) :
    (performAll (step :: steps) s).1 =
      (perform step s).1 :: (performAll steps (perform step s).2).1 := by
  rw [performAll, List.mapM_cons]
  rfl

theorem performAll_cons_snd (step : Step) (steps : List Step) (s : Session) :
    (performAll (step :: steps) s).2 = (performAll steps (perform step s).2).2 := by
  rw [performAll, List.mapM_cons]
  rfl

end Session
end CustomProps
