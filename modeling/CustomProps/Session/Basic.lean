import CustomProps.Memo
import CustomProps.Options
import CustomProps.Plugin
import CustomProps.Scope.Basic
import CustomProps.Sheet.Rewrite
import CustomProps.Trace

/-!
# Sessions

A session holds all that the parts share and that changes while they work: the files, the scopes,
the memos and the plugins over those scopes, a report that adds up, and the events so far.  Scopes,
memos and plugins are known by their numbers, so several memos and plugins can share one scope.

Nothing but a sheet scope changes by being asked: it takes a look at its file then.  Whatever looks
at files may fail, where the path of a sheet never reaches the system.  What happened up to then
stays.
-/

set_option autoImplicit false

namespace CustomProps

/-- A memo over a scope. -/
structure MemoSlot where
  scope : Nat
  memo : Memo
deriving DecidableEq, Repr

/-- The shared state. -/
structure Session where
  files : FileSystem
  scopes : List Scope
  memos : List MemoSlot
  plugins : List Plugin
  report : Report
  /-- How often a plugin in the making asked whether the engine knows custom properties. -/
  nativeCalls : Nat
  /-- The runs of transformers that are counted: for which memo, and of which block. -/
  runs : List (Nat × Text)
  /-- What happened so far. -/
  journal : List Event

/-- A computation in a session. -/
abbrev SessionM := StateM Session

/-- A computation that looks at files, and may fail to. -/
abbrev LookM := ExceptT FileError SessionM

/-- What transforms a block under the scope of a number. -/
abbrev Transformer := Nat → Text → LookM (Option Text)

namespace Session

/-- A session over some files in which nothing has been made. -/
def ofFiles (files : FileSystem) : Session := ⟨files, [], [], [], .empty, 0, [], []⟩

/-! ## Making scopes, memos and plugins -/

/-- Adds a scope and answers its number. -/
def addScope (scope : Scope) : SessionM Nat := fun s =>
  (s.scopes.length, { s with scopes := s.scopes ++ [scope] })

/-- Adds an empty memo over a scope and answers its number. -/
def addMemo (scope : Nat) : SessionM Nat := fun s =>
  (s.memos.length, { s with memos := s.memos ++ [⟨scope, .empty⟩] })

/-- Adds events to the journal. -/
def note (events : List Event) : SessionM Unit :=
  modify fun s => { s with journal := s.journal ++ events }

/-- The scope of a plugin that is given none: the sheet that the options name, or an empty one. -/
def scopeOfOptions (options : Options) : Scope :=
  match options.rootStylesheet with
  | none | some [] => .empty
  | some path => .sheet (.ofPath (.ofLoose path))

/-- Asks whether the engine knows custom properties, if there is somebody to ask. -/
def askNative (native : Option Bool) : SessionM Bool := do
  match native with
  | none => return false
  | some answer =>
    modify fun s => { s with nativeCalls := s.nativeCalls + 1 }
    return answer

/-- The scope of a plugin in the making: the given one, or one of its own. -/
def pluginScope (options : Options) (scope : Option Nat) : SessionM Nat :=
  scope.elim (addScope (scopeOfOptions options)) pure

/-- The memo of a plugin in the making, if it keeps one. -/
def pluginMemo (useCache : Bool) (k : Nat) : SessionM (Option Nat) :=
  if useCache then some <$> addMemo k else pure none

/-- Notes that a plugin is disabled, if it is. -/
def noteDisabled (disabled : Bool) : SessionM Bool := do
  if disabled then note [.pluginDisabled]
  return disabled

/-- Adds a plugin and answers its number. -/
def registerPlugin (plugin : Plugin) : SessionM Nat := modifyGet fun s =>
  (s.plugins.length, { s with plugins := s.plugins ++ [plugin] })

/-- Adds a plugin over a scope, or over one of its own, and answers its number. -/
def addPlugin (options : Options) (scope : Option Nat) (native : Option Bool) : SessionM Nat := do
  let scope ← pluginScope options scope
  let memo ← pluginMemo options.useCache scope
  let supported ← askNative native
  let disabled ← noteDisabled (options.skipSupported && supported)
  registerPlugin { disabled, scope, memo }

/-! ## Scopes -/

/-- Lets a scope look at the files, and answers it as it is then. -/
def refresh (k : Nat) : LookM Scope := fun s =>
  match s.scopes[k]? with
  | none => (.ok .empty, s)
  | some scope =>
    match scope.refresh s.files with
    | .error error => (.error error, s)
    | .ok (scope, events) =>
      (.ok scope, { s with scopes := s.scopes.set k scope, journal := s.journal ++ events })

/-- The value of a property in a scope. -/
def lookup (k : Nat) (name : Text) : LookM (Option Text) := do
  return (← refresh k).get? name

/-- The version of a scope. -/
def version (k : Nat) : LookM Nat := do
  return (← refresh k).version

/-- Changes a scope. -/
def modifyScope (k : Nat) (change : Scope → Scope) : SessionM Unit :=
  modify fun s => { s with scopes := s.scopes.modify k change }

/-! ## Transforming -/

/-- Answers a question by means of a scope.  `trace` tells what happens on the way; a scope that is
never asked does not look at the files. -/
def consult {α : Type} (k : Nat) (result : Lookup → α) (trace : Lookup → List Moment) :
    LookM α := fun s =>
  let scope := s.scopes[k]?.getD .empty
  match scope.refresh s.files with
  | .ok (current, atFirstQuestion) =>
    let moments := trace current.get?
    let events := Trace.events atFirstQuestion moments
    let scopes := if Trace.asks moments then s.scopes.set k current else s.scopes
    (.ok (result current.get?), { s with scopes, journal := s.journal ++ events })
  | .error error =>
    let moments := trace scope.get?
    let events := Trace.events [] (Trace.beforeQuestion moments)
    (if Trace.asks moments then .error error else .ok (result scope.get?),
      { s with journal := s.journal ++ events })

/-- Transforms a block under a scope. -/
def transform : Transformer := fun k content =>
  consult k (Block.transform content) (Block.trace content)

/-- Counts the runs of a transformer for a memo. -/
def counting (j : Nat) (transformer : Transformer) : Transformer := fun k content => do
  modify fun s => { s with runs := s.runs ++ [(j, content)] }
  transformer k content

/-- The fallback of a declaration under a scope. -/
def declarationFallback (k : Nat) (declaration : Text) : LookM (Option Text) :=
  consult k (Declaration.fallback? declaration) (Declaration.trace declaration)

/-- Changes a memo. -/
def modifyMemo (j : Nat) (change : Memo → Memo) : SessionM Unit :=
  modify fun s =>
    { s with memos := s.memos.modify j fun slot => { slot with memo := change slot.memo } }

/-- The memo of a number. -/
def memoSlot (j : Nat) : SessionM MemoSlot := do
  return (← get).memos[j]?.getD ⟨0, .empty⟩

/-- The key under which a memo keeps the result for a block at the moment. -/
def memoKey (slot : MemoSlot) (content : Text) : LookM MemoKey := do
  return ⟨content, ← version slot.scope⟩

/-- Keeps a result in a memo, and answers the one that is kept there: the first one wins. -/
def keepResult (j : Nat) (key : MemoKey) (result : Option Text) : SessionM (Option Text) := do
  modifyMemo j (·.store key result)
  return ((← memoSlot j).memo.find? key).getD result

/-- Transforms the block of a key that a memo has no result for. -/
def fetchAnew (transformer : Transformer) (j : Nat) (slot : MemoSlot) (key : MemoKey) :
    LookM (Option Text) := do
  modifyMemo j (·.countMiss)
  note [.memoMiss slot.memo.size]
  let result ← transformer slot.scope key.content
  keepResult j key result

/-- Transforms a block under the scope of a memo, unless the memo has the result already. -/
def fetch (transformer : Transformer) (j : Nat) (content : Text) : LookM (Option Text) := do
  let slot ← memoSlot j
  let key ← memoKey slot content
  match slot.memo.find? key with
  | some result =>
    modifyMemo j (·.countHit)
    return result
  | none => fetchAnew transformer j slot key

/-- Has a memo the result for a block as the scope is now? -/
def holds (j : Nat) (content : Text) : LookM Bool := do
  let slot ← memoSlot j
  let key ← memoKey slot content
  return slot.memo.contains key

/-- Reports a phase to a plugin. -/
def call (p : Nat) (phase : Int) (content : Text) (selectors : List Text) :
    LookM (Option Text) := do
  match (← get).plugins[p]? with
  | none => return none
  | some plugin =>
    if plugin.accepts phase selectors then
      match plugin.memo with
      | some memo => fetch transform memo content
      | none => transform plugin.scope content
    else return none

/-- Asks a plugin about a rule of a sheet. -/
def reply (p : Nat) (c : Call) : LookM (Option Text) :=
  call p Phase.selectorBlock.code c.content c.selectors

/-- Rewrites a sheet with a plugin, adding to a report. -/
def rewrite (p : Nat) (sheet : Text) (report : Report) : LookM (Text × Report) := do
  let (output, report) ← Sheet.rewrite (reply p) sheet report
  note [.rewrote report.rulesTransformed report.rulesSeen]
  return (output, report)

/-- What a report tells of the rules of a sheet when the plugin fails to reply to one of them: the
ones before it are counted with the replies to them, and it was seen. -/
def interrupted (p : Nat) (sheet : Text) : List Rule → Report → Session → Report
  | [], report, _ => report
  | rule :: rules, report, s =>
    match reply p (Sheet.callOf sheet rule) s with
    | (.ok answer, later) => interrupted p sheet rules (report.count rule answer) later
    | (.error _, _) => report.count rule none

end Session
end CustomProps
