import CustomProps.Proofs.Scope.RootSheet
import CustomProps.Proofs.Session.Reply

/-!
# A sheet that is read lazily cannot be told from one that is read every time

While a file is written, deleted, replaced by a directory and so on, somebody asks the sheet scope
over it for values and for its version.  The answers are those of a reader who keeps no state about
the file but reads it at every question.  At a path that never reaches the system there is nothing
to read, and every question raises the error.

* `SheetStep` — what can be done to the files, and asked.
* `SheetStep.answersAnew` — the answers of the reader who reads the file at every question.
* `SheetStep.refused` — the answers where nobody can look.
* `Session.answers_sheet` — they are the answers of the scope.
-/

set_option autoImplicit false

namespace CustomProps

/-- A change of the files, or a question to the scope over a sheet. -/
inductive SheetStep where
  | write (place : Path) (entry : Int → Entry) (time : Option Int)
  | delete (place : Path)
  | lookup (name : Text)
  | version

/-- What a reader has seen so far: the properties at the last look, and how often a look found
others than the one before. -/
structure Observer where
  properties : Properties
  changes : Nat

namespace Observer

/-- Who has not looked yet knows of no properties. -/
def fresh : Observer := ⟨.empty, 0⟩

/-- The observer after a look that finds these properties. -/
def look (observer : Observer) (now : Properties) : Observer where
  properties := now
  changes := if now = observer.properties then observer.changes else observer.changes + 1

end Observer

namespace SheetStep

/-- The step in a session in which the sheet is the scope of the given number. -/
def toStep (scope : Nat) : SheetStep → Step
  | write place entry time => .write place entry time
  | delete place => .delete place
  | lookup name => .lookup scope name
  | version => .version scope

/-- The files after the step; questions leave them as they are. -/
def change : SheetStep → FileSystem → FileSystem
  | write place entry time, files => files.install place entry time
  | delete place, files => files.remove place
  | lookup _, files | version, files => files

/-- The files at the start and after each of the steps. -/
def filesAlong (files : FileSystem) : List SheetStep → List FileSystem
  | [] => [files]
  | step :: steps => files :: filesAlong (step.change files) steps

/-- The answers to the steps, if the file at `path` is read anew at each question. -/
def answersAnew (path : Path) (files : FileSystem) (observer : Observer) :
    List SheetStep → List Answer
  | [] => []
  | write place entry time :: steps =>
    .nothing :: answersAnew path (files.install place entry time) observer steps
  | delete place :: steps => .nothing :: answersAnew path (files.remove place) observer steps
  | lookup name :: steps =>
    let now := files.rootPropertiesAt path
    .text (now.get? name) :: answersAnew path files (observer.look now) steps
  | version :: steps =>
    let observer := observer.look (files.rootPropertiesAt path)
    .number observer.changes :: answersAnew path files observer steps

/-- The answer to a step where nobody can look at the file. -/
def refused (error : FileError) : SheetStep → Answer
  | write _ _ _ | delete _ => .nothing
  | lookup _ | version => .raised error

end SheetStep

namespace RootSheet

/-- The sheet knows as much as the observer, and had a look at one of the given file systems, if at
any. -/
structure Follows (sheet : RootSheet) (path : Path) (observer : Observer)
    (seen : List FileSystem) : Prop where
  path_eq : sheet.path = path
  properties : sheet.properties = observer.properties
  version : sheet.version = observer.changes
  isUpToDate : sheet.IsUpToDate seen

theorem follows_ofPath (path : Path) (seen : List FileSystem) :
    (ofPath path).Follows path .fresh seen :=
  ⟨rfl, rfl, rfl, isUpToDate_ofPath path seen⟩

/-- A look at the file keeps the sheet in step with the observer. -/
theorem Follows.looked {sheet : RootSheet} {path : Path} {observer : Observer}
    {seen : List FileSystem} (h : sheet.Follows path observer seen) (hpath : path.refusal? = none)
    {files : FileSystem} (hfiles : files ∈ seen)
    (htells : ∀ earlier ∈ seen, earlier.Tells files path) :
    (sheet.looked files).Follows path (observer.look (files.rootPropertiesAt path)) seen := by
  obtain ⟨rfl, hproperties, hversion, hupToDate⟩ := h
  have hlooked := looked_eq hupToDate hpath htells
  refine ⟨path_looked files sheet, ?_, ?_, hupToDate.looked hfiles htells⟩
  · rw [hlooked]
    rfl
  · rw [hlooked, Observer.look, ← hproperties, ← hversion]

end RootSheet

namespace Session

variable {s : Session} {k : Nat} {sheet : RootSheet}

theorem refresh_sheet (h : s.scopes[k]? = some (.sheet sheet)) :
    (refresh k s).2.files = s.files ∧
      (refresh k s).2.scopes[k]? = some (.sheet (sheet.looked s.files)) := by
  obtain ⟨hlt, -⟩ := List.getElem?_eq_some_iff.1 h
  obtain ⟨journal, hlater⟩ := refresh_eq k s
  rw [hlater, scopeNow_eq h]
  exact ⟨rfl, List.getElem?_set_self hlt⟩

theorem perform_lookup (k : Nat) (name : Text) (s : Session) :
    perform (.lookup k name) s = (match settle (s.refusal? k) (s.answers k name) with
      | .ok answer => .text answer
      | .error error => .raised error, (refresh k s).2) := by
  have hact : act (.lookup k name) s = _ := map_apply Answer.text (lookup k name) s
  rw [perform_eq, hact, lookup_eq, map_settle]
  cases s.refusal? k <;> rfl

theorem perform_version (k : Nat) (s : Session) :
    perform (.version k) s = (match settle (s.refusal? k) (s.scopeNow k).version with
      | .ok n => .number n
      | .error error => .raised error, (refresh k s).2) := by
  have hact : act (.version k) s = _ := map_apply Answer.number (version k) s
  rw [perform_eq, hact, version_eq, map_settle]
  cases s.refusal? k <;> rfl

/-- By induction on the steps: the sheet stays in step with the observer. -/
theorem performAll_sheet {path : Path} {observer : Observer} {seen : List FileSystem}
    (hpath : path.refusal? = none)
    (htells : ∀ earlier ∈ seen, ∀ later ∈ seen, earlier.Tells later path) (steps : List SheetStep)
    (hs : s.scopes[k]? = some (.sheet sheet)) (hfollows : sheet.Follows path observer seen)
    (hseen : SheetStep.filesAlong s.files steps ⊆ seen) :
    (performAll (steps.map (·.toStep k)) s).1 =
      SheetStep.answersAnew path s.files observer steps := by
  induction steps generalizing s sheet observer with
  | nil => rfl
  | cons step steps ih =>
    obtain ⟨hnow, hlater⟩ := List.cons_subset.1 hseen
    have hlook := hfollows.looked hpath hnow fun earlier hearlier => htells earlier hearlier _ hnow
    have hrefusal : s.refusal? k = none :=
      (refusal?_eq hs).trans ((congrArg Path.refusal? hfollows.path_eq).trans hpath)
    obtain ⟨hfiles, hscopes⟩ := refresh_sheet hs
    rw [List.map_cons, performAll_cons]
    cases step with
    | write place entry time =>
      have hrest := @ih { s with files := s.files.install place entry time } sheet observer hs
        hfollows hlater
      exact congrArg (Answer.nothing :: ·) hrest
    | delete place =>
      have hrest := @ih { s with files := s.files.remove place } sheet observer hs hfollows hlater
      exact congrArg (Answer.nothing :: ·) hrest
    | lookup name =>
      have hrest := ih hscopes hlook (by rw [hfiles]; exact hlater)
      rw [hfiles] at hrest
      rw [SheetStep.toStep, perform_lookup, hrefusal, answers, scopeNow_eq hs, Scope.looked,
        Scope.get?_sheet hlook.properties, hrest]
      rfl
    | version =>
      have hrest := ih hscopes hlook (by rw [hfiles]; exact hlater)
      rw [hfiles] at hrest
      have hversion : (Scope.sheet (sheet.looked s.files)).version = _ := hlook.version
      rw [SheetStep.toStep, perform_version, hrefusal, scopeNow_eq hs, Scope.looked, hversion,
        hrest]
      rfl

/-- By induction on the steps: a scope that nobody can look at raises the error at each question. -/
theorem performAll_refused {error : FileError} (steps : List SheetStep)
    (hrefusal : s.refusal? k = some error) :
    (performAll (steps.map (·.toStep k)) s).1 = steps.map (SheetStep.refused error) := by
  induction steps generalizing s with
  | nil => rfl
  | cons step steps ih =>
    have hrefused : (refresh k s).2.refusal? k = some error :=
      ((looked_refresh k s).refusal? k).trans hrefusal
    rw [List.map_cons, List.map_cons, performAll_cons]
    cases step with
    | write place entry time =>
      have hrest := @ih { s with files := s.files.install place entry time } hrefusal
      exact congrArg (Answer.nothing :: ·) hrest
    | delete place =>
      have hrest := @ih { s with files := s.files.remove place } hrefusal
      exact congrArg (Answer.nothing :: ·) hrest
    | lookup name =>
      rw [SheetStep.toStep, perform_lookup, hrefusal, ih hrefused]
      rfl
    | version =>
      rw [SheetStep.toStep, perform_version, hrefusal, ih hrefused]
      rfl

/-- **A sheet that is read lazily cannot be told from one that is read every time.**  Let any change
of what is at a path show in the time or the size.  However the files are changed between the
questions, a new scope over the path answers with the root properties that the file has at that
moment, none if there is no text to read.  Its version is the number of questions so far at which
they were not those of the question before, that is, gave some name another value.  Only a path that
never reaches the system, as one with a NUL, makes questions fail, and then all of them. -/
theorem answers_sheet (s : Session) (path : Path) (steps : List SheetStep)
    (htells : ∀ earlier ∈ SheetStep.filesAlong s.files steps,
      ∀ later ∈ SheetStep.filesAlong s.files steps, earlier.Tells later path) :
    let answers := (performAll (steps.map (·.toStep (addScope (.sheet (.ofPath path)) s).1))
      (addScope (.sheet (.ofPath path)) s).2).1
    (path.refusal? = none → answers = SheetStep.answersAnew path s.files .fresh steps) ∧
    (∀ error, path.refusal? = some error → answers = steps.map (SheetStep.refused error)) ∧
    ∀ files later : FileSystem, files.rootPropertiesAt path = later.rootPropertiesAt path ↔
      ∀ name, (files.rootPropertiesAt path).get? name =
        (later.rootPropertiesAt path).get? name := by
  intro answers
  have hscope : (addScope (.sheet (.ofPath path)) s).2.scopes[s.scopes.length]? =
      some (.sheet (.ofPath path)) := List.getElem?_concat_length
  refine ⟨fun hpath => ?_, fun error herror => ?_,
    fun files later => FileSystem.rootPropertiesAt_eq_iff⟩
  · exact performAll_sheet (s := (addScope (.sheet (.ofPath path)) s).2) hpath htells steps hscope
      (RootSheet.follows_ofPath path _) (List.Subset.refl _)
  · exact performAll_refused steps ((refusal?_eq hscope).trans herror)

/-- A file is written, replaced by a directory, by bytes that are no text, and by its old text, and
deleted: each look is answered by what is there. -/
theorem answers_sheet_replaced :
    let path := Path.ofText "a.css".toList
    let sheet := Entry.file (encodeText (":root".toList ++ Text.braced "--c:red"))
    let steps : List SheetStep := [.lookup "--c".toList, .write path sheet none, .version,
      .lookup "--c".toList, .write path .directory none, .lookup "--c".toList, .version,
      .write path (.file ⟨#[255]⟩) none, .version, .write path sheet (some 5), .lookup "--c".toList,
      .version, .delete path, .version]
    (∀ earlier ∈ SheetStep.filesAlong (.emptyAt 0) steps,
      ∀ later ∈ SheetStep.filesAlong (.emptyAt 0) steps, earlier.Tells later path) ∧
    path.refusal? = none ∧
    (performAll (steps.map (·.toStep 0))
        (addScope (.sheet (.ofPath path)) (ofFiles (.emptyAt 0))).2).1 =
      [.text none, .nothing, .number 1, .text (some "red".toList), .nothing, .text none, .number 2,
        .nothing, .number 2, .nothing, .text (some "red".toList), .number 3, .nothing,
        .number 4] := by
  intro path sheet steps
  have htells : ∀ earlier ∈ SheetStep.filesAlong (.emptyAt 0) steps,
      ∀ later ∈ SheetStep.filesAlong (.emptyAt 0) steps, earlier.Tells later path := by
    decide +kernel
  have hpath : path.refusal? = none := by decide
  exact ⟨htells, hpath, ((answers_sheet (ofFiles (.emptyAt 0)) path steps htells).1 hpath).trans
    (by decide +kernel)⟩

/-- Nobody can look at a file whose name holds a NUL. -/
example :
    (performAll [.lookup 0 "--c".toList, .version 0]
      (addScope (.sheet (.ofPath (.ofText ['\x00']))) (ofFiles (.emptyAt 0))).2).1 =
      [.raised .embeddedNul, .raised .embeddedNul] := by
  decide +kernel

end Session
end CustomProps
