import CustomProps.CommandLine.Arguments
import CustomProps.Session.Basic

/-!
# Running the commands

A run depends on the arguments, on the environment and on the files.  It ends with a status, or with
a failure that nobody handles, and leaves the files as they are then.  Whatever it prints and
reports is part of its outcome.
-/

set_option autoImplicit false

namespace CustomProps
namespace CommandLine

/-- What may fail without anybody handling it. -/
inductive Failure where
  /-- A file could not be looked at, read or written. -/
  | file (error : FileError)
  /-- The file of options is too much for a reader of JSON. -/
  | json (error : JsonError)
deriving DecidableEq, Repr

/-- What is said about a failure. -/
def Failure.message : Failure → String
  | file error => error.message
  | json .notJson => "not JSON"
  | json .longInteger => "too many digits in an integer"
  | json .tooDeep => "arrays and objects nested too deep"

/-- How a run ends. -/
inductive Ending where
  | status (code : Nat)
  | uncaught (failure : Failure)
  /-- The command line was refused; the status is two then. -/
  | refused (refusal : Refusal)
deriving DecidableEq, Repr

/-- What comes of a run. -/
structure Outcome where
  ending : Ending
  printed : Text
  /-- All that happened, in order. -/
  journal : List Event
  files : FileSystem

namespace Outcome

/-- The run ends without printing anything or changing a file. -/
def ended (files : FileSystem) (ending : Ending) (journal : List Event) : Outcome :=
  ⟨ending, [], journal, files⟩

end Outcome

/-! ## The command `transform` -/

namespace TransformRequest

/-- The options, with what the command line adds.  Without a sheet for the root values the input
provides them itself. -/
def adjust (request : TransformRequest) (options : Options) : Options where
  skipSupported := options.skipSupported && !request.always
  useCache := options.useCache && !request.noCache
  rootStylesheet :=
    match request.root, options.rootStylesheet with
    | some root, _ => some root.loose
    | none, some (c :: cs) => some (c :: cs)
    | none, _ => some (Path.ofText request.input).toText

/-- Rewrites the text of a sheet in a fresh session. -/
def rewriteText (options : Options) (text : Text) : LookM (Text × Report) := do
  let plugin ← Session.addPlugin options none none
  Session.rewrite plugin text .empty

/-- Writes the result, after making the directories above it. -/
def writeResult (files : FileSystem) (out : Path) (text : Text) :
    FileSystem × Except FileError Unit :=
  match files.makeDirectories out.parent with
  | (files, .error error) => (files, .error error)
  | (files, .ok ()) =>
    match files.writeBytes out (encodeText text) with
    | .ok files => (files, .ok ())
    | .error error => (files, .error error)

/-- Hands out the result: nowhere, into a file, or to be printed. -/
def deliver (request : TransformRequest) (files : FileSystem) (text : Text)
    (journal : List Event) : Outcome :=
  if request.dryRun then .ended files (.status 0) (journal ++ [.dryRun])
  else
    match request.out with
    | none => ⟨.status 0, text, journal, files⟩
    | some out =>
      match writeResult files (.ofText out) text with
      | (files, .ok ()) => .ended files (.status 0) (journal ++ [.wrote (.ofText out)])
      | (files, .error error) => .ended files (.uncaught (.file error)) journal

/-- Rewrites the input with the given options. -/
def transformInput (request : TransformRequest) (files : FileSystem) (options : Options)
    (journal : List Event) : Outcome :=
  match files.readText (.ofText request.input) with
  | .error error => .ended files (.uncaught (.file error)) journal
  | .ok text =>
    match rewriteText options text (.ofFiles files) with
    | (.ok (result, report), session) =>
      let summary := report.summaryLines.map .summaryLine
      request.deliver session.files result (journal ++ session.journal ++ summary)
    | (.error error, session) =>
      .ended session.files (.uncaught (.file error)) (journal ++ session.journal)

/-- The outcome when there are no options.  A file that is not there and one that holds no options
are reported; every other fault in reading it is left to the caller. -/
def withoutOptions (files : FileSystem) (typed : Text) : OptionsError → Outcome
  | .unreadable .notFound => .ended files (.status 1) [.configMissing typed]
  | .unreadable error => .ended files (.uncaught (.file error)) []
  | .notRead .notJson | .invalid _ => .ended files (.status 1) [.configInvalid typed]
  | .notRead error => .ended files (.uncaught (.json error)) []

/-- Runs the command. -/
def run (request : TransformRequest) (environment : Environment) (files : FileSystem) : Outcome :=
  let input := Path.ofText request.input
  match files.pathExists input with
  | .error error => .ended files (.uncaught (.file error)) []
  | .ok false => .ended files (.status 1) [.inputMissing input]
  | .ok true =>
    match Options.load files (request.config.map Path.ofText) environment with
    | .error error => withoutOptions files (request.config.getD []) error
    | .ok (options, journal) =>
      request.transformInput files (request.adjust options) journal

end TransformRequest

/-! ## The command `declaration` -/

namespace DeclarationRequest

/-- The root scope: the named sheet, or an empty one. -/
def scope (request : DeclarationRequest) : Scope :=
  match request.root with
  | none => .empty
  | some root => .sheet (.ofPath (.ofText root))

/-- Runs the command. -/
def run (request : DeclarationRequest) (files : FileSystem) : Outcome :=
  let action : LookM (Option Text) := do
    let scope ← Session.addScope request.scope
    Session.declarationFallback scope request.declaration
  match action (.ofFiles files) with
  | (.ok (some text), session) => ⟨.status 0, text ++ ['\n'], session.journal, session.files⟩
  | (.ok none, session) =>
    .ended session.files (.status 1) (session.journal ++ [.noFallbackAvailable request.declaration])
  | (.error error, session) =>
    .ended session.files (.uncaught (.file error)) session.journal

end DeclarationRequest

/-! ## Runs -/

/-- The files that a command names. -/
def Command.paths : Command → List Path
  | .transform request =>
    (request.input :: request.out.toList ++ request.root.toList ++ request.config.toList).map
      Path.ofText
  | .declaration request => request.root.toList.map Path.ofText

/-- The sheet that the file of options of a command names, given the files named by the command. -/
def Command.furtherPaths (command : Command) (limits : JsonLimits) (files : FileSystem) :
    List Path :=
  match command with
  | .transform { config := some config, .. } =>
    match Options.read files (.ofText config) limits with
    | .ok options => options.rootStylesheet.toList.map Path.ofLoose
    | .error _ => []
  | _ => []

/-- Runs a command. -/
def Command.run (command : Command) (environment : Environment) (files : FileSystem) : Outcome :=
  match command with
  | .transform request => request.run environment files
  | .declaration request => request.run files

/-- The lines of a log that shows the events of a journal. -/
def logLines (verbose : Bool) (journal : List Event) : List Text :=
  (journal.filter (·.isShown verbose)).flatMap fun event => Text.lines event.line.toList

/-- What a run prints, the log it keeps, how it ends, and the files after it. -/
structure Run where
  ending : Ending
  printed : Text
  log : List Text
  files : FileSystem

/-- Runs the program. -/
def run (arguments : List Text) (environment : Environment) (files : FileSystem) : Run :=
  match readArguments arguments with
  | .error refusal => ⟨.refused refusal, [], [], files⟩
  | .ok .help => ⟨.status 0, helpText, [], files⟩
  | .ok (.command verbose command) =>
    let outcome := command.run environment files
    ⟨outcome.ending, outcome.printed, logLines verbose outcome.journal, outcome.files⟩

end CommandLine
end CustomProps
