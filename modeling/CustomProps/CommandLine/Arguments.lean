import CustomProps.CommandLine.Grammar

/-!
# The command line

There are two commands.  `transform` rewrites a sheet; `declaration` prints the fallback of a single
declaration.  The option `-v` stands before the command, all others behind it.  A file that is named
by the empty text counts as not named.
-/

set_option autoImplicit false

namespace CustomProps
namespace CommandLine

/-! ## Grammars -/

/-- An option that takes a value. -/
def valueOption (name : String) : OptionSpec := ⟨[name.toList], true, false⟩

/-- An option that takes no value. -/
def flagOption (names : List String) : OptionSpec := ⟨names.map (·.toList), false, false⟩

/-- Shows the help text. -/
def helpOption : OptionSpec := ⟨["-h".toList, "--help".toList], false, true⟩

/-- Shows the debugging events too. -/
def verboseOption : OptionSpec := flagOption ["-v", "--verbose"]

/-- The file that takes the result. -/
def outOption : OptionSpec := valueOption "--out"

/-- The sheet that provides the root values. -/
def rootOption : OptionSpec := valueOption "--root"

/-- The file of options. -/
def configOption : OptionSpec := valueOption "--config"

/-- Transforms even for engines that know custom properties. -/
def alwaysOption : OptionSpec := flagOption ["--always"]

/-- Keeps no memo. -/
def noCacheOption : OptionSpec := flagOption ["--no-cache"]

/-- Writes and prints no result. -/
def dryRunOption : OptionSpec := flagOption ["--dry-run"]

/-- The name of the command that rewrites a sheet. -/
def transformName : Text := "transform".toList

/-- The name of the command that prints the fallback of a declaration. -/
def declarationName : Text := "declaration".toList

/-- The whole line: a subcommand with everything behind it. -/
def mainGrammar : Grammar := ⟨[helpOption, verboseOption], "command".toList, true⟩

/-- The arguments of `transform`. -/
def transformGrammar : Grammar where
  options :=
    [helpOption, outOption, rootOption, configOption, alwaysOption, noCacheOption, dryRunOption]
  positional := "input".toList
  takesRest := false

/-- The arguments of `declaration`. -/
def declarationGrammar : Grammar := ⟨[helpOption, rootOption], "declaration".toList, false⟩

/-! ## Commands -/

/-- What `transform` is asked to do. -/
structure TransformRequest where
  input : Text
  out : Option Text
  root : Option Text
  config : Option Text
  always : Bool
  noCache : Bool
  dryRun : Bool
deriving DecidableEq, Repr

/-- What `declaration` is asked to do. -/
structure DeclarationRequest where
  declaration : Text
  root : Option Text
deriving DecidableEq, Repr

/-- A command. -/
inductive Command where
  | transform (request : TransformRequest)
  | declaration (request : DeclarationRequest)
deriving DecidableEq, Repr

/-- What a command line asks for. -/
inductive Request where
  | help
  | command (verbose : Bool) (command : Command)
deriving DecidableEq, Repr

/-- A command line that is refused: by which program, and why. -/
structure Refusal where
  program : Text
  error : UsageError
deriving DecidableEq, Repr

/-- The name under which the program is called. -/
def programName : Text := "css-var-fallback".toList

/-- The name of the program together with a subcommand. -/
def subcommandName (name : Text) : Text := programName ++ ' ' :: name

/-- What is said about a refused command line. -/
def Refusal.message (refusal : Refusal) : String :=
  String.ofList refusal.program ++ ": error: " ++ refusal.error.message

namespace Parsed

/-- The last value given to an option, unless it is empty. -/
def value? (parsed : Parsed) (spec : OptionSpec) : Option Text :=
  match parsed.given.reverse.find? (·.spec == spec) with
  | none => none
  | some given => if given.value.isEmpty then none else some given.value

/-- Was the option given? -/
def has (parsed : Parsed) (spec : OptionSpec) : Bool := parsed.given.any (·.spec == spec)

end Parsed

/-- The arguments of one subcommand: the command, and what fits nowhere; nothing when help is asked
for. -/
abbrev SubcommandResult := Except UsageError (Option (Command × List Text))

/-- Reads the arguments of a subcommand by its grammar. -/
def readSubcommand (grammar : Grammar) (arguments : List Text)
    (command : Parsed → Text → Command) : SubcommandResult := do
  let parsed ← grammar.parse arguments
  if parsed.wantsHelp then return none
  match parsed.positional with
  | some (argument :: _) => return some (command parsed argument, parsed.extras)
  | _ => throw (.missingPositional grammar.positional)

/-- The request that the arguments of `transform` make. -/
def transformCommand (parsed : Parsed) (input : Text) : Command :=
  .transform
    { input
      out := parsed.value? outOption
      root := parsed.value? rootOption
      config := parsed.value? configOption
      always := parsed.has alwaysOption
      noCache := parsed.has noCacheOption
      dryRun := parsed.has dryRunOption }

/-- The request that the arguments of `declaration` make. -/
def declarationCommand (parsed : Parsed) (declaration : Text) : Command :=
  .declaration { declaration, root := parsed.value? rootOption }

/-- The subcommands, each with the way to read its arguments. -/
def subcommands : List (Text × (List Text → SubcommandResult)) :=
  [ (transformName, (readSubcommand transformGrammar · transformCommand)),
    (declarationName, (readSubcommand declarationGrammar · declarationCommand)) ]

/-- Attributes an error to a program. -/
def refuse {α : Type} (program : Text) : Except UsageError α → Except Refusal α
  | .ok a => .ok a
  | .error error => .error ⟨program, error⟩

/-- Reads a command line. -/
def readArguments (arguments : List Text) : Except Refusal Request := do
  let parsed ← refuse programName (mainGrammar.parse arguments)
  if parsed.wantsHelp then return .help
  match parsed.positional with
  | some (name :: rest) =>
    match subcommands.lookup name with
    | none =>
      throw ⟨programName, .invalidChoice mainGrammar.positional name (subcommands.map Prod.fst)⟩
    | some readRest =>
      match ← refuse (subcommandName name) (readRest rest) with
      | none => return .help
      | some (command, extras) =>
        match parsed.extras ++ extras with
        | [] => return .command (parsed.has verboseOption) command
        | extras => throw ⟨programName, .unrecognized extras⟩
  | _ => throw ⟨programName, .missingPositional mainGrammar.positional⟩

/-- The text shown to whoever asks for help. -/
def helpText : Text :=
  ("usage: css-var-fallback [-h] [-v] COMMAND ...\n\n" ++
    "Add literal fallbacks in front of CSS declarations that use var()\n\n" ++
    "transform [--out OUT] [--root ROOT] [--config CONFIG] [--always] [--no-cache]\n" ++
    "          [--dry-run] INPUT\n" ++
    "    Add fallback declarations to a stylesheet\n\n" ++
    "declaration [--root ROOT] DECLARATION\n" ++
    "    Print the fallback for a single declaration\n").toList

end CommandLine
end CustomProps
