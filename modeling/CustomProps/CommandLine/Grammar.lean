import CustomProps.Text.Digit
import CustomProps.Text.Quoted

/-!
# Grammars of command lines

A command takes options, in any order, and one positional argument, which is either a single text or
a subcommand with everything that follows it.  This file reads the arguments by such a grammar.

* A long option may be shortened as long as it stays unambiguous, and its value may follow an equals
  sign or be the next argument.
* Short options without values may be written together.
* An argument that starts with a hyphen is no option when it is a hyphen alone, looks like a
  negative number, or holds a space, unless it can be read as an option of the grammar.
* Everything behind the argument `--` is positional.

Arguments that fit nowhere are collected, so that whoever reads the whole line can refuse them.
-/

set_option autoImplicit false

namespace CustomProps
namespace CommandLine

/-- An option of a command. -/
structure OptionSpec where
  /-- The short and long names, hyphens included. -/
  names : List Text
  takesValue : Bool
  /-- Does the option ask for help, so that the rest of the line does not matter? -/
  asksForHelp : Bool
deriving DecidableEq, Repr

/-- All names of an option, as a message shows them. -/
def OptionSpec.label (spec : OptionSpec) : String :=
  "/".intercalate (spec.names.map String.ofList)

/-- What a command takes. -/
structure Grammar where
  options : List OptionSpec
  /-- The name of the positional argument. -/
  positional : Text
  /-- Does the positional argument take everything that follows it? -/
  takesRest : Bool
deriving DecidableEq, Repr

/-- Why a command line is refused. -/
inductive UsageError where
  | ambiguous (argument : Text) (candidates : List Text)
  /-- An option that takes no value was given one. -/
  | ignoredValue (spec : OptionSpec) (value : Text)
  /-- An option that takes a value was given none. -/
  | missingValue (spec : OptionSpec)
  /-- The subcommand does not exist. -/
  | invalidChoice (positional choice : Text) (choices : List Text)
  /-- The positional argument is missing. -/
  | missingPositional (positional : Text)
  | unrecognized (arguments : List Text)
deriving DecidableEq, Repr

/-- Texts, one after the other, with a separator between them. -/
def listed (separator : String) (texts : List Text) : String :=
  separator.intercalate (texts.map String.ofList)

/-- What is wrong with a command line. -/
def UsageError.message : UsageError → String
  | ambiguous argument candidates =>
    "ambiguous option: " ++ String.ofList argument ++ " could match " ++ listed ", " candidates
  | ignoredValue spec value =>
    "argument " ++ spec.label ++ ": ignored explicit argument " ++ String.ofList value.quoted
  | missingValue spec => "argument " ++ spec.label ++ ": expected one argument"
  | invalidChoice positional choice choices =>
    "argument " ++ String.ofList positional ++ ": invalid choice: " ++
      String.ofList choice.quoted ++ " (choose from " ++
      listed ", " (choices.map (·.quoted)) ++ ")"
  | missingPositional positional =>
    "the following arguments are required: " ++ String.ofList positional
  | unrecognized arguments => "unrecognized arguments: " ++ listed " " arguments

/-! ## Reading one argument -/

/-- A value that is part of the argument of its option. -/
structure Attached where
  value : Text
  /-- Was it attached by an equals sign? -/
  byEquals : Bool
deriving DecidableEq, Repr

/-- How an argument can be read. -/
inductive Reading where
  | plain
  /-- The argument `--`. -/
  | separator
  | option (spec : OptionSpec) (name : Text) (attached : Option Attached)
  /-- It looks like an option, but there is none like it. -/
  | unknown
deriving DecidableEq, Repr

/-- The argument behind which everything is positional. -/
def separatorText : Text := ['-', '-']

namespace Grammar

/-- The names of all options, each with its option, in order. -/
def named (grammar : Grammar) : List (Text × OptionSpec) :=
  grammar.options.flatMap fun spec => spec.names.map (·, spec)

/-- The option of a name. -/
def find? (grammar : Grammar) (name : Text) : Option OptionSpec := grammar.named.lookup name

/-- The part of an argument before its first equals sign, and the part behind it. -/
def splitEquals (argument : Text) : Text × Option Attached :=
  let name := argument.takeWhile (· != '=')
  match argument.dropWhile (· != '=') with
  | [] => (name, none)
  | _ :: value => (name, some ⟨value, true⟩)

/-- The ways to read an argument that is no name of an option: as the beginning of a long name, or
as a short name with something behind it. -/
def candidates (grammar : Grammar) (argument : Text) :
    List (OptionSpec × Text × Option Attached) :=
  if separatorText.isPrefixOf argument then
    let (start, attached) := splitEquals argument
    grammar.named.filterMap fun (name, spec) =>
      if start.isPrefixOf name then some (spec, name, attached) else none
  else
    grammar.named.filterMap fun (name, spec) =>
      if name = argument.take 2 then some (spec, name, some ⟨argument.drop 2, false⟩)
      else if argument.isPrefixOf name then some (spec, name, none)
      else none

/-- Does the argument look like a negative number, perhaps with a line end behind it? -/
def isNegativeNumber (argument : Text) : Bool :=
  match argument with
  | '-' :: digits =>
    let digits := if digits.getLast? = some '\n' then digits.dropLast else digits
    match digits.dropWhile Text.isDecimalDigit with
    | [] => !digits.isEmpty
    | '.' :: fraction => !fraction.isEmpty && fraction.all Text.isDecimalDigit
    | _ => false
  | _ => false

/-- Reads an argument that starts with a hyphen and is neither a hyphen alone nor the separator. -/
def readHyphened (grammar : Grammar) (argument : Text) : Except UsageError Reading :=
  let (start, attached) := splitEquals argument
  match grammar.find? argument, attached.bind fun _ => grammar.find? start with
  | some spec, _ => .ok (.option spec argument none)
  | none, some spec => .ok (.option spec start attached)
  | none, none =>
    match grammar.candidates argument with
    | [(spec, name, attached)] => .ok (.option spec name attached)
    | [] =>
      if isNegativeNumber argument || argument.contains ' ' then .ok .plain else .ok .unknown
    | several => .error (.ambiguous argument (several.map fun (_, name, _) => name))

/-- Reads an argument. -/
def read (grammar : Grammar) (argument : Text) : Except UsageError Reading :=
  if argument.head? = some '-' ∧ argument ≠ ['-'] then grammar.readHyphened argument
  else .ok .plain

/-- Reads all arguments. -/
def readAll (grammar : Grammar) : List Text → Except UsageError (List (Text × Reading))
  | [] => .ok []
  | argument :: rest =>
    if argument = separatorText then .ok ((argument, .separator) :: rest.map (·, .plain))
    else do
      let reading ← grammar.read argument
      return (argument, reading) :: (← grammar.readAll rest)

end Grammar

/-! ## Reading a command line -/

/-- An option that was given, with its value if it takes one. -/
structure Given where
  spec : OptionSpec
  value : Text
deriving DecidableEq, Repr

/-- What the arguments were found to be. -/
structure Parsed where
  given : List Given
  /-- The positional argument, and all that follows it if it takes everything. -/
  positional : Option (List Text)
  /-- The arguments that fit nowhere. -/
  extras : List Text
deriving DecidableEq, Repr

namespace Parsed

/-- Nothing was found. -/
def empty : Parsed := ⟨[], none, []⟩

/-- Adds an option. -/
def give (parsed : Parsed) (spec : OptionSpec) (value : Text) : Parsed :=
  { parsed with given := parsed.given ++ [⟨spec, value⟩] }

/-- Has help been asked for? -/
def wantsHelp (parsed : Parsed) : Bool := parsed.given.any (·.spec.asksForHelp)

/-- Adds an argument that fits nowhere. -/
def addExtra (parsed : Parsed) (argument : Text) : Parsed :=
  { parsed with extras := parsed.extras ++ [argument] }

end Parsed

namespace Grammar

/-- Takes an option with a text attached to it.  Behind a short option that takes no value the text
is read as more short options; the last of them is left to be taken if nothing is attached to
it. -/
def takeAttached (grammar : Grammar) (spec : OptionSpec) (name : Text) (byEquals : Bool)
    (parsed : Parsed) : (text : Text) → Except UsageError (Parsed × Option OptionSpec)
  | [] =>
    if spec.takesValue then .ok (parsed.give spec [], none)
    else .error (.ignoredValue spec [])
  | c :: cs =>
    if spec.takesValue then .ok (parsed.give spec (c :: cs), none)
    else if separatorText.isPrefixOf name || byEquals || c = '-' then
      .error (.ignoredValue spec (c :: cs))
    else
      let parsed := parsed.give spec []
      match grammar.find? ['-', c] with
      | none => .ok (parsed.addExtra ('-' :: c :: cs), none)
      | some next =>
        match cs with
        | [] => .ok (parsed, some next)
        | d :: ds =>
          if d = '=' then grammar.takeAttached next ['-', c] true parsed ds
          else grammar.takeAttached next ['-', c] false parsed (d :: ds)

/-- Takes the arguments in turn, up to a question for help. -/
def take (grammar : Grammar) (parsed : Parsed) : List (Text × Reading) →
    Except UsageError Parsed
  | [] => .ok parsed
  | (argument, .unknown) :: rest => grammar.take (parsed.addExtra argument) rest
  | (_, .option spec name attached) :: rest => do
    let (parsed, pending) ←
      match attached with
      | none => pure (parsed, some spec)
      | some attached => grammar.takeAttached spec name attached.byEquals parsed attached.value
    match pending with
    | none => if parsed.wantsHelp then .ok parsed else grammar.take parsed rest
    | some spec =>
      if spec.takesValue then
        match rest with
        | (value, .plain) :: rest => grammar.take (parsed.give spec value) rest
        | _ => .error (.missingValue spec)
      else
        let parsed := parsed.give spec []
        if parsed.wantsHelp then .ok parsed else grammar.take parsed rest
  | (argument, .plain) :: rest =>
    if parsed.positional.isSome then grammar.take (parsed.addExtra argument) rest
    else if grammar.takesRest then
      .ok { parsed with positional := some (argument :: rest.map Prod.fst) }
    else
      let parsed := { parsed with positional := some [argument] }
      match rest with
      | (_, .separator) :: rest => grammar.take parsed rest
      | rest => grammar.take parsed rest
  | (argument, .separator) :: rest =>
    if parsed.positional.isSome then grammar.take (parsed.addExtra argument) rest
    else
      match rest with
      | (value, .plain) :: rest =>
        if grammar.takesRest then
          .ok { parsed with positional := some (argument :: value :: rest.map Prod.fst) }
        else grammar.take { parsed with positional := some [value] } rest
      | rest => grammar.take (parsed.addExtra argument) rest

/-- Reads the arguments of a command. -/
def parse (grammar : Grammar) (arguments : List Text) : Except UsageError Parsed := do
  let readings ← grammar.readAll arguments
  grammar.take .empty readings

end Grammar
end CommandLine
end CustomProps
