import CustomProps.Event
import CustomProps.Files.FileSystem
import CustomProps.Json.Binary64
import CustomProps.Json.Reader

/-!
# Options

What can be chosen: whether to leave alone sheets for engines that know custom properties, whether
to keep a memo, and which sheet provides the root values.  Options are read from a JSON object in
which every member is optional.  All faults of an object are told: first those of the known members
in their own order, then the unknown members in the order of the file.

Truth values are read generously: numbers and words do as well.  A word with half of a surrogate
pair in it says nothing, and an unknown member whose name has one ends the check: this is the only
fault that is told then.
-/

set_option autoImplicit false

namespace CustomProps

/-- The choices. -/
structure Options where
  /-- Leave alone what runs in engines that know custom properties. -/
  skipSupported : Bool
  useCache : Bool
  /-- The sheet whose root rules provide the root values. -/
  rootStylesheet : Option LooseText
deriving DecidableEq, Repr

/-- The known members. -/
inductive OptionField where
  | skipSupported
  | useCache
  | rootStylesheet
deriving DecidableEq, Repr

/-- The name of a member. -/
def OptionField.key : OptionField → Text
  | skipSupported => "skip_supported_browsers".toList
  | useCache => "use_cache".toList
  | rootStylesheet => "root_stylesheet".toList

/-- The value of a member, if the object has it. -/
def OptionField.find? (field : OptionField) (members : List (LooseText × Json)) : Option Json :=
  members.lookup field.key.loose

/-- What is wrong with a description of options. -/
inductive OptionFault where
  /-- The value is no object. -/
  | notObject
  /-- The member is a number or a word, but not one for a truth value. -/
  | unclearBoolean (field : OptionField)
  /-- The member is nothing that could be a truth value. -/
  | notBoolean (field : OptionField)
  /-- The member is a word with half of a surrogate pair in it, and not one for a truth value. -/
  | brokenWord (field : OptionField)
  /-- The member is neither a text nor null. -/
  | notString (field : OptionField)
  /-- There is no such member. -/
  | unknownKey (key : Text)
  /-- There is no such member, and its name has half of a surrogate pair in it. -/
  | brokenKey
deriving DecidableEq, Repr

namespace OptionFault

/-- The short name of a fault. -/
def code : OptionFault → String
  | notObject => "model_type"
  | unclearBoolean _ => "bool_parsing"
  | notBoolean _ => "bool_type"
  | brokenWord _ | brokenKey => "string_unicode"
  | notString _ => "string_type"
  | unknownKey _ => "extra_forbidden"

/-- Where the fault is: nowhere in particular, or in one member. -/
def location : OptionFault → List Text
  | notObject | brokenKey => []
  | unclearBoolean field | notBoolean field | brokenWord field | notString field => [field.key]
  | unknownKey key => [key]

/-- What the fault is. -/
def message : OptionFault → String
  | notObject => "Input should be a valid dictionary or instance of PluginOptions"
  | unclearBoolean _ => "Input should be a valid boolean, unable to interpret input"
  | notBoolean _ => "Input should be a valid boolean"
  | brokenWord _ | brokenKey =>
    "Input should be a valid string, unable to parse raw data as a unicode string"
  | notString _ => "Input should be a valid string"
  | unknownKey _ => "Extra inputs are not permitted"

end OptionFault

/-! ## Truth values -/

/-- What a value says about truth. -/
inductive Truth where
  | clear (b : Bool)
  /-- A number or a word, but not one for a truth value. -/
  | unclear
  /-- A word with half of a surrogate pair in it. -/
  | broken
  /-- Nothing that could be a truth value. -/
  | other
deriving DecidableEq, Repr

namespace Truth

/-- The words for true. -/
def trueWords : List String := ["1", "on", "t", "true", "y", "yes"]

/-- The words for false. -/
def falseWords : List String := ["0", "off", "f", "false", "n", "no"]

/-- Is the text one of the words, whatever the case of its ASCII letters? -/
def isOneOf (words : List String) (t : Text) : Bool :=
  words.any fun word => word.toList == t.map Char.toLower

/-- One is true, zero is false, and other numbers are unclear. -/
def ofWhole (n : Int) : Truth :=
  if n = 1 then clear true else if n = 0 then clear false else unclear

/-- Numbers that a word of 64 bits cannot hold, and those with a fraction, say nothing. -/
def ofNumber : JsonNumber → Truth
  | .whole n => if -Binary64.wordLimit ≤ n ∧ n < Binary64.wordLimit then ofWhole n else other
  | .decimal mantissa exponent =>
    match Binary64.wholeOfDecimal? mantissa exponent with
    | some n => ofWhole n
    | none => other
  | .nan | .infinity _ => other

/-- What a word says about truth. -/
def ofWord (t : Text) : Truth :=
  if isOneOf trueWords t then clear true
  else if isOneOf falseWords t then clear false
  else unclear

/-- What a JSON value says about truth. -/
def ofJson : Json → Truth
  | .bool b => clear b
  | .number n => ofNumber n
  | .string t => t.strict?.elim broken ofWord
  | .null | .array _ | .object _ => other

end Truth

/-! ## Options from JSON -/

namespace Options

/-- The choices of somebody who chooses nothing. -/
def default : Options := ⟨true, true, none⟩

/-- The truth value of a member, or `default` where there is none. -/
def boolean (field : OptionField) (default : Bool) (members : List (LooseText × Json)) :
    Except OptionFault Bool :=
  match field.find? members with
  | none => .ok default
  | some value =>
    match Truth.ofJson value with
    | .clear b => .ok b
    | .unclear => .error (.unclearBoolean field)
    | .broken => .error (.brokenWord field)
    | .other => .error (.notBoolean field)

/-- The text of a member, or nothing where there is none or it is null. -/
def text? (field : OptionField) (members : List (LooseText × Json)) :
    Except OptionFault (Option LooseText) :=
  match field.find? members with
  | none | some .null => .ok none
  | some (.string t) => .ok (some t)
  | some _ => .error (.notString field)

/-- The known members, in the order in which their faults are told. -/
def fields : List OptionField := [.skipSupported, .useCache, .rootStylesheet]

/-- The names of the unknown members. -/
def unknownKeys (members : List (LooseText × Json)) : List LooseText :=
  (members.map Prod.fst).filter fun key => fields.all (·.key.loose != key)

/-- The fault of a member, if it has one. -/
def faults {α : Type} : Except OptionFault α → List OptionFault
  | .ok _ => []
  | .error fault => [fault]

/-- The options that the members of an object describe, or all their faults. -/
def ofMembers (members : List (LooseText × Json)) : Except (List OptionFault) Options :=
  let skip := boolean .skipSupported default.skipSupported members
  let cache := boolean .useCache default.useCache members
  let root := text? .rootStylesheet members
  match (unknownKeys members).mapM LooseText.strict? with
  | none => .error [.brokenKey]
  | some unknown =>
    match skip, cache, root, unknown with
    | .ok skip, .ok cache, .ok root, [] => .ok ⟨skip, cache, root⟩
    | skip, cache, root, unknown =>
      .error (faults skip ++ faults cache ++ faults root ++ unknown.map .unknownKey)

/-- The options that a JSON value describes, or all its faults. -/
def ofJson : Json → Except (List OptionFault) Options
  | .object members => ofMembers members
  | _ => .error [.notObject]

theorem ofMembers_nil : ofMembers [] = .ok default := rfl

end Options

/-! ## Options from a file -/

/-- What the surroundings of a run set. -/
structure Environment where
  /-- The value of the variable that asks for fallbacks in any case. -/
  setting : Option Text
  /-- How much JSON can be read. -/
  limits : JsonLimits
deriving DecidableEq, Repr

/-- Why there are no options. -/
inductive OptionsError where
  | unreadable (error : FileError)
  | notRead (error : JsonError)
  | invalid (faults : List OptionFault)
deriving DecidableEq, Repr

namespace Options

/-- The values of the environment variable that ask for fallbacks in any case. -/
def truthyWords : List String := ["1", "true", "True", "yes", "on"]

/-- Does the value of the environment variable ask for fallbacks in any case? -/
def isAlways (setting : Option Text) : Bool :=
  setting.any fun t => truthyWords.any (·.toList == t)

/-- The options in a file. -/
def read (files : FileSystem) (path : Path) (limits : JsonLimits) : Except OptionsError Options :=
  match files.readText path with
  | .error error => .error (.unreadable error)
  | .ok text =>
    match Json.ofText limits text with
    | .error error => .error (.notRead error)
    | .ok json => (ofJson json).mapError .invalid

/-- The options with what the environment adds, and what there is to report about it. -/
def adjust (options : Options) (setting : Option Text) : Options × List Event :=
  if isAlways setting then ({ options with skipSupported := false }, [.alwaysTransform])
  else (options, [])

/-- The options in a file, or the default ones, with what the environment adds. -/
def load (files : FileSystem) (path : Option Path) (environment : Environment) :
    Except OptionsError (Options × List Event) := do
  let options ←
    match path with
    | some path => read files path environment.limits
    | none => .ok default
  return options.adjust environment.setting

end Options
end CustomProps
