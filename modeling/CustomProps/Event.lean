import CustomProps.Files.Path
import CustomProps.Text.Quoted

/-!
# Events

What happens on the way that somebody may want to know.  Each event has a level of importance, the
name of the part that reports it, and a message.  Whoever keeps a log decides what to show.
-/

set_option autoImplicit false

namespace CustomProps

/-- How important an event is. -/
inductive Level where
  | debug
  | info
  | warning
  | error
deriving DecidableEq, Repr

/-- The name of a level in a log. -/
def Level.label : Level → String
  | debug => "DEBUG"
  | info => "INFO"
  | warning => "WARNING"
  | error => "ERROR"

/-- Something worth reporting. -/
inductive Event where
  /-- The parentheses of a value do not balance. -/
  | unbalanced (value : Text) (opens closes : Nat)
  /-- A reference has neither a root value nor a fallback. -/
  | unresolved (name : Text)
  /-- A declaration with a reference has no fallback. -/
  | noFallback (declaration : Text)
  /-- A sheet of root properties is not there. -/
  | rootMissing (path : Path)
  /-- A sheet of root properties cannot be read. -/
  | rootUnreadable (path : Path)
  /-- A sheet of root properties was read. -/
  | rootLoaded (count : Nat) (path : Path)
  /-- The root properties of a sheet have changed. -/
  | rootChanged (count : Nat) (path : Path)
  /-- A block was not in the memo, which has so many entries. -/
  | memoMiss (entries : Nat)
  /-- A plugin will never transform anything. -/
  | pluginDisabled
  /-- A sheet was rewritten. -/
  | rewrote (transformed seen : Nat)
  /-- The environment asks for fallbacks in any case. -/
  | alwaysTransform
  /-- The sheet to transform is not there. -/
  | inputMissing (path : Path)
  /-- The file of options, as it was named, is not there. -/
  | configMissing (typed : Text)
  /-- The file of options, as it was named, holds no valid options. -/
  | configInvalid (typed : Text)
  /-- A line of the final account. -/
  | summaryLine (line : String)
  /-- The result is not written on purpose. -/
  | dryRun
  /-- The result was written. -/
  | wrote (path : Path)
  /-- The given declaration has no fallback. -/
  | noFallbackAvailable (declaration : Text)
deriving DecidableEq, Repr

/-- The name of the environment variable that asks for fallbacks in any case. -/
def alwaysVariable : String := "CSS_VAR_FALLBACK_ALWAYS"

namespace Event

/-- The importance of an event. -/
def level : Event → Level
  | unbalanced .. | unresolved _ | noFallback _ | rootChanged .. | memoMiss _ | pluginDisabled
  | rewrote .. | alwaysTransform => .debug
  | rootLoaded .. | summaryLine _ | dryRun | wrote _ | noFallbackAvailable _ => .info
  | rootMissing _ | rootUnreadable _ => .warning
  | inputMissing _ | configMissing _ | configInvalid _ => .error

/-- The part that reports an event. -/
def reporter : Event → String
  | unbalanced .. => "css_var_fallback.core.spans"
  | unresolved _ => "css_var_fallback.core.resolver"
  | noFallback _ => "css_var_fallback.core.transform"
  | rootMissing _ | rootUnreadable _ | rootChanged .. => "css_var_fallback.core.value_sources"
  | rootLoaded .. => "css_var_fallback.core.css_utils"
  | memoMiss _ => "css_var_fallback.core.cache"
  | pluginDisabled => "css_var_fallback.core.plugin"
  | rewrote .. => "css_var_fallback.core.stylesheet"
  | alwaysTransform => "css_var_fallback.core.config"
  | inputMissing _ | configMissing _ | configInvalid _ | summaryLine _ | dryRun | wrote _ =>
    "css_var_fallback.cli.commands.transform"
  | noFallbackAvailable _ => "css_var_fallback.cli.commands.declaration"

/-- What an event says. -/
def message : Event → String
  | unbalanced value opens closes =>
    let shown := String.ofList value.quoted
    s!"Unbalanced parentheses in {shown} ({opens} open, {closes} close)"
  | unresolved name =>
    "No root value or fallback for " ++ (if name.isEmpty then "<empty name>" else .ofList name)
  | noFallback declaration => "No fallback for declaration " ++ .ofList declaration.quoted
  | rootMissing path => "Root stylesheet not found: " ++ .ofList path.toText.shown
  | rootUnreadable path => "Failed to read root stylesheet " ++ .ofList path.toText.shown
  | rootLoaded count path =>
    let shown := String.ofList path.toText.shown
    s!"Loaded {count} root properties from {shown}"
  | rootChanged count path =>
    let shown := String.ofList path.toText.shown
    s!"Reloaded {count} root properties from {shown}"
  | memoMiss entries => s!"Transform cache miss ({entries} entries)"
  | pluginDisabled => "Native custom property support detected; plugin disabled"
  | rewrote transformed seen => s!"Rewrote {transformed} of {seen} rules"
  | alwaysTransform => s!"Using {alwaysVariable}: transforming regardless of native support"
  | inputMissing path => "Input stylesheet not found: " ++ .ofList path.toText.shown
  | configMissing typed => "Config file not found: " ++ .ofList typed
  | configInvalid typed => "Invalid config " ++ .ofList typed
  | summaryLine line => line
  | dryRun => "Dry run: nothing written"
  | wrote path => "Wrote " ++ .ofList path.toText.shown
  | noFallbackAvailable declaration => "No fallback available for " ++ .ofList declaration.quoted

/-- The line of a log. -/
def line (event : Event) : String :=
  event.level.label ++ " " ++ event.reporter ++ ": " ++ event.message

/-- Debugging events are shown only on demand, all others always. -/
def isShown (verbose : Bool) (event : Event) : Bool := verbose || event.level != .debug

end Event
end CustomProps
