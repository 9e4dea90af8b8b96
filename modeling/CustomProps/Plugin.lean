import CustomProps.Sheet.Rule

/-!
# Plugins of a compiler

A compiler of style sheets reports each phase of its work to a plugin.  A plugin transforms the
blocks of declarations, except those of root rules, and answers nothing in every other phase.  It
can be disabled for good when it is made.
-/

set_option autoImplicit false

namespace CustomProps

/-- The phases that a compiler reports. -/
inductive Phase where
  | postProcess
  | preparation
  | newline
  | property
  | selectorBlock
  | atRule
deriving DecidableEq, Repr

/-- The number under which a compiler reports a phase. -/
def Phase.code : Phase → Int
  | postProcess => -2
  | preparation => -1
  | newline => 0
  | property => 1
  | selectorBlock => 2
  | atRule => 3

/-- A plugin, with the numbers of its scope and, if it keeps one, of its memo. -/
structure Plugin where
  disabled : Bool
  scope : Nat
  memo : Option Nat
deriving DecidableEq, Repr

/-- Does the plugin transform the content it is called with? -/
def Plugin.accepts (plugin : Plugin) (phase : Int) (selectors : List Text) : Bool :=
  !plugin.disabled && phase == Phase.selectorBlock.code && !Sheet.hasRootSelector selectors

end CustomProps
