import CustomProps.Reference.Resolution
import CustomProps.Scope.Mapping
import CustomProps.Scope.RootSheet

/-!
# Root scopes

A root scope answers the values of custom properties and has a version, a number that changes when
the answers may have changed.  There are four kinds:

* the empty scope;
* a mapping, which its owner changes property by property;
* plain answers, given as they are, whose version never changes;
* a sheet, which is a file read for the properties of its root rules.

Only a sheet depends on the files.  It takes a look at them when it is asked, so asking is a look,
`refresh`, followed by a question to the scope as it is then.  The look fails where the path of the
sheet never reaches the system.
-/

set_option autoImplicit false

namespace CustomProps

/-- A root scope. -/
inductive Scope where
  | empty
  | mapping (mapping : Mapping)
  /-- Answers handed on as they are. -/
  | answers (values : TextMap (Option Text))
  | sheet (sheet : RootSheet)
deriving DecidableEq, Repr

namespace Scope

/-- The scope after a look at the files, which only a sheet takes. -/
def refresh (files : FileSystem) : Scope → Except FileError (Scope × List Event)
  | sheet s => do
    let (s, events) ← s.refresh files
    return (sheet s, events)
  | scope => return (scope, [])

/-- The value of a property as the scope knows it now. -/
def get? : Scope → Lookup
  | empty, _ => none
  | mapping m, name => m.get? name
  | answers values, name => (values.get? name).join
  | sheet s, name => (s.properties.get? name).bind Text.nonBlank?

/-- The version of the scope as it is now. -/
def version : Scope → Nat
  | empty | answers _ => 0
  | mapping m => m.version
  | sheet s => s.version

/-- Changes a mapping; other scopes have nobody who could change them. -/
def modifyMapping (change : Mapping → Mapping) : Scope → Scope
  | mapping m => mapping (change m)
  | scope => scope

/-- Gives a property a value behind the back of the scope: the version stays. -/
def poke (name : Text) (value : PropertyValue) : Scope → Scope
  | mapping m => mapping { m with values := m.values.insert name value }
  | answers values => answers (values.insert name value.toText?)
  | scope => scope

/-- Takes a property away behind the back of the scope: the version stays. -/
def unpoke (name : Text) : Scope → Scope
  | mapping m => mapping { m with values := m.values.erase name }
  | answers values => answers (values.erase name)
  | scope => scope

end Scope
end CustomProps
