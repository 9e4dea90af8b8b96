import CustomProps.Event
import CustomProps.Files.FileSystem
import CustomProps.Sheet.RootProperties

/-!
# Sheets of root properties

A sheet that provides root values is a file, read lazily: it is looked at only when somebody asks
for a value or for the version, and read again only when its fingerprint differs from the one seen
last.  The version rises when the properties differ from those served before.  A file that is
missing or cannot be read has no properties.  A path that never reaches the system cannot be looked
at, so whoever asks then gets the error.
-/

set_option autoImplicit false

namespace CustomProps

/-- A sheet as it was last seen. -/
structure RootSheet where
  path : Path
  /-- The fingerprint seen last, `none` of a missing file, if the sheet was ever looked at. -/
  seen : Option (Option Fingerprint)
  properties : Properties
  version : Nat
deriving DecidableEq, Repr

namespace RootSheet

/-- A sheet nobody has looked at. -/
def ofPath (path : Path) : RootSheet := ⟨path, none, .empty, 0⟩

/-- The properties that a file has at the moment, and what there is to report about reading it. -/
def read (files : FileSystem) (path : Path) : Properties × Event :=
  match files.readText path with
  | .ok text =>
    let properties := Sheet.rootProperties text
    (properties, .rootLoaded properties.length path)
  | .error _ => (.empty, .rootUnreadable path)

/-- The properties behind a fingerprint that is seen at the moment, and what there is to report. -/
def propertiesBehind (files : FileSystem) (path : Path) : Option Fingerprint → Properties × Event
  | none => (.empty, .rootMissing path)
  | some _ => read files path

/-- The sheet after a look at its file. -/
def refresh (files : FileSystem) (sheet : RootSheet) :
    Except FileError (RootSheet × List Event) := do
  let fingerprint ← files.fingerprintAt sheet.path
  if sheet.seen = some fingerprint then return (sheet, [])
  let (properties, event) := propertiesBehind files sheet.path fingerprint
  if properties = sheet.properties then
    return ({ sheet with seen := some fingerprint }, [event])
  return ({ sheet with seen := some fingerprint, properties, version := sheet.version + 1 },
    [event, .rootChanged properties.length sheet.path])

end RootSheet

end CustomProps
