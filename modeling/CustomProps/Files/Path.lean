import CustomProps.Text.Loose
import CustomProps.Text.Split

/-!
# Paths

A path is a list of names with a slash between them.  Repeated slashes and the name `.` say nothing
and are dropped; the name `..` stays, since what it leads to is known to the file system alone.  A
path without names is the working directory.
-/

set_option autoImplicit false

namespace CustomProps

/-- A path in normal form. -/
structure Path where
  /-- Empty for a path from the working directory; else one slash, or the two of a path that starts
  with exactly two. -/
  root : LooseText
  names : List LooseText
deriving DecidableEq, Repr

namespace Path

/-- What stands between names. -/
def slash : Letter := .char '/'

/-- The name of the directory itself. -/
def here : LooseText := [.char '.']

/-- The root of a path, given its leading slashes. -/
def rootOf (slashes : LooseText) : LooseText :=
  if slashes.length ≤ 2 then slashes else [slash]

/-- Reads a path. -/
def ofLoose (t : LooseText) : Path where
  root := rootOf (t.takeWhile (· == slash))
  names := (Text.splitOn slash t).filter fun name => !name.isEmpty && name != here

/-- Reads a path without halves of surrogate pairs. -/
def ofText (t : Text) : Path := ofLoose t.loose

/-- The normal form of a path as a text. -/
def toText (path : Path) : LooseText :=
  if path.root.isEmpty && path.names.isEmpty then here
  else path.root ++ Text.joinWith slash path.names

/-- The path without its last name. -/
def parent (path : Path) : Path := { path with names := path.names.dropLast }

/-- The number of bytes of a path, with the slashes between its names. -/
def size (path : Path) : Nat :=
  path.root.length + (LooseText.bytes path.names.flatten).length + (path.names.length - 1)

theorem slash_not_mem_names {t name : LooseText} (h : name ∈ (ofLoose t).names) : slash ∉ name :=
  Text.not_mem_of_mem_splitOn (List.mem_filter.1 h).1

end Path
end CustomProps
