import CustomProps.Files.Path
import CustomProps.Text.Lines

/-!
# File systems

A file system holds, for each place below the working directory, nothing, a file or a directory.
Paths are walked name by name, so `a/../b` needs a directory `a`.  Every failure is one of the
causes `FileError`.  There are no links, and nobody is kept from reading or writing.

The system knows names by their bytes.  It takes no path of more than 4095 bytes and no name of more
than 255, and a path with a zero character, or with a letter that no bytes write, never reaches it.

A file written without a given time takes the next tick of the clock, so that it can be told from
the one that was there.  Making a directory does not move the clock.
-/

set_option autoImplicit false

namespace CustomProps

/-- Why a file operation failed. -/
inductive FileError where
  /-- A name on the way, or the file itself, is not there. -/
  | notFound
  /-- A name on the way is a file. -/
  | notADirectory
  /-- The file is a directory. -/
  | isADirectory
  /-- A directory was to be made where a file is. -/
  | alreadyExists
  /-- The file does not hold UTF-8. -/
  | notUtf8
  /-- A name on the way, or the path as a whole, has more bytes than the system takes. -/
  | nameTooLong
  /-- The path holds a zero character. -/
  | embeddedNul
  /-- The path holds half of a surrogate pair that stands for no byte. -/
  | notEncodable
deriving DecidableEq, Repr

/-- What is said about a failure. -/
def FileError.message : FileError → String
  | notFound => "no such file or directory"
  | notADirectory => "not a directory"
  | isADirectory => "is a directory"
  | alreadyExists => "file exists"
  | notUtf8 => "not valid UTF-8"
  | nameTooLong => "file name too long"
  | embeddedNul => "embedded null byte"
  | notEncodable => "surrogates not allowed"

/-- Is the path refused before the system sees it? -/
def FileError.isRefusal : FileError → Bool
  | embeddedNul | notEncodable => true
  | _ => false

/-- What stands at a place, and when it was last written. -/
inductive Entry where
  | file (bytes : ByteArray) (modified : Int)
  | directory (modified : Int)

/-- Are two entries equal? -/
def Entry.same : Entry → Entry → Bool
  | .file bytes modified, .file bytes₂ modified₂ =>
    bytes.data == bytes₂.data && modified == modified₂
  | .directory modified, .directory modified₂ => modified == modified₂
  | _, _ => false

/-- What an observer sees of an entry without reading it: the time, and the size of a file. -/
structure Fingerprint where
  modified : Int
  size : Option Nat
deriving DecidableEq, Repr

/-- The fingerprint of an entry. -/
def Entry.fingerprint : Entry → Fingerprint
  | .file bytes modified => ⟨modified, some bytes.size⟩
  | .directory modified => ⟨modified, none⟩

/-! ## Names and places -/

/-- The name of a file, as the system knows it: its bytes. -/
abbrev FileName := List UInt8

namespace FileName

/-- The byte between names. -/
def slash : UInt8 := 0x2F

/-- The name of the directory above. -/
def above : FileName := [0x2E, 0x2E]

/-- The greatest size of a name. -/
def maxSize : Nat := 255

end FileName

/-- A place: the names that lead to it from the working directory.  Places above start with `..`, a
place from the root with a slash. -/
abbrev Location := List FileName

namespace Location

/-- The root of all places. -/
def root : Location := [[FileName.slash]]

/-- Is it the working directory, one above it, or the root?  These are always there. -/
def isFixed (loc : Location) : Bool := loc == root || loc.all (· == FileName.above)

/-- The place above. -/
def up (loc : Location) : Location :=
  if loc == root then root
  else if loc.all (· == FileName.above) then loc ++ [FileName.above]
  else loc.dropLast

/-- The place that a name leads to. -/
def next (loc : Location) (name : FileName) : Location :=
  if name = FileName.above then loc.up else loc ++ [name]

end Location

namespace Path

/-- The greatest size of a path. -/
def maxSize : Nat := 4095

/-- Why a path never reaches the system, if it does not. -/
def refusal? (path : Path) : Option FileError :=
  if path.names.flatten.any (·.bytes?.isNone) then some .notEncodable
  else if .char '\x00' ∈ path.names.flatten then some .embeddedNul
  else none

/-- The names of a path as the system knows them. -/
def fileNames (path : Path) : List FileName := path.names.map LooseText.bytes

/-- The place at which a path starts. -/
def origin (path : Path) : Location := if path.root.isEmpty then [] else Location.root

end Path

/-! ## Files -/

/-- Files and directories below the working directory, and the clock. -/
structure FileSystem where
  entries : List (Location × Entry)
  clock : Int

/-- Reads bytes as UTF-8 and every line end as LF. -/
def decodeText (bytes : ByteArray) : Option Text :=
  (String.fromUTF8? bytes).map fun s => Text.unifyLineEnds s.toList

/-- The UTF-8 of a text. -/
def encodeText (t : Text) : ByteArray := (String.ofList t).toUTF8

namespace FileSystem

/-- A second.  Times are counted in nanoseconds, and the clock ticks once a second. -/
def second : Int := 1000000000

/-- An empty working directory. -/
def emptyAt (clock : Int) : FileSystem := ⟨[], clock⟩

/-- What stands at a place. -/
def find? (fs : FileSystem) (loc : Location) : Option Entry :=
  if loc.isFixed then some (.directory 0) else fs.entries.lookup loc

/-- Walks the names of a path from a place.  Every place on the way has to be a directory; the last
may be anything or nothing. -/
def walk (fs : FileSystem) (loc : Location) : (names : List FileName) → Except FileError Location
  | [] => .ok loc
  | name :: names =>
    match fs.find? loc with
    | some (.directory _) =>
      if FileName.maxSize < name.length then .error .nameTooLong
      else fs.walk (loc.next name) names
    | some (.file _ _) => .error .notADirectory
    | none => .error .notFound

/-- The place that a path leads to. -/
def locate (fs : FileSystem) (path : Path) : Except FileError Location :=
  match path.refusal? with
  | some error => .error error
  | none =>
    if Path.maxSize < path.size then .error .nameTooLong
    else fs.walk path.origin path.fileNames

/-- What a path leads to. -/
def entryAt? (fs : FileSystem) (path : Path) : Option Entry :=
  match fs.locate path with
  | .ok loc => fs.find? loc
  | .error _ => none

/-- Looks at what a path leads to. -/
def stat (fs : FileSystem) (path : Path) : Except FileError Entry := do
  match fs.find? (← fs.locate path) with
  | some entry => .ok entry
  | none => .error .notFound

/-- Does a path lead to a file or a directory?  A path that is refused does not; about one that is
too long nothing can be said. -/
def pathExists (fs : FileSystem) (path : Path) : Except FileError Bool :=
  match fs.stat path with
  | .ok _ => .ok true
  | .error .nameTooLong => .error .nameTooLong
  | .error _ => .ok false

/-- The fingerprint of what a path leads to, `none` where the system sees nothing.  At a path that
never reaches the system nobody can look. -/
def fingerprintAt (fs : FileSystem) (path : Path) : Except FileError (Option Fingerprint) :=
  match fs.stat path with
  | .ok entry => .ok (some entry.fingerprint)
  | .error error => if error.isRefusal then .error error else .ok none

/-- The bytes of a file. -/
def readBytes (fs : FileSystem) (path : Path) : Except FileError ByteArray := do
  match fs.find? (← fs.locate path) with
  | some (.file bytes _) => .ok bytes
  | some (.directory _) => .error .isADirectory
  | none => .error .notFound

/-- The text of a file. -/
def readText (fs : FileSystem) (path : Path) : Except FileError Text := do
  match decodeText (← fs.readBytes path) with
  | some t => .ok t
  | none => .error .notUtf8

/-- Puts an entry at a place. -/
def put (fs : FileSystem) (loc : Location) (entry : Entry) : FileSystem :=
  { fs with entries := (loc, entry) :: fs.entries.filter (·.1 != loc) }

/-- Takes away what stands at a place and below it. -/
def erase (fs : FileSystem) (loc : Location) : FileSystem :=
  { fs with entries := fs.entries.filter fun e => !loc.isPrefixOf e.1 }

/-- The clock one tick later. -/
def tick (fs : FileSystem) : FileSystem := { fs with clock := fs.clock + second }

/-- Writes a file, in place of the one that was there. -/
def writeBytes (fs : FileSystem) (path : Path) (bytes : ByteArray) :
    Except FileError FileSystem := do
  let loc ← fs.locate path
  match fs.find? loc with
  | some (.directory _) => .error .isADirectory
  | _ => .ok (fs.tick.put loc (.file bytes fs.tick.clock))

/-- Makes one directory; one that is there already will do. -/
def makeDirectory (fs : FileSystem) (path : Path) : Except FileError FileSystem := do
  let loc ← fs.locate path
  match fs.find? loc with
  | some (.directory _) => .ok fs
  | some (.file _ _) => .error .alreadyExists
  | none => .ok (fs.put loc (.directory fs.clock))

/-- Makes the directory named by the first `count` names of a path and, where one on the way is
missing, those above it first.  Those that were made stay when a later one cannot be made. -/
def makeDirectoriesUpTo (fs : FileSystem) (path : Path) (count : Nat) :
    FileSystem × Except FileError Unit :=
  let shorter := { path with names := path.names.take count }
  match fs.makeDirectory shorter, count with
  | .ok fs, _ => (fs, .ok ())
  | .error .notFound, count + 1 =>
    match fs.makeDirectoriesUpTo path count with
    | (fs, .ok ()) =>
      match fs.makeDirectory shorter with
      | .ok fs => (fs, .ok ())
      | .error error => (fs, .error error)
    | failed => failed
  | .error error, _ => (fs, .error error)

/-- Makes a directory and all missing ones above it. -/
def makeDirectories (fs : FileSystem) (path : Path) : FileSystem × Except FileError Unit :=
  fs.makeDirectoriesUpTo path path.names.length

/-- The file system with a file or directory at a path, whatever was there; missing directories on
the way are made.  Without a time the entry takes the next tick of the clock. -/
def install (fs : FileSystem) (path : Path) (entry : Int → Entry) (time : Option Int) :
    FileSystem :=
  let fs := (fs.makeDirectories path.parent).1
  match fs.locate path with
  | .error _ => fs
  | .ok loc =>
    let cleared := fs.erase loc
    match time with
    | some time => cleared.put loc (entry time)
    | none => cleared.tick.put loc (entry cleared.tick.clock)

/-- The file system without what a path leads to. -/
def remove (fs : FileSystem) (path : Path) : FileSystem :=
  match fs.locate path with
  | .error _ => fs
  | .ok loc => fs.erase loc

/-- The files below the working directory with their bytes, by ascending paths. -/
def files (fs : FileSystem) : List (FileName × ByteArray) :=
  let inside := fs.entries.filterMap fun (loc, entry) =>
    match entry with
    | .file bytes _ =>
      if loc.head? = some FileName.above ∨ loc.head? = Location.root.head? then none
      else some (Text.joinWith FileName.slash loc, bytes)
    | .directory _ => none
  inside.mergeSort fun a b => !decide (b.1 < a.1)

/-- The entries that an earlier state of the file system does not have, the oldest first, with the
bytes of their paths. -/
def newEntries (fs earlier : FileSystem) : List (FileName × Entry) :=
  let fresh := fs.entries.reverse.filter fun (loc, entry) => !(earlier.find? loc).any entry.same
  fresh.map fun (loc, entry) => (Text.joinWith FileName.slash loc, entry)

theorem find?_put (fs : FileSystem) (loc other : Location) (entry : Entry)
    (h : loc.isFixed = false) :
    (fs.put loc entry).find? other = if other = loc then some entry else fs.find? other := by
  by_cases ho : other = loc
  · subst ho
    simp [find?, h, put]
  · simp only [find?, put, List.lookup_cons, beq_eq_false_iff_ne.2 ho, if_neg ho]
    congr 1
    induction fs.entries with
    | nil => rfl
    | cons e rest ih =>
      obtain ⟨place, what⟩ := e
      by_cases he : place = loc
      · subst he
        simp [List.lookup_cons, beq_eq_false_iff_ne.2 ho, ih]
      · simp [he, List.lookup_cons, ih]

end FileSystem
end CustomProps
