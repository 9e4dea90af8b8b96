import CustomProps.CommandLine.Run

/-!
# The program

Loads the files that a command line names, runs it on them, and carries out what came of it: prints,
logs to the standard error stream, and writes the new files.
-/

set_option autoImplicit false

namespace CustomProps
namespace CommandLine

/-- How much JSON the program reads. -/
def limits : JsonLimits := ⟨4300, 990⟩

/-- What is at a path on the disk: its bytes, or `none` for what cannot be read as a file.  Names
that are not UTF-8 cannot be looked up, so nothing is found there. -/
def probe (path : Path) : IO (Option (Int → Entry)) := do
  let some name := path.toText.strict? | return none
  try
    let bytes ← IO.FS.readBinFile (String.ofList name)
    return some (.file bytes)
  catch
    | .noFileOrDirectory .. => return none
    | _ => return some .directory

/-- Loads what is on the way to a path, and what is there, up to the first name that is missing. -/
def load (files : FileSystem) (path : Path) : IO FileSystem := do
  let mut files := files
  for count in List.range path.names.length do
    let shorter := { path with names := path.names.take (count + 1) }
    match ← probe shorter with
    | none => return files
    | some entry =>
      if (files.entryAt? shorter).isNone then files := files.install shorter entry none
  return files

/-- Loads the files that a command names, and the one that its options name. -/
def Command.load (command : Command) : IO FileSystem := do
  let files ← command.paths.foldlM CommandLine.load (.emptyAt 0)
  (command.furtherPaths limits files).foldlM CommandLine.load files

/-- Writes what is new. -/
def store (earlier files : FileSystem) : IO Unit :=
  for (path, entry) in files.newEntries earlier do
    let some name := String.fromUTF8? ⟨path.toArray⟩ | continue
    match entry with
    | .directory _ => IO.FS.createDirAll name
    | .file bytes _ => IO.FS.writeBinFile name bytes

/-- Says how the run ended, if it did not end well, and answers the exit status. -/
def Ending.report : Ending → IO UInt32
  | .status code => return code.toUInt32
  | .uncaught failure => do
    IO.eprintln failure.message
    return 1
  | .refused refusal => do
    IO.eprintln refusal.message
    return 2

end CommandLine
end CustomProps

open CustomProps CommandLine in
def main (arguments : List String) : IO UInt32 := do
  let arguments := arguments.map (·.toList)
  let setting := (← IO.getEnv alwaysVariable).map (·.toList)
  let files ←
    match readArguments arguments with
    | .ok (.command _ command) => command.load
    | _ => pure (.emptyAt 0)
  let run := CommandLine.run arguments ⟨setting, limits⟩ files
  for line in run.log do
    IO.eprintln (String.ofList line)
  IO.print (String.ofList run.printed)
  store files run.files
  run.ending.report
