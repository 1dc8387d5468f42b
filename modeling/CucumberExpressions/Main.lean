import CucumberExpressions.Program

/-!
# The command line program

Reads the files that the words of the command line ask for, runs the program on them, and writes
what it gives.
-/

namespace CucumberExpressions.Program

/-- Why a file cannot be read. -/
def readingFailure : IO.Error → PathError
  | .inappropriateType _ code _ => if code = 21 then .isDirectory else .notDirectory
  | .invalidArgument .. => .nameTooLong
  | .permissionDenied .. => .permissionDenied
  | _ => .notFound

/-- The content of the file at a path. -/
def readPath (path : String) : IO (String × Except PathError ByteArray) := do
  try
    return (path, .ok (← IO.FS.readBinFile (normalizePath path)))
  catch failure =>
    return (path, .error (readingFailure failure))

/-- The exit status of a run. -/
def exitStatus : Ending → UInt32
  | .exit status => status.toUInt32
  | .status status => status.toUInt32
  | .fault _ => 1

end CucumberExpressions.Program

open CucumberExpressions in
/-- Runs the program on the words of the command line. -/
def main (words : List String) : IO UInt32 := do
  let contents ← (Program.pathsRead words).mapM Program.readPath
  let view : FileView := fun path => (contents.lookup path).getD (.error .notFound)
  let result := Program.run view words
  IO.print result.output
  IO.eprint result.errorOutput
  if let .fault _ := result.ending then
    IO.eprintln "cukexp: a file or a setting cannot be handled"
  return Program.exitStatus result.ending
