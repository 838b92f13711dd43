import SheetTypes.CommandLine

set_option autoImplicit false

namespace SheetTypes

/-- Why the machine does not give the text of a file. A NUL in a path has the code 22, and the
codes of the other faults of a path are negative. -/
def readErrorOf : IO.Error → ReadError
  | .noFileOrDirectory _ _ _ => .notFound
  | .noSuchThing _ _ _ => .notFound
  | .inappropriateType _ 21 _ => .isDirectory
  | .inappropriateType _ _ _ => .notDirectory
  | .invalidArgument _ 22 _ => .nulInName
  | .invalidArgument _ _ _ => .nameTooLong
  | .permissionDenied _ _ _ => .permissionDenied
  | .userError _ => .notText
  | error => .other (toString error)

def readFileText : FileReader IO := fun path => do
  try return .ok (← IO.FS.readFile path)
  catch error => return .error (readErrorOf error)

end SheetTypes

def main (arguments : List String) : IO UInt32 := do
  let directory ← IO.currentDir
  let result ← SheetTypes.CommandLine.run SheetTypes.readFileText (fun _ => .ok ())
    directory.toString arguments
  let report := SheetTypes.CommandLine.finish result
  IO.print report.output
  IO.eprint report.errors
  return report.exit.toUInt32
