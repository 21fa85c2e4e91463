import HeaderDigest.CommandLine.Run

/-!
# The program

The command line on the real file system. The program reads and writes single files; it does not
list directories, so of the arguments only names of files and patterns without wildcards are
found here, and a directory ends the run.
-/

namespace HeaderDigest.Program

def usage : String :=
  "Usage: hdrdoc [-o DIRECTORY] [-f json|markdown] [--include-private | --no-include-private]\n" ++
    "              [--config FILE] [-v | -q] [FILE ...]\n"

/-- System error codes come with either sign. -/
def hasCode (code : UInt32) (number : UInt32) : Bool := code == number || code == 0 - number

def faultOf : IO.Error → Fault
  | .noFileOrDirectory _ _ _ => .notFound
  | .inappropriateType _ code words =>
    if hasCode code 20 then .notDirectory
    else if hasCode code 21 then .isDirectory
    else .other words.toList
  | .invalidArgument _ code words =>
    if hasCode code 36 then .nameTooLong
    else if hasCode code 22 then .nulInName
    else .other words.toList
  | error => .other (toString error).toList

def read (path : Path) : IO (Except Fault ByteArray) := do
  match ← (IO.FS.readBinFile (String.ofList path)).toBaseIO with
  | .ok contents => return .ok contents
  | .error error => return .error (faultOf error)

def succeeds (action : IO Unit) : IO Bool := do
  match ← action.toBaseIO with
  | .ok _ => return true
  | .error _ => return false

def files : Files IO where
  read := read
  isFile path := return (← read path).toOption.isSome
  isDirectory path := do
    match ← read path with
    | .error .isDirectory => return true
    | _ => return false
  entries? _ := return none
  directoriesFrom _ := return []
  makeDirectories path := succeeds (IO.FS.createDirAll (String.ofList path))
  write path text := succeeds (IO.FS.writeFile (String.ofList path) (String.ofList text))

partial def readToEnd (stream : IO.FS.Stream) (before : ByteArray) : IO ByteArray := do
  let bytes ← stream.read 65536
  if bytes.isEmpty then return before else readToEnd stream (before ++ bytes)

def runArguments (arguments : Arguments) : IO UInt32 := do
  let directory := (toString (← IO.currentDir)).toList
  let input := do readToEnd (← IO.getStdin) ByteArray.empty
  let result ← Run.run files input directory arguments
  let threshold := Run.threshold arguments ((← IO.getEnv "HDRDOC_LOG").bind Level.threshold?)
  for event in result.events.filter fun event => event.passes threshold do
    IO.eprintln (event.level.label ++ " " ++ event.message)
  IO.print (String.ofList result.output)
  match result.failure? with
  | none => return 0
  | some failure =>
    IO.eprintln ("Error: " ++ String.ofList failure.message)
    return 1

end HeaderDigest.Program

def main (words : List String) : IO UInt32 := do
  match HeaderDigest.Arguments.read (words.map String.toList) with
  | .ok arguments => HeaderDigest.Program.runArguments arguments
  | .error .helpWanted =>
    IO.print HeaderDigest.Program.usage
    return 0
  | .error _ =>
    IO.eprint HeaderDigest.Program.usage
    return 2
