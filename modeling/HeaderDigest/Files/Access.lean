import HeaderDigest.Failure

/-!
# Access to files

What a run needs of a file system, in any monad: the program itself uses the real one, and a tree
of files in memory serves as well.
-/

namespace HeaderDigest

structure Files (m : Type → Type) where
  read : Path → m (Except Fault ByteArray)
  isFile : Path → m Bool
  isDirectory : Path → m Bool
  entries? : Path → m (Option (List Text))
  /-- A directory and all directories below it that can be listed. -/
  directoriesFrom : Path → m (List Path)
  /-- Makes a directory and those above it; `false` if that fails. -/
  makeDirectories : Path → m Bool
  write : Path → Text → m Bool

def decode (path : Path) : Except Fault ByteArray → Except Failure Text
  | .error fault => .error (.unreadable path fault)
  | .ok contents =>
    match String.fromUTF8? contents with
    | some text => .ok text.toList
    | none => .error (.undecodable path)

end HeaderDigest
