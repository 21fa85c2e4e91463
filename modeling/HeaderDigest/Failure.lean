import HeaderDigest.Files.Path

/-!
# Failures

Why a file cannot be read, and why a run ends early or leaves a file out. The wording is in
`Fault.message` and `Failure.message` alone.
-/

namespace HeaderDigest

inductive Fault
  | notFound
  | notDirectory
  | isDirectory
  | nameTooLong
  | nulInName
  /-- The contents are wanted as text and are none. -/
  | notText
  | other (words : Text)
deriving Repr, DecidableEq

def Fault.message : Fault → Text
  | notFound => "No such file or directory (os error 2)".toList
  | notDirectory => "Not a directory (os error 20)".toList
  | isDirectory => "Is a directory (os error 21)".toList
  | nameTooLong => "File name too long (os error 36)".toList
  | nulInName => "file name contained an unexpected NUL byte".toList
  | notText => "stream did not contain valid UTF-8".toList
  | other words => words

inductive Failure
  | unreadable (path : Path) (fault : Fault)
  | undecodable (path : Path)
  | malformedSettings (path : Path)
  | unknownFormat (name : Text)
  | badPattern (pattern : Text)
  | unlistable (path : Path)
  | unreadableInput
  | noOutputDirectory (path : Path)
  | unwritable (path : Path)
deriving Repr, DecidableEq

def Failure.message : Failure → Text
  | unreadable path fault =>
    "failed to read ".toList ++ path ++ ": ".toList ++ fault.message
  | undecodable path => path ++ " is not valid UTF-8".toList
  | malformedSettings path => "invalid settings file ".toList ++ path
  | unknownFormat name =>
    "unknown format: ".toList ++ name ++ ". Use json or markdown".toList
  | badPattern pattern => "invalid glob pattern: ".toList ++ pattern
  | unlistable path => "failed to read directory: ".toList ++ path
  | unreadableInput => "failed to read stdin".toList
  | noOutputDirectory path => "failed to create output directory: ".toList ++ path
  | unwritable path => "failed to write ".toList ++ path

end HeaderDigest
