import HeaderDigest.Distinct
import HeaderDigest.Event
import HeaderDigest.Files.Pattern

/-!
# Input files

Each argument of a run stands for files: a file for itself, a directory for the headers right in
it, and anything else is a pattern and stands for the files it matches. A pattern that matches
nothing stays in the list as a path, so that the run reports it. The files come in the order of
the arguments, those of one directory or pattern sorted, and of the same path only the first
counts.
-/

namespace HeaderDigest

inductive Listing
  | file
  | directory (headers : List Path)
  | pattern (files : List Path)
deriving Repr, DecidableEq

namespace Listing

def paths (listing : Listing) (argument : Path) : List Path :=
  match listing with
  | file => [argument]
  | directory headers => Path.sort headers
  | pattern [] => [argument]
  | pattern files => Path.sort files

def collect (listings : List (Path × Listing)) : List Path :=
  firstOfEach Path.components (listings.flatMap fun (argument, listing) => listing.paths argument)

def events : Listing → List Event
  | pattern [] => [.noMatch]
  | _ => []

def find {m : Type → Type} [Monad m] (files : Files m) (argument : Path) :
    m (Except Failure Listing) := do
  if ← files.isFile argument then return .ok .file
  if ← files.isDirectory argument then
    match ← files.entries? argument with
    | none => return .error (.unlistable argument)
    | some names =>
      let headers := (names.filter Path.isHeaderName).map (Path.join argument)
      return .ok (.directory (← headers.filterM files.isFile))
  match ← Pattern.files? files argument with
  | none => return .error (.badPattern argument)
  | some matched => return .ok (.pattern matched)

/-- Finds out what the arguments are, up to the first that fails. -/
def findAll {m : Type → Type} [Monad m] (files : Files m) :
    List Path → m (List (Path × Listing) × Option Failure)
  | [] => return ([], none)
  | argument :: rest => do
    match ← find files argument with
    | .error failure => return ([], some failure)
    | .ok listing =>
      let (listings, failure?) ← findAll files rest
      return ((argument, listing) :: listings, failure?)

end Listing

end HeaderDigest
