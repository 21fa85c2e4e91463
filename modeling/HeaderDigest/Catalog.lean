import HeaderDigest.Files.Access
import HeaderDigest.Header.Survey

/-!
# Catalogs

The headers of one run, in the order of the inputs. A file that cannot be read is left out, and so
is one whose name is taken; the catalog remembers both. A header that is added takes its name; a
file that cannot be read does not.
-/

namespace HeaderDigest

structure SourceFile where
  path : Path
  contents : Except Fault ByteArray

inductive Skipped
  | unreadable (path : Path) (failure : Failure)
  | duplicate (path : Path) (filename : Text)
deriving Repr, DecidableEq

def Skipped.path : Skipped → Path
  | unreadable path _ => path
  | duplicate path _ => path

structure Catalog where
  headers : List Header := []
  /-- The names that are taken, as a set. -/
  filenames : List Text := []
  skipped : List Skipped := []
deriving Repr, DecidableEq

def SourceFile.header (file : SourceFile) (includePrivate : Bool) : Except Failure Header :=
  (decode file.path file.contents).map fun text =>
    Header.read text (Path.fileName file.path) file.path includePrivate

def SourceFile.events (file : SourceFile) (includePrivate : Bool) : List Event :=
  match decode file.path file.contents with
  | .ok text => Header.events text (Path.fileName file.path) includePrivate
  | .error _ => []

namespace Catalog

def takeName (catalog : Catalog) (filename : Text) : Bool × Catalog :=
  (!catalog.filenames.contains filename,
    { catalog with filenames := catalog.filenames.insert filename })

/-- Adds a header that comes from `path` if its name is free, and says whether it was. -/
def add (catalog : Catalog) (header : Header) (path : Path) : Bool × Catalog :=
  let (isFree, catalog) := catalog.takeName header.filename
  if isFree then (true, { catalog with headers := catalog.headers ++ [header] })
  else (false, { catalog with skipped := catalog.skipped ++ [.duplicate path header.filename] })

def addFile (catalog : Catalog) (file : SourceFile) (includePrivate : Bool) : Catalog :=
  match file.header includePrivate with
  | .ok header => (catalog.add header file.path).2
  | .error failure =>
    { catalog with skipped := catalog.skipped ++ [.unreadable file.path failure] }

def build (files : List SourceFile) (includePrivate : Bool) : Catalog :=
  files.foldl (fun catalog file => catalog.addFile file includePrivate) {}

def addEvents (catalog : Catalog) (includePrivate : Bool) : List SourceFile → List Event
  | [] => []
  | file :: rest =>
    let outcome :=
      match file.header includePrivate with
      | .ok header => if (catalog.add header file.path).1 then [] else [Event.duplicateFile]
      | .error _ => [Event.unreadableHeader]
    file.events includePrivate ++ outcome ++
      addEvents (catalog.addFile file includePrivate) includePrivate rest

def buildEvents (files : List SourceFile) (includePrivate : Bool) : List Event :=
  addEvents {} includePrivate files

end Catalog

end HeaderDigest
