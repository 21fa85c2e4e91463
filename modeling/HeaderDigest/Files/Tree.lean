import HeaderDigest.Files.Access

/-!
# Trees of files

A file system in memory. A place is the list of names that lead to it from the root; the root is
always there. A path is walked piece by piece, and every place on the way has to be a directory,
also before a slash at the end.
-/

namespace HeaderDigest

open Text

inductive Entry
  | file (contents : ByteArray)
  | directory

structure Tree where
  /-- What is at each place. Of two entries for a place the first counts. -/
  entries : List (List Text × Entry) := []

namespace Tree

def entry? (tree : Tree) (place : List Text) : Option Entry :=
  if place.isEmpty then some .directory else tree.entries.lookup place

def byteLength (s : Text) : Nat := s.foldl (fun total c => total + c.utf8Size) 0

def walk (tree : Tree) (place : List Text) : List Text → Except Fault (List Text)
  | [] => .ok place
  | piece :: rest =>
    match tree.entry? place with
    | none => .error .notFound
    | some (.file _) => .error .notDirectory
    | some .directory =>
      if piece.isEmpty || piece = ['.'] then walk tree place rest
      else if piece = ['.', '.'] then walk tree place.dropLast rest
      else if 255 < byteLength piece then .error .nameTooLong
      else walk tree (place ++ [piece]) rest

/-- The place that a path names from the place `origin`. There may be nothing at it. -/
def locate (tree : Tree) (origin : List Text) (path : Path) : Except Fault (List Text) :=
  if path.contains (Char.ofNat 0) then .error .nulInName
  else if path.isEmpty then .error .notFound
  else if 4096 ≤ byteLength path then .error .nameTooLong
  else walk tree (if Path.isAbsolute path then [] else origin) (Path.pieces path)

def read (tree : Tree) (origin : List Text) (path : Path) : Except Fault ByteArray :=
  match locate tree origin path with
  | .error fault => .error fault
  | .ok place =>
    match tree.entry? place with
    | none => .error .notFound
    | some .directory => .error .isDirectory
    | some (.file contents) => .ok contents

def isFile (tree : Tree) (origin : List Text) (path : Path) : Bool :=
  match (locate tree origin path).toOption.bind tree.entry? with
  | some (.file _) => true
  | _ => false

def isDirectory (tree : Tree) (origin : List Text) (path : Path) : Bool :=
  match (locate tree origin path).toOption.bind tree.entry? with
  | some .directory => true
  | _ => false

def namesAt (tree : Tree) (place : List Text) : List Text :=
  (tree.entries.filterMap fun (other, _) =>
    if other.dropLast = place then other.getLast? else none).eraseDups

def entries? (tree : Tree) (origin : List Text) (path : Path) : Option (List Text) :=
  if tree.isDirectory origin path then (locate tree origin path).toOption.map tree.namesAt else none

def directoriesFrom (tree : Tree) (origin : List Text) (path : Path) : List Path :=
  match locate tree origin path with
  | .error _ => []
  | .ok place =>
    let below := tree.entries.filterMap fun (other, entry) =>
      match entry with
      | .directory =>
        if place.isPrefixOf other && other != place then some (other.drop place.length) else none
      | .file _ => none
    if tree.isDirectory origin path then path :: below.map (·.foldl Path.child path) else []

def put (tree : Tree) (place : List Text) (entry : Entry) : Tree :=
  ⟨(place, entry) :: tree.entries.filter fun other => other.1 != place⟩

def putFile (tree : Tree) (place : List Text) (contents : ByteArray) : Tree :=
  let above := (List.range place.length).map (place.take ·)
  let tree := above.foldl (fun tree place =>
    if (tree.entry? place).isNone then tree.put place .directory else tree) tree
  tree.put place (.file contents)

def putDirectory (tree : Tree) (place : List Text) : Tree :=
  let above := (List.range (place.length + 1)).map (place.take ·)
  above.foldl (fun tree place =>
    if (tree.entry? place).isNone then tree.put place .directory else tree) tree

def ensureDirectory (tree : Tree) (origin pieces : List Text) : Except Fault Tree :=
  match walk tree origin pieces with
  | .error fault => .error fault
  | .ok place =>
    match tree.entry? place with
    | none => .ok (tree.put place .directory)
    | some .directory => .ok tree
    | some (.file _) => .error .notDirectory

def pieceOf : Path.Component → Text
  | .root => []
  | .current => ['.']
  | .parent => ['.', '.']
  | .name letters => letters

/-- Makes a directory, if need be after the one above it, whose components are given backwards. -/
def makeFrom (tree : Tree) (origin pieces : List Text) : List Path.Component → Option Tree
  | [] => (ensureDirectory tree origin pieces).toOption
  | component :: above =>
    match ensureDirectory tree origin pieces with
    | .ok tree => some tree
    | .error .notFound =>
      (makeFrom tree origin ((component :: above).reverse.map pieceOf) above).bind
        fun tree => (ensureDirectory tree origin pieces).toOption
    | .error _ => none

def withoutTrailing (pieces : List Text) : List Text :=
  (pieces.reverse.dropWhile List.isEmpty).reverse

def makeDirectories (tree : Tree) (origin : List Text) (path : Path) : Option Tree :=
  if path.isEmpty then some tree
  else
    makeFrom tree (if Path.isAbsolute path then [] else origin)
      (withoutTrailing (Path.pieces path)) (Path.components path).reverse.tail

def write (tree : Tree) (origin : List Text) (path : Path) (contents : ByteArray) : Option Tree :=
  match locate tree origin path with
  | .error _ => none
  | .ok place =>
    match tree.entry? place with
    | some .directory => none
    | _ => some (tree.put place (.file contents))

def files (origin : List Text) : Files (StateM Tree) where
  read path := return (← get).read origin path
  isFile path := return (← get).isFile origin path
  isDirectory path := return (← get).isDirectory origin path
  entries? path := return (← get).entries? origin path
  directoriesFrom path := return (← get).directoriesFrom origin path
  makeDirectories path := do
    match (← get).makeDirectories origin path with
    | some tree => set tree; return true
    | none => return false
  write path text := do
    match (← get).write origin path (String.ofList text).toUTF8 with
    | some tree => set tree; return true
    | none => return false

end Tree

end HeaderDigest
