import HeaderDigest.Text.Basic

/-!
# Paths

A path is text whose components a slash separates. Two paths count as the same when their
components agree: repeated slashes do not matter, nor does a dot that is not the first component.
Paths are ordered by their components, the root before a dot, a dot before two dots, and all of
them before a name.
-/

namespace HeaderDigest

open Text

abbrev Path := Text

namespace Path

inductive Component
  | root
  | current
  | parent
  | name (letters : Text)
deriving Repr, DecidableEq

def isAbsolute (path : Path) : Bool := startsWith ['/'] path

/-- What stands between the slashes. There is one piece more than there are slashes. -/
def pieces : Path → List Text
  | [] => [[]]
  | c :: rest =>
    if c = '/' then [] :: pieces rest
    else
      match pieces rest with
      | piece :: more => (c :: piece) :: more
      | [] => [[c]]

def componentOf? (piece : Text) : Option Component :=
  if piece.isEmpty || piece = ['.'] then none
  else if piece = ['.', '.'] then some .parent
  else some (.name piece)

def components (path : Path) : List Component :=
  let leading :=
    if isAbsolute path then [.root]
    else if (pieces path).head? = some ['.'] then [.current]
    else []
  leading ++ (pieces path).filterMap componentOf?

def fileName? (path : Path) : Option Text :=
  match (components path).getLast? with
  | some (.name name) => some name
  | _ => none

def fileName (path : Path) : Text := (fileName? path).getD path

def join (path other : Path) : Path :=
  if isAbsolute other || path.isEmpty then other
  else if endsWith ['/'] path then path ++ other
  else path ++ '/' :: other

/-- Whether a path is a dot, perhaps with more dots and slashes behind it. -/
def isCurrent (path : Path) : Bool := components path = [.current]

/-- An entry of a directory. From the current directory it is the name alone. -/
def child (path : Path) (name : Text) : Path := if isCurrent path then name else join path name

def isHeaderName (name : Text) : Bool :=
  match dropSuffix? ['.', 'h'] name with
  | some stem => !stem.isEmpty
  | none => false

def Component.orderKey : Component → List Nat
  | root => [0]
  | current => [1]
  | parent => [2]
  | name letters => 3 :: letters.map Char.toNat

def orderKey (path : Path) : List (List Nat) := (components path).map Component.orderKey

def sort (paths : List Path) : List Path :=
  paths.mergeSort fun a b => (compare (orderKey a) (orderKey b)).isLE

end Path

end HeaderDigest
