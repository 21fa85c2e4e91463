import HeaderDigest.Files.Access

/-!
# File name patterns

A pattern is a path in whose components `?` stands for one character, `*` for any number of them,
`[...]` for one of some characters and `[!...]` for one of the others. The component `**` stands
for any number of directories. A pattern is refused if stars come together in any other way or if
a bracket does not close. Letters match in their own case, and a leading dot is like any other
character; but the directories `.` and `..` are met only by a component that begins with a dot.
-/

namespace HeaderDigest

open Text

namespace Pattern

inductive Piece
  | letter (c : Char)
  | anyOne
  | anyRun
  | oneOf (ranges : List (Char × Char))
  | noneOf (ranges : List (Char × Char))
deriving Repr, DecidableEq

inductive Component
  | directories
  | name (pieces : List Piece)
deriving Repr, DecidableEq

def readRanges : Text → List (Char × Char)
  | a :: '-' :: b :: rest => (a, b) :: readRanges rest
  | a :: rest => (a, a) :: readRanges rest
  | [] => []

def splitClass? (s : Text) : Option (Text × Text) :=
  match s with
  | [] => none
  | c :: rest =>
    if rest.contains ']' then
      some (c :: rest.takeWhile (· != ']'), (rest.dropWhile (· != ']')).drop 1)
    else none

/-- Reads the pieces of a component. `skip` characters at the beginning belong to a class that
has been read; `starBefore` says whether a star comes just before. -/
def readPieces? (skip : Nat) (starBefore : Bool) : Text → Option (List Piece)
  | [] => some []
  | c :: rest =>
    match skip with
    | skip + 1 => readPieces? skip false rest
    | 0 =>
      if c = '*' then
        if starBefore then none else (readPieces? 0 true rest).map (.anyRun :: ·)
      else if c = '?' then (readPieces? 0 false rest).map (.anyOne :: ·)
      else if c = '[' then
        let negated := startsWith ['!'] rest
        match splitClass? (if negated then rest.drop 1 else rest) with
        | some (inner, after) =>
          let ranges := readRanges inner
          (readPieces? (rest.length - after.length) false rest).map
            ((if negated then .noneOf ranges else .oneOf ranges) :: ·)
        | none => none
      else (readPieces? 0 false rest).map (.letter c :: ·)

def Component.read? (s : Text) : Option Component :=
  if s = ['*', '*'] then some .directories else (readPieces? 0 false s).map .name

def read? (pattern : Text) : Option (List Component) :=
  let pieces := Path.pieces pattern
  let pieces := if 1 < pieces.length && pieces.getLast? = some [] then pieces.dropLast else pieces
  pieces.mapM Component.read?

def inRanges (ranges : List (Char × Char)) (c : Char) : Bool :=
  ranges.any fun range => range.1 ≤ c && c ≤ range.2

def endings : Text → List Text
  | [] => [[]]
  | c :: rest => (c :: rest) :: endings rest

def Piece.matchesChar : Piece → Char → Bool
  | letter d, c => d == c
  | anyOne, _ => true
  | anyRun, _ => false
  | oneOf ranges, c => inRanges ranges c
  | noneOf ranges, c => !inRanges ranges c

def matchesName : List Piece → Text → Bool
  | [], s => s.isEmpty
  | .anyRun :: pieces, s => (endings s).any (matchesName pieces)
  | piece :: pieces, s =>
    match s with
    | c :: rest => piece.matchesChar c && matchesName pieces rest
    | [] => false

def literal? (pieces : List Piece) : Option Text :=
  pieces.mapM fun piece => match piece with
    | .letter c => some c
    | _ => none

/-- The paths that components match from a directory on. Trailing `**` matches directories alone,
and those are not looked for. -/
def find {m : Type → Type} [Monad m] (files : Files m) : List Component → Path → m (List Path)
  | [], path => pure [path]
  | [.directories], _ => pure []
  | .directories :: .directories :: rest, path => find files (.directories :: rest) path
  | .directories :: .name pieces :: rest, path => do
    let found ← (← files.directoriesFrom path).mapM fun directory => do
      let names := ((← files.entries? directory).getD []).filter (matchesName pieces)
      names.mapM fun name => find files rest (Path.child directory name)
    return found.flatten.flatten
  | .name pieces :: rest, path =>
    match literal? pieces with
    | some name => do
      let next := Path.child path name
      let isThere ←
        if name = ['.'] || name = ['.', '.'] then files.isDirectory path
        else pure ((← files.isFile next) || (← files.isDirectory next))
      if isThere then find files rest next else return []
    | none => do
      match ← files.entries? path with
      | none => return []
      | some names =>
        let met ← (names.filter (matchesName pieces)).mapM fun name =>
          find files rest (Path.child path name)
        let dots := if pieces.head? = some (.letter '.') then [['.'], ['.', '.']] else []
        let special ← (dots.filter (matchesName pieces)).mapM fun name =>
          find files rest (Path.join path name)
        return met.flatten ++ special.flatten

def files? {m : Type → Type} [Monad m] (files : Files m) (pattern : Text) :
    m (Option (List Path)) := do
  match read? pattern with
  | none => return none
  | some components =>
    if endsWith ['/'] pattern then return some []
    else
      let start := if Path.isAbsolute pattern then ['/'] else ['.']
      let components := if Path.isAbsolute pattern then components.drop 1 else components
      let paths ← find files components start
      return some (← paths.filterM files.isFile)

end Pattern

end HeaderDigest
