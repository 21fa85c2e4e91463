import HeaderDigest.Declaration.Line
import HeaderDigest.Source.Block

/-!
# The line a declaration begins on

The declaration that a documentation block belongs to is looked for in the lines after the block,
in no more than `lookaheadLines` of them, and not past the opener of the next block. Comments,
directives with their continuations, and blank lines are passed over; so is every other line on
which neither a type nor a function declaration can begin.
-/

namespace HeaderDigest

open Text

def lookaheadLines : Nat := 50

inductive SeedKind
  | function
  | dataType
deriving Repr, DecidableEq

structure Seed where
  kind : SeedKind
  line : Nat
deriving Repr, DecidableEq

inductive Pending
  | nothing
  | comment
  | directive
deriving Repr, DecidableEq

inductive LineRole
  | stop
  | pass (pending : Pending)
  | seed (kind : SeedKind)
deriving Repr, DecidableEq

def LineRole.of (line : Text) : LineRole :=
  if opensBlock line then .stop
  else if startsWith ['#'] line then
    .pass (if endsWith ['\\'] line then .directive else .nothing)
  else if startsWith ['/', '*'] line then
    .pass (if hasPart ['*', '/'] (line.drop 2) then .nothing else .comment)
  else if line.isEmpty || startsWith ['/', '/'] line || startsWith ['*'] line then .pass .nothing
  else if isTypeSeed line then .seed .dataType
  else if looksLikeFunctionStart line then .seed .function
  else .pass .nothing

def Seed.search (position : Nat) : Pending → List Text → Option Seed
  | _, [] => none
  | .comment, line :: rest =>
    Seed.search (position + 1) (if hasPart ['*', '/'] (trim line) then .nothing else .comment) rest
  | .directive, line :: rest =>
    Seed.search (position + 1) (if endsWith ['\\'] (trim line) then .directive else .nothing) rest
  | .nothing, line :: rest =>
    match LineRole.of (trim line) with
    | .stop => none
    | .pass pending => Seed.search (position + 1) pending rest
    | .seed kind => some ⟨kind, position⟩

/-- The seed after a block that ends just before the line `start`. -/
def Seed.locate (lines : List Text) (start : Nat) : Option Seed :=
  Seed.search start .nothing ((lines.drop start).take lookaheadLines)

end HeaderDigest
