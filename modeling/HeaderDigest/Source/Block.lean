import HeaderDigest.Source.Cursor

/-!
# Documentation blocks

A documentation block opens on a line that starts, blanks aside, with `/**`, and runs through the
first line that holds `*/`; on the opening line the closer may use the second star of the opener.
`/**<` opens nothing: it speaks of what stands before it on its line. An opener without a closer
below it is passed over, and reading goes on at the line after it.
-/

namespace HeaderDigest

open Text

def opensBlock (line : Text) : Bool :=
  let line := trimStart line
  startsWith ['/', '*', '*'] line && !startsWith ['/', '*', '*', '<'] line

def closesItself (line : Text) : Bool := hasPart ['*', '/'] ((trimStart line).drop 2)

def linesToCloser? : List Text → Option Nat
  | [] => none
  | line :: rest =>
    if hasPart ['*', '/'] line then some 1 else (linesToCloser? rest).map (· + 1)

/-- The number of lines of the block that opens on the first line, if one does and it closes. -/
def blockLength? : List Text → Option Nat
  | [] => none
  | line :: rest =>
    if !opensBlock line then none
    else if closesItself line then some 1
    else (linesToCloser? rest).map (· + 1)

structure Block where
  text : Text
  startLine : Nat
  /-- The line after the closer. -/
  nextLine : Nat
deriving Repr, DecidableEq

def Block.first? (position : Nat) : List Text → Option Block
  | [] => none
  | line :: rest =>
    match blockLength? (line :: rest) with
    | some n => some ⟨joinLines ((line :: rest).take n), position, position + n⟩
    | none => Block.first? (position + 1) rest

/-- All blocks of lines of which the first has the number `position`, when `passed` lines at the
beginning belong to an earlier block. -/
def Block.listFrom (position passed : Nat) : List Text → List Block
  | [] => []
  | line :: rest =>
    match passed with
    | passed + 1 => Block.listFrom (position + 1) passed rest
    | 0 =>
      match blockLength? (line :: rest) with
      | some n =>
        ⟨joinLines ((line :: rest).take n), position, position + n⟩ ::
          Block.listFrom (position + 1) (n - 1) rest
      | none => Block.listFrom (position + 1) 0 rest

def Block.list (lines : List Text) : List Block := Block.listFrom 0 0 lines

def Cursor.nextBlock (cursor : Cursor) : Option Block × Cursor :=
  match Block.first? cursor.position cursor.ahead with
  | some block => (some block, atLine cursor.lines block.nextLine)
  | none => (none, atLine cursor.lines cursor.lines.length)

end HeaderDigest
