import HeaderDigest.Text.Basic

/-!
# The pieces of a parameter list

A parameter list is cut at the commas that stand outside `()`, `[]` and `<>`. Each kind of
bracket is counted on its own, and a count may go below zero.
-/

namespace HeaderDigest

open Text

structure Nesting where
  parens : Int := 0
  squares : Int := 0
  angles : Int := 0
deriving Repr, DecidableEq

namespace Nesting

def isTop (nesting : Nesting) : Bool :=
  nesting.parens == 0 && nesting.squares == 0 && nesting.angles == 0

def feed (nesting : Nesting) (c : Char) : Nesting :=
  if c = '(' then { nesting with parens := nesting.parens + 1 }
  else if c = ')' then { nesting with parens := nesting.parens - 1 }
  else if c = '[' then { nesting with squares := nesting.squares + 1 }
  else if c = ']' then { nesting with squares := nesting.squares - 1 }
  else if c = '<' then { nesting with angles := nesting.angles + 1 }
  else if c = '>' then { nesting with angles := nesting.angles - 1 }
  else nesting

end Nesting

def piecesFrom (nesting : Nesting) : Text → List Text
  | [] => [[]]
  | c :: rest =>
    if c = ',' && nesting.isTop then [] :: piecesFrom nesting rest
    else
      match piecesFrom (nesting.feed c) rest with
      | piece :: more => (c :: piece) :: more
      | [] => [[c]]

/-- The trimmed pieces of a list. A blank piece counts unless it is the last. -/
def splitTopLevel (list : Text) : List Text :=
  let pieces := (piecesFrom {} list).map trim
  if pieces.getLast? == some [] then pieces.dropLast else pieces

end HeaderDigest
