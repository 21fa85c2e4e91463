import HeaderDigest.Text.Basic

/-!
# Comments inside a line

What is left of a line of source text when its comments are taken out. The blocks `/* ... */` go
first, one after the other from the left; then the line is cut at the first `//`. So a `//` that
only appears when a block between its two strokes is gone counts, and a `//` inside a block does
not. A block has to close before the next line break; an open one stays as it is.
-/

namespace HeaderDigest

open Text

def closesBlock : Text → Bool
  | [] => false
  | c :: rest =>
    if startsWith ['*', '/'] (c :: rest) then true
    else if c = '\n' then false
    else closesBlock rest

/-- Takes the blocks out. `inside` says that reading begins inside a block, one which closes. -/
def withoutBlocks (inside : Bool) : Text → Text
  | [] => []
  | [c] => if inside then [] else [c]
  | c :: d :: rest =>
    if inside then
      if c = '*' && d = '/' then withoutBlocks false rest else withoutBlocks true (d :: rest)
    else if c = '/' && d = '*' && closesBlock rest then withoutBlocks true rest
    else c :: withoutBlocks false (d :: rest)

def beforeLineComment : Text → Text
  | [] => []
  | c :: rest => if startsWith ['/', '/'] (c :: rest) then [] else c :: beforeLineComment rest

def withoutComments (line : Text) : Text := beforeLineComment (withoutBlocks false line)

example : withoutComments "int a; /* b */ c // d".toList = "int a;  c ".toList := by decide

end HeaderDigest
