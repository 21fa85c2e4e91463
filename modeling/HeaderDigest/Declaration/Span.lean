import HeaderDigest.Source.InlineComment
import HeaderDigest.Text.Brackets

/-!
# The lines of a declaration

A function declaration runs through the first line with a `;` up to which no parenthesis is left
open. A type declaration runs through the first line with a `;` up to which no brace has been
opened, or as many have been closed. Comments do not count in either. No more than `spanLimit`
lines are taken: a function declaration that does not end within them has no span, a type
declaration is cut off there.
-/

namespace HeaderDigest

open Text

def spanLimit : Nat := 200

structure Span where
  start : Nat
  /-- The line after the last one. -/
  stop : Nat
  text : Text
  terminated : Bool
deriving Repr, DecidableEq

def functionLength? (depth : Int) : List Text → Option Nat
  | [] => none
  | line :: rest =>
    let code := withoutComments line
    let depth := depth + balance '(' ')' code
    if code.contains ';' && depth ≤ 0 then some 1 else (functionLength? depth rest).map (· + 1)

/-- The number of lines through the end of a type declaration, when the lines before these leave
`depth` braces open; `opened` says whether they opened any. -/
def typeLength? (opened : Bool) (depth : Int) : List Text → Option Nat
  | [] => none
  | line :: rest =>
    let code := withoutComments line
    let opened := opened || code.contains '{'
    let depth := depth + balance '{' '}' code
    if code.contains ';' && (!opened || depth ≤ 0) then some 1
    else (typeLength? opened depth rest).map (· + 1)

/-- The function declaration at the beginning of lines of which the first has the number
`position`; comments are taken out of its text. -/
def Span.function? (position : Nat) (lines : List Text) : Option Span :=
  (functionLength? 0 (lines.take spanLimit)).map fun n =>
    ⟨position, position + n, joinLines ((lines.take n).map withoutComments), true⟩

def Span.dataType (position : Nat) (lines : List Text) : Span :=
  match typeLength? false 0 (lines.take spanLimit) with
  | some n => ⟨position, position + n, joinLines (lines.take n), true⟩
  | none =>
    let taken := lines.take spanLimit
    ⟨position, position + taken.length, joinLines taken, false⟩

def Span.functionAt? (lines : List Text) (seed : Nat) : Option Span :=
  Span.function? seed (lines.drop seed)

/-- The type declaration that starts on the line `seed`. Behind the last line nothing is taken,
and the span stops there. -/
def Span.dataTypeAt (lines : List Text) (seed : Nat) : Span :=
  let span := Span.dataType seed (lines.drop seed)
  { span with stop := min span.stop lines.length }

def Span.isCapped (span : Span) : Bool :=
  !span.terminated && span.stop == span.start + spanLimit

end HeaderDigest
