import HeaderDigest.Source.InlineComment
import HeaderDigest.Text.Brackets

/-!
# What a line can begin

Two tests on a line of source text, both made without parsing it: whether a function declaration
can start there, and whether a type declaration can. A prototype that returns or takes a struct
mentions a type keyword too, so the second test asks the first.
-/

namespace HeaderDigest

open Text

def typeKeywords : List Text :=
  ["struct".toList, "enum".toList, "union".toList, "typedef".toList]

def mentionsTypeKeyword (line : Text) : Bool :=
  (runs isWordChar line).any typeKeywords.contains

def startsWithTypedef (line : Text) : Bool :=
  (trimStart line).takeWhile isWordChar == "typedef".toList

def isPassedOver (line : Text) : Bool :=
  line.isEmpty || startsWith ['/', '/'] line || startsWith ['/', '*'] line ||
    startsWith ['*'] line || startsWith ['#'] line

/-- The line has a parenthesis and no `=`; it closes the parentheses and ends the declaration or
itself there, or it leaves some open. -/
def looksLikeFunctionStart (line : Text) : Bool :=
  let line := trim line
  if isPassedOver line then false
  else if line.contains '=' || !line.contains '(' then false
  else
    (line.contains ')' && (line.contains ';' || endsWith [')'] line)) || 0 < balance '(' ')' line

/-- The line mentions a type and is not a prototype that returns or takes one. -/
def isTypeSeed (line : Text) : Bool :=
  mentionsTypeKeyword line &&
    !(looksLikeFunctionStart line && !line.contains '{' && !startsWithTypedef line)

end HeaderDigest
