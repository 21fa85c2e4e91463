import HeaderDigest.Doc.Basic
import HeaderDigest.Source.InlineComment
import HeaderDigest.Text.Brackets

/-!
# The members of a struct

One member is read from each line with a `;` inside the braces. The line with the first `{` opens
the body, and only the lines after it are read, as long as a brace is open. A declarator is cut
at its last blank: what comes after it, array sizes apart, is the name, so `char *name` gives
`*name`, and `int a, b` one member `b`.
-/

namespace HeaderDigest

open Text

structure Member where
  type : Text
  name : Text
  description : Text
deriving Repr, DecidableEq

/-- Takes out each `[` through the next `]`; `inside` says that reading begins between the two,
and then a `]` follows. -/
def withoutSizes (inside : Bool) : Text → Text
  | [] => []
  | c :: rest =>
    if inside then withoutSizes (c != ']') rest
    else if c = '[' && rest.contains ']' then withoutSizes true rest
    else c :: withoutSizes false rest

/-- A declarator without a blank declares no member. -/
def Member.read? (declarator : Text) (doc : Doc) : Option Member :=
  let (front, last) := splitEnding (fun c => !isBlank c) declarator
  if front.isEmpty then none
  else
    let name := withoutSizes false last
    some ⟨trim front.dropLast, name, doc.member name⟩

def isMemberless (line : Text) : Bool :=
  line.isEmpty || startsWith ['/', '*'] line || startsWith ['*'] line || startsWith ['}'] line ||
    line == ['{']

/-- The members in the lines of a body, when the lines before them leave `depth` braces open. -/
def readBody (doc : Doc) (depth : Int) : List Text → List Member
  | [] => []
  | raw :: rest =>
    if depth ≤ 0 then []
    else
      let line := trim (withoutComments raw)
      let depth := depth + balance '{' '}' line
      if isMemberless line then readBody doc depth rest
      else if depth ≤ 0 then []
      else if line.contains ';' then
        (Member.read? (trim (line.takeWhile (· != ';'))) doc).toList ++ readBody doc depth rest
      else readBody doc depth rest

def readMembers (definition : Text) (doc : Doc) : List Member :=
  match (lines definition).dropWhile fun line => !line.contains '{' with
  | opening :: body => readBody doc (balance '{' '}' (withoutComments opening)) body
  | [] => []

end HeaderDigest
