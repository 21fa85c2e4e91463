import HeaderDigest.Declarator.PointerGroup
import HeaderDigest.Declarator.Vocabulary
import HeaderDigest.Text.Brackets

/-!
# The type and the name in a declarator

A parameter is text with a type and mostly a name in it, `const char *label`. This module tells
them apart. The name is empty when none can be made out, and the sizes of an array belong to
neither. A function pointer is a type as a whole; the name inside its group stays there.
-/

namespace HeaderDigest

open Text

structure Declarator where
  type : Text
  name : Text
deriving Repr, DecidableEq

namespace Declarator

/-- Splits a text behind the parenthesis that opens the arguments of the first pointer group; the
group must begin before any line break. -/
def splitArguments? : Text → Option (Text × Text)
  | [] => none
  | c :: rest =>
    match PointerGroup.read? (c :: rest) with
    | some group =>
      some ((c :: rest).take ((c :: rest).length - group.arguments.length), group.arguments)
    | none =>
      if c = '\n' then none
      else (splitArguments? rest).map fun (before, arguments) => (c :: before, arguments)

/-- The type runs through the end of the arguments. What follows them is a name if it is an
identifier. -/
def ofFunctionPointer? (s : Text) : Option Declarator := do
  let (before, rest) ← splitArguments? s
  let (arguments, after) ← splitPartner? '(' ')' 0 rest
  let trailing := trim after
  return ⟨trim (before ++ arguments ++ [')']), if isIdentifier trailing then trailing else []⟩

def ofAngled (s : Text) : Declarator :=
  match (words s).reverse with
  | last :: type =>
    if !type.isEmpty && isIdentifier last then ⟨joinWords type.reverse, last⟩ else ⟨s, []⟩
  | [] => ⟨s, []⟩

def isGroups (inside : Bool) : Text → Bool
  | [] => !inside
  | c :: rest =>
    if inside then isGroups (c != ']') rest
    else if isBlank c then isGroups false rest
    else c == '[' && isGroups true rest

def beforeSizes? : Text → Option Text
  | [] => none
  | c :: rest =>
    if isGroups false (c :: rest) && (c :: rest).any (!isBlank ·) then some []
    else if c = '\n' then none
    else (beforeSizes? rest).map (c :: ·)

/-- The name is the run of word characters at the end, if a blank or a star precedes it and the
words before it hold more than qualifiers. -/
def ofLastWord? (s : Text) : Option Declarator :=
  let (type, name) := splitEnding isWordChar s
  match type.reverse with
  | [] => none
  | c :: before =>
    if (isBlank c || c == '*') && !before.contains '\n' && isWordName name &&
        (runs (fun d => !isBlank d && d != '*') type).any (!isQualifier ·) && !isTypeWord name then
      some ⟨trim type, name⟩
    else none

/-- Splits words before the first one that can be a name once a word of the type has been seen;
its stars stay with the type. -/
def splitName? (seenBase : Bool) : List Text → Option (List Text × List Text)
  | [] => none
  | word :: rest =>
    let stars := word.takeWhile (· == '*')
    let bare := word.dropWhile (· == '*')
    let next (seenBase : Bool) :=
      (splitName? seenBase rest).map fun (type, name) => (word :: type, name)
    if isQualifier word || bare.isEmpty then next seenBase
    else if !seenBase then next true
    else if isIdentifier bare && !isTypeWord bare then
      some (if stars.isEmpty then [] else [stars], bare :: rest)
    else next seenBase

def ofWords (s : Text) : Declarator :=
  match splitName? false (words s) with
  | some (type, name) => ⟨joinWords type, joinWords name⟩
  | none => ⟨s, []⟩

def ofPlain (s : Text) : Declarator :=
  let base := trim ((beforeSizes? s).getD s)
  (ofLastWord? base).getD (ofWords base)

def read (s : Text) : Declarator :=
  let s := trim s
  if s.isEmpty then ⟨[], []⟩
  else
    match ofFunctionPointer? s with
    | some declarator => declarator
    | none => if s.contains '<' && s.contains '>' then ofAngled s else ofPlain s

end Declarator

end HeaderDigest
