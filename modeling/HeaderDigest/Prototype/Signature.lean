import HeaderDigest.Text.Brackets

/-!
# The parts of a prototype

A prototype on one line, without its semicolon and without an attribute behind the parameter
list, is a head and a parameter list in parentheses.
-/

namespace HeaderDigest

open Text

def isAttributeTail (s : Text) : Bool :=
  match dropPrefix? "__attribute__".toList s with
  | some rest =>
    match dropPrefix? ['(', '('] (trimStart rest) with
    | some inner => endsWith [')', ')'] inner
    | none => false
  | none => false

/-- What stands before the first attribute that runs to the end, if there is one. -/
def beforeAttributeTail? : Text → Option Text
  | [] => none
  | c :: rest =>
    if isAttributeTail (c :: rest) then some [] else (beforeAttributeTail? rest).map (c :: ·)

def withoutAttributeTail (s : Text) : Text :=
  match beforeAttributeTail? s with
  | some before => trimEnd before
  | none => s

/-- Splits at the parenthesis whose partner ends the text: the head before it, and the parameter
list inside. -/
def splitSignature? (body : Text) : Option (Text × Text) :=
  match body.reverse with
  | ')' :: back =>
    (splitPartner? ')' '(' 0 back).map fun (inner, before) =>
      (trimEnd before.reverse, trim inner.reverse)
  | _ => none

def declarationBody? (declaration : Text) : Option Text :=
  (dropSuffix? [';'] (normalize declaration)).map fun body => withoutAttributeTail (trimEnd body)

end HeaderDigest
