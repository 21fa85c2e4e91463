import HeaderDigest.Declarator.ParameterList
import HeaderDigest.Declarator.Parts
import HeaderDigest.Doc.Basic
import HeaderDigest.Prototype.Shape
import HeaderDigest.Prototype.Signature
import HeaderDigest.Text.Lowercase

/-!
# Documented functions

The record of a function and how it is read from the text of its declaration. A declaration that
is no prototype, and one that is hidden, gives no record; the refusal says why.
-/

namespace HeaderDigest

open Text

structure Parameter where
  type : Text
  name : Text
  description : Text
deriving Repr, DecidableEq

structure Function where
  name : Text
  returnType : Text
  parameters : List Parameter
  brief : Text
  description : Text
  file : Text
  line : Nat
deriving Repr, DecidableEq

/-- Names that are kept out of a digest unless it is to include them: those that begin with an
underscore, and those with `internal` in them in any case. -/
def isPrivateName (name : Text) : Bool :=
  startsWith ['_'] name || hasPart "internal".toList (lowercase name)

def nonFunctionWords : List Text :=
  ["if".toList, "while".toList, "for".toList, "switch".toList, "return".toList, "sizeof".toList]

inductive Refusal
  | missingSemicolon
  | missingParameterList
  | unknownShape
  | noFunctionName
  | hidden
deriving Repr, DecidableEq

namespace Function

/-- The parameters in a list. `void` alone is no parameter, and neither is a piece without a
type. -/
def readParameters (list : Text) (doc : Doc) : List Parameter :=
  if list.isEmpty || list = "void".toList then []
  else
    ((splitTopLevel list).map Declarator.read).filterMap fun declarator =>
      if declarator.type.isEmpty then none
      else some ⟨declarator.type, declarator.name, doc.param declarator.name⟩

def read (declaration : Text) (doc : Doc) (file : Text) (line : Nat) (includePrivate : Bool) :
    Except Refusal Function := do
  let some body := declarationBody? declaration | throw .missingSemicolon
  let some (head, list) := splitSignature? body | throw .missingParameterList
  let some (_, parts) := matchShape? head | throw .unknownShape
  if !isIdentifier parts.name || nonFunctionWords.contains parts.name then throw .noFunctionName
  if !includePrivate && isPrivateName parts.name then throw .hidden
  return {
    name := parts.name
    returnType := parts.returnType
    parameters := readParameters list doc
    brief := doc.brief
    description := doc.description
    file := file
    line := line }

end Function

end HeaderDigest
