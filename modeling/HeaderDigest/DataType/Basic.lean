import HeaderDigest.DataType.Member
import HeaderDigest.DataType.Naming

/-!
# Documented types

The record of a struct, an enumeration, a union or a typedef, and how it is read from its
declaration.
-/

namespace HeaderDigest

open Text

structure DataType where
  name : Text
  kind : TypeKind
  definition : Text
  brief : Text
  description : Text
  members : List Member
  file : Text
  /-- The line of the declaration, counted from 1. -/
  line : Nat
deriving Repr, DecidableEq

namespace DataType

def code (declaration : Text) : Text :=
  trim (withoutAttributes (joinLines ((lines declaration).map withoutComments)))

def read? (seedLine declaration : Text) (doc : Doc) (file : Text) (line : Nat) : Option DataType :=
  (nameType? (withoutAttributes seedLine) (code declaration)).map fun (kind, name) => {
    name := name
    kind := kind
    definition := trim declaration
    brief := doc.brief
    description := doc.description
    members := if kind = .struct then readMembers declaration doc else []
    file := file
    line := line }

end DataType

end HeaderDigest
