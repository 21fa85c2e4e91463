import HeaderDigest.Text.Basic

/-!
# Words of a declarator

Words of the C language that can stand in a type, and the names it can declare.
-/

namespace HeaderDigest

def qualifiers : List Text :=
  ["const".toList, "volatile".toList, "static".toList, "extern".toList, "register".toList,
    "auto".toList, "restrict".toList, "inline".toList, "struct".toList, "enum".toList,
    "union".toList]

def builtinTypeWords : List Text :=
  ["void".toList, "char".toList, "short".toList, "int".toList, "long".toList, "float".toList,
    "double".toList, "signed".toList, "unsigned".toList, "_Bool".toList, "bool".toList]

def isQualifier (word : Text) : Bool := qualifiers.contains word

def isTypeWord (word : Text) : Bool := builtinTypeWords.contains word || isQualifier word

/-- A name of the C language, in ASCII. -/
def isIdentifier (word : Text) : Bool :=
  match word with
  | c :: rest => isNameStart c && rest.all fun d => d.isAlphanum || d == '_'
  | [] => false

end HeaderDigest
