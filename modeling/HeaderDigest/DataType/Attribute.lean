import HeaderDigest.Text.Basic

/-!
# Attributes in a type declaration

`__attribute__((...))` and `__declspec(...)` are taken out before a type is named, so that no
word in them is taken for the name. One whose parentheses do not close takes the rest of the text
along.
-/

namespace HeaderDigest

open Text

def startsAttribute (s : Text) : Bool :=
  match (dropPrefix? "__attribute__".toList s).or (dropPrefix? "__declspec".toList s) with
  | some rest => startsWith ['('] (trimStart rest)
  | none => false

/-- Where reading stands in a text from which the attributes are taken out. -/
inductive AttributeState
  /-- Outside; `afterWord` says whether the last character was a word character. -/
  | outside (afterWord : Bool)
  | keyword
  /-- In the arguments, inside `depth` parentheses of their own. -/
  | arguments (depth : Nat)
deriving Repr, DecidableEq

def withoutAttributesFrom : AttributeState → Text → Text
  | _, [] => []
  | .outside afterWord, c :: rest =>
    if !afterWord && startsAttribute (c :: rest) then withoutAttributesFrom .keyword rest
    else c :: withoutAttributesFrom (.outside (isWordChar c)) rest
  | .keyword, c :: rest =>
    withoutAttributesFrom (if c = '(' then .arguments 0 else .keyword) rest
  | .arguments depth, c :: rest =>
    if c = '(' then withoutAttributesFrom (.arguments (depth + 1)) rest
    else if c = ')' then
      withoutAttributesFrom (if depth = 0 then .outside false else .arguments (depth - 1)) rest
    else withoutAttributesFrom (.arguments depth) rest

def withoutAttributes (code : Text) : Text := withoutAttributesFrom (.outside false) code

end HeaderDigest
