import HeaderDigest.Text.Basic

/-!
# Pointer groups

What makes a declarator one of a function pointer: a parenthesis with stars and perhaps a name in
it, and another parenthesis behind it, as in `(*name)(`. Blanks may stand anywhere between them.
-/

namespace HeaderDigest

open Text

structure PointerGroup where
  stars : Text
  /-- Empty if the group has no name. -/
  name : Text
  arguments : Text
deriving Repr, DecidableEq

def PointerGroup.read? (s : Text) : Option PointerGroup :=
  match s with
  | '(' :: s =>
    let s := trimStart s
    let stars := s.takeWhile (· == '*')
    let s := trimStart (s.dropWhile (· == '*'))
    let name := s.takeWhile isWordChar
    match trimStart (s.dropWhile isWordChar) with
    | ')' :: s =>
      match trimStart s with
      | '(' :: arguments => if stars.isEmpty then none else some ⟨stars, name, arguments⟩
      | _ => none
    | _ => none
  | _ => none

end HeaderDigest
