import HeaderDigest.Text.Basic

/-!
# Brackets

Counting one kind of bracket and finding the partner of an open one. Nothing here knows of
quotes: a bracket inside a string or a character literal counts like any other.
-/

namespace HeaderDigest.Text

def balance (opening closing : Char) (s : Text) : Int :=
  s.foldl (fun depth c => if c = opening then depth + 1 else if c = closing then depth - 1 else depth) 0

/-- Reads on behind an `opening` bracket, inside `depth` further ones, and splits around the
`closing` one that is its partner: what stands before it, and what follows it. -/
def splitPartner? (opening closing : Char) (depth : Nat) : Text → Option (Text × Text)
  | [] => none
  | c :: rest =>
    if c = opening then
      (splitPartner? opening closing (depth + 1) rest).map fun (inner, after) => (c :: inner, after)
    else if c = closing then
      if depth = 0 then some ([], rest)
      else
        (splitPartner? opening closing (depth - 1) rest).map
          fun (inner, after) => (c :: inner, after)
    else (splitPartner? opening closing depth rest).map fun (inner, after) => (c :: inner, after)

theorem balance_nil (opening closing : Char) : balance opening closing [] = 0 := rfl

end HeaderDigest.Text
