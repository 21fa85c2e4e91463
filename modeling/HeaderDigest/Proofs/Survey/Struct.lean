import HeaderDigest.Proofs.Doc.Entries
import HeaderDigest.Proofs.Grammar.Struct

/-!
# Headers of documented structs

A struct that is written behind its comment is read back: the header holds its record and nothing
else, with a member for each that was written and what the comment says of it.
-/

namespace HeaderDigest

open Text

/-- A struct of no more than 198 members is read back from behind its comment. Each member has the
type and the name as written, without its sizes, and the text of the last entry on that name. -/
theorem Header.read_struct {name : Text} (hName : isIdentifier name = true) {members : List CMember}
    (hLength : members.length ≤ 198) {block : List Text} (hBlock : blockLength? block = some block.length)
    (hFileDoc : (Doc.read (joinLines block)).isFileDoc = false) {text : Text}
    (hLines : lines text = block ++ structOpening name :: structBody members) (filename path : Text)
    (includePrivate : Bool) :
    Header.read text filename path includePrivate =
      { filename := filename
        path := path
        brief := []
        description := []
        functions := []
        dataTypes := [{
          name := name
          kind := .struct
          definition := trim (joinLines (structOpening name :: structBody members))
          brief := (Doc.read (joinLines block)).brief
          description := (Doc.read (joinLines block)).description
          members := members.map fun member => {
            type := member.type
            name := member.starredName
            description :=
              ((Doc.memberEntries (joinLines block)).reverse.lookup member.starredName).getD [] }
          file := filename
          line := block.length + 1 }] } := by
  have hDeclaration : IsTypeDeclaration (structOpening name) (structBody members) :=
    isTypeDeclaration_struct hName (Nat.add_le_add_right hLength 2)
  have hRead := read?_struct hName members (Doc.read (joinLines block)) filename (block.length + 1)
  rw [Header.read, hLines,
    Header.ofSurvey_typeDeclaration includePrivate hBlock hFileDoc hDeclaration hRead, structRecord]
  simp only [CMember.read, Doc.member_read]

/-- `unsigned int *sums[N][2]; // See }; below.` -/
def sumsMember : CMember where
  words := ["unsigned".toList, "int".toList]
  stars := 1
  name := "sums".toList
  sizes := ["N".toList, "2".toList]
  remark := some
    { style := .line
      gap := 1
      text := "See ".toList ++ ['}', ';'] ++ " below.".toList
      noLineFeed := by decide
      noCloser := by decide }
  words_ne_nil := by decide
  words_identifiers := by decide
  isIdentifier_name := by decide
  sizes_chars := by decide

/-- `list_t last; /**< No @member entry. */` -/
def lastMember : CMember where
  words := ["list_t".toList]
  stars := 0
  name := "last".toList
  sizes := []
  remark := some
    { style := .behind
      gap := 2
      text := "No @member entry.".toList
      noLineFeed := by decide
      noCloser := by decide }
  words_ne_nil := by decide
  words_identifiers := by decide
  isIdentifier_name := by decide
  sizes_chars := by decide

def totalsBlock : List Text :=
  ["/**".toList, " * Totals. @member last Said first.".toList, " * @member last Said again.".toList,
    " */".toList]

def totalsText : Text :=
  joinLines (totalsBlock ++ structOpening "totals".toList :: structBody [sumsMember, lastMember])

theorem Header.read_totalsText :
    isIdentifier "totals".toList = true ∧ [sumsMember, lastMember].length ≤ 198 ∧
      blockLength? totalsBlock = some totalsBlock.length ∧
      (Doc.read (joinLines totalsBlock)).isFileDoc = false ∧
      lines totalsText = totalsBlock ++ structOpening "totals".toList :: structBody [sumsMember, lastMember] ∧
      (Header.read totalsText "totals.h".toList "inc/totals.h".toList false).dataTypes.map
          DataType.members =
        [[⟨"unsigned int".toList, "*sums".toList, []⟩,
          ⟨"list_t".toList, "last".toList, "Said again.".toList⟩]] := by
  have hLines : lines totalsText =
      totalsBlock ++ structOpening "totals".toList :: structBody [sumsMember, lastMember] := by decide
  refine ⟨by decide, by decide, by decide, by decide, hLines, ?_⟩
  rw [Header.read_struct (by decide) (by decide) (by decide) (by decide) hLines]
  decide

end HeaderDigest
