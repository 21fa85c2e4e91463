import HeaderDigest.Proofs.DataType.Reindented
import HeaderDigest.Proofs.Grammar.Member
import HeaderDigest.Proofs.Survey.TypeDeclaration

/-!
# Structs as they are written

A struct is written as a line that opens its braces, a line for each member and a line that closes
the braces. These lines are one declaration as long as a span may take them all, and the struct is
read from them.
-/

namespace HeaderDigest

open Text

def structOpening (name : Text) : Text := TypeKind.struct.keyword ++ ' ' :: name ++ [' ', '{']

def structClosing : Text := ['}', ';']

/-- The lines behind the opening one. -/
def structBody (members : List CMember) : List Text := members.map CMember.line ++ [structClosing]

section Opening

variable {name : Text} (hName : isIdentifier name = true)

include hName

theorem not_mem_structOpening {c : Char} (hc : c ∈ ['(', ';', '/', '\n', '}']) : c ∉ structOpening name := by
  have hOther : isNameChar c = false ∧ c ∉ TypeKind.struct.keyword ∧ c ∉ [' ', '{'] := by
    revert c
    decide
  obtain ⟨hNameChar, hKeyword, hRest⟩ := hOther
  rw [structOpening, List.mem_append, List.mem_append, List.mem_cons]
  rintro ((h | h | h) | h)
  · exact hKeyword h
  · exact hRest (h ▸ List.mem_cons_self)
  · rw [isNameChar_of_mem hName c h] at hNameChar
    cases hNameChar
  · exact hRest h

theorem role_structOpening : LineRole.of (trim (structOpening name)) = .seed .dataType := by
  have hTrimmed : Trimmed (structOpening name) := by
    refine ⟨rfl, ?_⟩
    rw [endsBlank, structOpening, List.getLast?_append]
    rfl
  have hKeyword : mentionsTypeKeyword (structOpening name) = true := by
    rw [mentionsTypeKeyword, structOpening, List.append_assoc, List.cons_append,
      runs_append_cons_of_neg (by decide)]
    rfl
  have hFunction : looksLikeFunctionStart (structOpening name) = false := by
    have hParenthesis : (structOpening name).contains '(' = false := by
      rw [Bool.eq_false_iff]
      intro h
      exact not_mem_structOpening hName (by decide) (List.contains_iff_mem.mp h)
    simp only [looksLikeFunctionStart, trim_eq_self hTrimmed, hParenthesis, Bool.not_false, Bool.or_true,
      if_true, ite_self]
  have hSeed : isTypeSeed (structOpening name) = true := by
    rw [isTypeSeed, hKeyword, hFunction]
    rfl
  rw [trim_eq_self hTrimmed, LineRole.of, hSeed]
  rfl

theorem withoutComments_structOpening : withoutComments (structOpening name) = structOpening name :=
  withoutComments_of_not_mem (not_mem_structOpening hName (by decide))

theorem balance_structOpening : balance '{' '}' (structOpening name) = 1 := by
  have hNameBalance : balance '{' '}' name = 0 := by
    apply balance_eq_zero (by decide)
    apply Balanced.of_not_mem
    · exact fun h => absurd (isNameChar_of_mem hName '{' h) (by decide)
    · exact fun h => absurd (isNameChar_of_mem hName '}' h) (by decide)
  have hText : structOpening name = TypeKind.struct.keyword ++ [' '] ++ name ++ [' ', '{'] := by
    simp [structOpening]
  rw [hText, balance_append, balance_append, hNameBalance]
  rfl

/-- The opening line alone names the struct, whatever the code of the declaration. -/
theorem nameType?_structOpening (code : Text) :
    nameType? (withoutAttributes (structOpening name)) code = some (.struct, name) := by
  have hAttributes : withoutAttributes (structOpening name) = structOpening name :=
    withoutAttributes_of_not_mem (not_mem_structOpening hName (by decide))
  have hTake : (name ++ [' ', '{']).takeWhile isWordChar = name := by
    rw [takeWhile_append_cons_of_neg (by decide), List.takeWhile_eq_self_iff]
    exact fun c hc => isWordChar_of_isNameChar (isNameChar_of_mem hName c hc)
  have hStart : trimStart (name ++ [' ', '{']) = name ++ [' ', '{'] := by
    obtain ⟨c, rest, rfl, hNameStart, -⟩ := exists_eq_cons_of_isIdentifier hName
    exact trimStart_eq_self (startsBlank_of_isNameStart ⟨c, _, rfl, hNameStart⟩)
  have hWord : wordAfter? TypeKind.struct.keyword (structOpening name) = some name := by
    have hDrop : dropPrefix? TypeKind.struct.keyword (structOpening name) = some (' ' :: name ++ [' ', '{']) := by
      rw [structOpening, List.append_assoc, dropPrefix?_append]
    have hNe : name.isEmpty = false := by
      obtain ⟨c, rest, rfl, -⟩ := exists_eq_cons_of_isIdentifier hName
      rfl
    have hBlank : isBlank ' ' = true := rfl
    simp only [wordAfter?, hDrop, List.cons_append]
    rw [if_pos hBlank, hStart, hTake, nonEmpty?, hNe]
    rfl
  have hFound : NameRule.name? .afterKeyword .struct (structOpening name) code = some name := by
    have hText : structOpening name = 's' :: ("truct".toList ++ ' ' :: name ++ [' ', '{']) := rfl
    rw [hText] at hWord ⊢
    rw [NameRule.name?, findWordAfter?, if_neg Bool.false_ne_true, hWord]
  rw [nameType?, typeRules, List.findSome?_cons, hAttributes]
  simp only [hFound, Option.map_some]

end Opening

variable {name : Text} {members : List CMember}

theorem typeLength?_structBody (members : List CMember) :
    typeLength? true 1 (structBody members) = some (members.length + 1) := by
  induction members with
  | nil => rfl
  | cons member more ih =>
    have hRest := member.typeLength?_line Int.one_pos (structBody more)
    rw [ih] at hRest
    exact hRest

theorem readBody_structBody (members : List CMember) (doc : Doc) :
    readBody doc 1 (structBody members) = members.map fun member => member.read doc := by
  induction members with
  | nil => rfl
  | cons member more ih =>
    have hRest := member.readBody_line Int.one_pos doc (structBody more)
    rw [ih] at hRest
    exact hRest

theorem typeLength?_struct (hName : isIdentifier name = true) (members : List CMember) :
    typeLength? false 0 (structOpening name :: structBody members) = some (members.length + 2) := by
  have hSemicolon : (structOpening name).contains ';' = false := by
    rw [Bool.eq_false_iff]
    intro h
    exact not_mem_structOpening hName (by decide) (List.contains_iff_mem.mp h)
  have hBrace : (structOpening name).contains '{' = true := by simp [structOpening]
  simp only [typeLength?, withoutComments_structOpening hName, hSemicolon, hBrace, Bool.or_true,
    balance_structOpening hName, Int.zero_add, typeLength?_structBody members, Bool.false_and,
    Bool.false_eq_true, if_false, Option.map_some]

/-- The lines of a struct are one declaration if a span may be as long. -/
theorem isTypeDeclaration_struct (hName : isIdentifier name = true)
    (hLength : members.length + 2 ≤ spanLimit) :
    IsTypeDeclaration (structOpening name) (structBody members) where
  role := role_structOpening hName
  span := by
    have hLines : (structOpening name :: structBody members).length = members.length + 2 := by
      simp [structBody]
    refine ⟨true, fun position => ?_⟩
    rw [Span.dataType, List.take_of_length_le (hLines.trans_le hLength), typeLength?_struct hName]
    simp only [hLines, List.take_of_length_le (Nat.le_of_eq hLines)]

theorem noLineFeed_struct (hName : isIdentifier name = true) :
    ∀ line ∈ structOpening name :: structBody members, '\n' ∉ line := by
  rw [structBody, List.forall_mem_cons, List.forall_mem_append]
  refine ⟨not_mem_structOpening hName (by decide), ?_, by decide⟩
  intro line hLine
  obtain ⟨member, -, rfl⟩ := List.mem_map.mp hLine
  exact member.noLineFeed_line

theorem readMembers_struct (hName : isIdentifier name = true) (members : List CMember) (doc : Doc) :
    readMembers (joinLines (structOpening name :: structBody members)) doc =
      members.map fun member => member.read doc := by
  have hBrace : (structOpening name).contains '{' = true := by simp [structOpening]
  rw [readMembers_eq, readMemberLines_reindented (reindented_lines_joinLines (noLineFeed_struct hName)),
    readMemberLines_cons, if_pos hBrace, withoutComments_structOpening hName,
    balance_structOpening hName, readBody_structBody]

/-- The record of a struct. -/
def structRecord (name : Text) (members : List CMember) (doc : Doc) (file : Text) (line : Nat) :
    DataType where
  name := name
  kind := .struct
  definition := trim (joinLines (structOpening name :: structBody members))
  brief := doc.brief
  description := doc.description
  members := members.map fun member => member.read doc
  file := file
  line := line

theorem read?_struct (hName : isIdentifier name = true) (members : List CMember) (doc : Doc)
    (file : Text) (line : Nat) :
    DataType.read? (structOpening name) (joinLines (structOpening name :: structBody members)) doc file
      line = some (structRecord name members doc file line) := by
  rw [DataType.read?, nameType?_structOpening hName, Option.map_some, structRecord]
  simp only [if_true, readMembers_struct hName]

end HeaderDigest
