import HeaderDigest.Proofs.Header.Assembly
import HeaderDigest.Proofs.Survey.Position

/-!
# Headers of one documented type

A comment and the declaration of a type behind it, and nothing else, are one visit of the survey
and one record of the header.
-/

namespace HeaderDigest

open Text

/-- Lines that are one declaration of a type, of which the first is the seed line. -/
structure IsTypeDeclaration (seedLine : Text) (more : List Text) : Prop where
  role : LineRole.of (trim seedLine) = .seed .dataType
  span : ∃ terminated, ∀ position, Span.dataType position (seedLine :: more) =
    ⟨position, position + (seedLine :: more).length, joinLines (seedLine :: more), terminated⟩

variable {file seedLine : Text} {includePrivate : Bool} {block more : List Text} {record : DataType}

/-- The survey visits the comment and reads the record. -/
theorem survey_typeDeclaration (includePrivate : Bool) (hBlock : blockLength? block = some block.length)
    (hFileDoc : (Doc.read (joinLines block)).isFileDoc = false) (h : IsTypeDeclaration seedLine more)
    (hRead : DataType.read? seedLine (joinLines (seedLine :: more)) (Doc.read (joinLines block)) file
      (block.length + 1) = some record) :
    ∃ visited doc span, survey file includePrivate (block ++ seedLine :: more) =
      [.visit ⟨visited, doc, .dataType span record⟩] := by
  obtain ⟨terminated, hSpan⟩ := h.span
  let span : Span := ⟨block.length, block.length + (seedLine :: more).length,
    joinLines (seedLine :: more), terminated⟩
  have hSeed : Seed.search block.length .nothing ((seedLine :: more).take lookaheadLines) =
      some ⟨.dataType, block.length⟩ := by
    have hTake : (seedLine :: more).take lookaheadLines = seedLine :: more.take (lookaheadLines - 1) := rfl
    rw [hTake, Seed.search, h.role]
  have hVisit : Visit.ofBlock file includePrivate 0 block.length (block ++ seedLine :: more) =
      ⟨⟨joinLines block, 0, block.length⟩, Doc.read (joinLines block), .dataType span record⟩ := by
    simp only [Visit.ofBlock, List.take_left, List.drop_left, hFileDoc, Bool.false_eq_true, if_false,
      Nat.zero_add, hSeed, Outcome.ofSeed, Nat.sub_self, List.drop_zero, hSpan, List.headD_cons, hRead]
    rfl
  have hNext : (Visit.ofBlock file includePrivate 0 block.length (block ++ seedLine :: more)).next =
      (block ++ seedLine :: more).length := by
    rw [hVisit, List.length_append]
    rfl
  have hLength : blockLength? (block ++ seedLine :: more) = some block.length :=
    blockLength?_append hBlock (seedLine :: more)
  have hPositive : 0 < (block ++ seedLine :: more).length := by
    rw [List.length_append, List.length_cons]
    omega
  refine ⟨⟨joinLines block, 0, block.length⟩, Doc.read (joinLines block), span, ?_⟩
  rw [survey, surveyFrom_of_block hLength (hNext ▸ hPositive), hNext, Nat.sub_zero, List.drop_length,
    hVisit]
  rfl

theorem Header.ofSurvey_typeDeclaration (includePrivate : Bool)
    (hBlock : blockLength? block = some block.length)
    (hFileDoc : (Doc.read (joinLines block)).isFileDoc = false) (h : IsTypeDeclaration seedLine more)
    (hRead : DataType.read? seedLine (joinLines (seedLine :: more)) (Doc.read (joinLines block)) file
      (block.length + 1) = some record) (path : Text) :
    Header.ofSurvey file path (survey file includePrivate (block ++ seedLine :: more)) =
      { filename := file
        path := path
        brief := []
        description := []
        functions := []
        dataTypes := [record] } := by
  obtain ⟨visited, doc, span, hSurvey⟩ := survey_typeDeclaration includePrivate hBlock hFileDoc h hRead
  have hFunctions := collected_nil Function.name
  have hDataTypes := collected_singleton DataType.name record
  rw [hSurvey]
  calc Header.ofSurvey file path [.visit ⟨visited, doc, .dataType span record⟩]
    _ = { filename := file
          path := path
          brief := []
          description := []
          functions := collected Function.name []
          dataTypes := collected DataType.name [record] } := rfl
    _ = _ := by rw [hFunctions, hDataTypes]

end HeaderDigest
