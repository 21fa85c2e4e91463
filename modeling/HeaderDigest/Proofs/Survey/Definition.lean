import HeaderDigest.Proofs.Survey.Provenance
import HeaderDigest.Proofs.Survey.Reindented
import HeaderDigest.Proofs.Survey.TypeDeclaration

/-!
# Definitions that are read again

The definition in the record of a type is a declaration that stands for itself. Behind a comment
of its own it is the only declaration of a header, and read as what it was read as before.
-/

namespace HeaderDigest

open Text

variable {includePrivate : Bool}

/-- The lines from which the record of a type in a header was read. -/
theorem Header.exists_read?_of_mem {text filename path : Text} {record : DataType}
    (h : record ∈ (Header.read text filename path includePrivate).dataTypes) :
    ∃ position seedLine rest doc, (lines text).drop position = seedLine :: rest ∧
      LineRole.of (trim seedLine) = .seed .dataType ∧
      DataType.read? seedLine (Span.dataType position (seedLine :: rest)).text doc filename
        (position + 1) = some record := by
  obtain ⟨finding, hFinding, hDataType⟩ := List.mem_filterMap.mp (mem_of_mem_collected h)
  obtain ⟨met, span, rfl, hOutcome⟩ := Finding.dataType?_eq_some hDataType
  obtain ⟨start, length, -, -, hMet⟩ := mem_surveyAt hFinding
  have hBehind := outcome_visitAt filename includePrivate (lines text) start length
  rw [← hMet] at hBehind
  obtain ⟨-, line, hSeed, rfl, hRead⟩ := Outcome.behind_eq_dataType (hBehind.symm.trans hOutcome)
  obtain ⟨-, hLine, seedLine, hSeedLine, hRole⟩ := Seed.locate_eq_some hSeed
  have hDrop := List.drop_eq_getElem_cons hLine
  rw [(List.getElem?_eq_some_iff.mp hSeedLine).2] at hDrop
  rw [← Span.dataType_drop hLine, hDrop] at hRead
  exact ⟨line, seedLine, _, met.doc, hDrop, hRole, hRead⟩

/-- The definition of a type is, blanks at the ends of its lines aside, one declaration, and the
record is read from it. -/
theorem Header.exists_isTypeDeclaration_of_mem {text filename path : Text} {record : DataType}
    (h : record ∈ (Header.read text filename path includePrivate).dataTypes) :
    ∃ seedLine more doc line, IsTypeDeclaration seedLine more ∧ (∀ l ∈ seedLine :: more, '\n' ∉ l) ∧
      Reindented (lines record.definition) (seedLine :: more) ∧
      DataType.read? seedLine (joinLines (seedLine :: more)) doc filename line = some record := by
  obtain ⟨position, seedLine, rest, doc, hDrop, hRole, hRead⟩ := Header.exists_read?_of_mem h
  obtain ⟨more, hText, hMore, hSpan⟩ := Span.exists_dataType_eq position seedLine rest
  rw [hText] at hRead
  obtain ⟨-, -, -, hDefinition⟩ := DataType.read?_eq_some hRead
  have hFeed : ∀ l ∈ seedLine :: more, '\n' ∉ l := by
    intro l hl
    have hTaken : l ∈ seedLine :: rest := List.cons_subset_cons seedLine hMore hl
    rw [← hDrop] at hTaken
    exact not_mem_of_mem_lines (List.mem_of_mem_drop hTaken)
  have hBlank : trim seedLine ≠ [] := by
    intro hNil
    rw [hNil] at hRole
    cases hRole
  refine ⟨seedLine, more, doc, position + 1, ⟨hRole, _, hSpan⟩, hFeed, ?_, hRead⟩
  rw [hDefinition]
  exact reindented_lines_trim_joinLines hBlank hFeed

/-- The definition of a type, put behind a comment of one line without tags, is read as a type of
the same kind and name with the same members, and as nothing else. -/
theorem Header.read_definition {text filename path : Text} {record : DataType}
    (hRecord : record ∈ (Header.read text filename path includePrivate).dataTypes)
    {comment retold : Text} (hOpens : opensBlock comment = true) (hCloses : closesItself comment = true)
    (hTags : (Doc.read comment).tags = []) (hLines : lines retold = comment :: lines record.definition)
    (filename' path' : Text) (includePrivate' : Bool) :
    ∃ again, (Header.read retold filename' path' includePrivate').dataTypes = [again] ∧
      (Header.read retold filename' path' includePrivate').functions = [] ∧
      again.kind = record.kind ∧ again.name = record.name ∧
      again.members.map Member.declared = record.members.map Member.declared := by
  obtain ⟨seedLine, more, doc, line, hDeclaration, hFeed, hDefinition, hRead⟩ :=
    Header.exists_isTypeDeclaration_of_mem hRecord
  obtain ⟨again, hAgain, hKind, hName, hMembers⟩ :=
    DataType.exists_read?_of_read? hRead (Doc.read (joinLines [comment])) filename' 2
  have hReindented : Reindented (lines retold) (comment :: seedLine :: more) := by
    rw [hLines]
    exact .cons rfl hDefinition
  have hComment : '\n' ∉ comment := not_mem_of_mem_lines (hLines ▸ List.mem_cons_self)
  have hBlock : blockLength? [comment] = some 1 := by simp [blockLength?, hOpens, hCloses]
  have hFileDoc : (Doc.read (joinLines [comment])).isFileDoc = false := by
    rw [joinLines_singleton, Doc.isFileDoc, Doc.hasTag, hTags]
    rfl
  have hHeader : (Header.read retold filename' path' includePrivate').packed =
      Header.packed ⟨filename', path', [], [], [], [again]⟩ := by
    have hSurvey := surveyAt_reindented filename' includePrivate' hReindented
      (fun _ => not_mem_of_mem_lines) (List.forall_mem_cons.mpr ⟨hComment, hFeed⟩) 0
    rw [Header.read, Header.packed_ofSurvey, survey_eq_surveyAt, hSurvey, ← Header.packed_ofSurvey]
    exact congrArg Header.packed
      (Header.ofSurvey_typeDeclaration includePrivate' hBlock hFileDoc hDeclaration hAgain path')
  have hDataTypes : (Header.read retold filename' path' includePrivate').dataTypes.map DataType.packed =
      [again.packed] := congrArg Header.dataTypes hHeader
  obtain ⟨found, hFound, hPacked⟩ := List.map_eq_singleton_iff.mp hDataTypes
  refine ⟨found, hFound, congrArg Header.functions hHeader, ?_, ?_, ?_⟩
  · exact (congrArg DataType.kind hPacked).trans hKind
  · exact (congrArg DataType.name hPacked).trans hName
  · exact (congrArg (fun record => record.members.map Member.declared) hPacked).trans hMembers

def boxRecord : DataType where
  name := "box".toList
  kind := .struct
  definition := "struct box \x7b\nint w;\t\n\t\x7d;".toList
  brief := []
  description := "A box.".toList
  members := [⟨"int".toList, "w".toList, "Its width.".toList⟩]
  file := "box.h".toList
  line := 4

def retoldBoxText : Text := "/** Told again. */\n".toList ++ boxRecord.definition

theorem Header.read_retoldBoxText :
    boxRecord ∈ (Header.read indentedBoxText "box.h".toList "inc/box.h".toList false).dataTypes ∧
      ∃ again, (Header.read retoldBoxText "again.h".toList "again.h".toList true).dataTypes = [again] ∧
        (Header.read retoldBoxText "again.h".toList "again.h".toList true).functions = [] ∧
        again.kind = boxRecord.kind ∧ again.name = boxRecord.name ∧
        again.members.map Member.declared = boxRecord.members.map Member.declared := by
  have hSurvey : (survey "box.h".toList false (lines indentedBoxText)).filterMap Finding.dataType? =
      [boxRecord] := by decide
  have hRecord : boxRecord ∈
      (Header.read indentedBoxText "box.h".toList "inc/box.h".toList false).dataTypes := by
    refine (mem_collected_iff DataType.name _ boxRecord).mpr ?_
    rw [hSurvey]
    decide
  have hLines : lines retoldBoxText = "/** Told again. */".toList :: lines boxRecord.definition := by decide
  exact ⟨hRecord, Header.read_definition hRecord (by decide) (by decide) (by decide) hLines
    "again.h".toList "again.h".toList true⟩

end HeaderDigest
