import HeaderDigest.Proofs.DataType.Record
import HeaderDigest.Proofs.Header.Lookup
import HeaderDigest.Proofs.Prototype.Record
import HeaderDigest.Proofs.Survey.Position

/-!
# The records of a header

Each record of a header is read from a declaration and a block, so what holds of every record that
is read holds of every record of every header.
-/

namespace HeaderDigest

open Text

structure Header.WellFormed (filename : Text) (includePrivate : Bool) (header : Header) : Prop where
  functions_ascending : header.functions.Pairwise fun a b => bytes a.name < bytes b.name
  dataTypes_ascending : header.dataTypes.Pairwise fun a b => bytes a.name < bytes b.name
  functions : ∀ record ∈ header.functions, record.WellFormed filename includePrivate
  dataTypes : ∀ record ∈ header.dataTypes, record.WellFormed filename
  brief : IsNormal header.brief
  description : IsNormal header.description
  filename : header.filename = filename

variable {file : Text} {includePrivate : Bool} {all : List Text}

theorem exists_behind_of_mem_survey {met : Visit}
    (h : Finding.visit met ∈ survey file includePrivate all) :
    met.doc.WellFormed ∧ ∃ start,
      met.outcome = Outcome.behind file includePrivate all met.doc start := by
  obtain ⟨position, length, -, -, rfl⟩ := mem_surveyAt h
  exact ⟨Doc.wellFormed_read _, _, outcome_visitAt file includePrivate all position length⟩

theorem Finding.exists_read_of_function? {finding : Finding} {record : Function}
    (hFinding : finding ∈ survey file includePrivate all) (h : finding.function? = some record) :
    ∃ declaration doc line, doc.WellFormed ∧
      Function.read declaration doc file line includePrivate = .ok record := by
  obtain ⟨met, span, rfl, hOutcome⟩ := Finding.function?_eq_some h
  obtain ⟨hDoc, start, hBehind⟩ := exists_behind_of_mem_survey hFinding
  obtain ⟨-, line, -, -, hRead⟩ := Outcome.behind_eq_function (hBehind.symm.trans hOutcome)
  exact ⟨_, _, _, hDoc, hRead⟩

theorem Finding.exists_read?_of_dataType? {finding : Finding} {record : DataType}
    (hFinding : finding ∈ survey file includePrivate all) (h : finding.dataType? = some record) :
    ∃ seedLine declaration doc line, doc.WellFormed ∧
      DataType.read? seedLine declaration doc file line = some record := by
  obtain ⟨met, span, rfl, hOutcome⟩ := Finding.dataType?_eq_some h
  obtain ⟨hDoc, start, hBehind⟩ := exists_behind_of_mem_survey hFinding
  obtain ⟨-, line, -, -, hRead⟩ := Outcome.behind_eq_dataType (hBehind.symm.trans hOutcome)
  exact ⟨_, _, _, _, hDoc, hRead⟩

theorem Finding.wellFormed_fileDoc? {finding : Finding} {doc : Doc}
    (hFinding : finding ∈ survey file includePrivate all) (h : finding.fileDoc? = some doc) :
    doc.WellFormed := by
  unfold Finding.fileDoc? at h
  split at h
  · cases h
    exact (exists_behind_of_mem_survey hFinding).1
  · cases h

/-- The block that describes a file, or what stands for it where there is none. -/
theorem wellFormed_fileDoc :
    (((survey file includePrivate all).findSome? Finding.fileDoc?).getD {}).WellFormed := by
  cases hFound : (survey file includePrivate all).findSome? Finding.fileDoc? with
  | none => exact Doc.wellFormed_empty
  | some doc =>
    obtain ⟨finding, hFinding, hDoc⟩ := List.exists_of_findSome?_eq_some hFound
    exact Finding.wellFormed_fileDoc? hFinding hDoc

section Header

variable {text filename path : Text}

/-- The declaration and the block from which a function in a header was read. -/
theorem Header.exists_read_of_mem_functions {record : Function}
    (h : record ∈ (Header.read text filename path includePrivate).functions) :
    ∃ declaration doc line, doc.WellFormed ∧
      Function.read declaration doc filename line includePrivate = .ok record := by
  obtain ⟨finding, hFinding, hFunction⟩ := List.mem_filterMap.mp (mem_of_mem_collected h)
  exact finding.exists_read_of_function? hFinding hFunction

theorem Header.exists_read?_of_mem_dataTypes {record : DataType}
    (h : record ∈ (Header.read text filename path includePrivate).dataTypes) :
    ∃ seedLine declaration doc line, doc.WellFormed ∧
      DataType.read? seedLine declaration doc filename line = some record := by
  obtain ⟨finding, hFinding, hDataType⟩ := List.mem_filterMap.mp (mem_of_mem_collected h)
  exact finding.exists_read?_of_dataType? hFinding hDataType

theorem Header.wellFormed_of_mem_functions {record : Function}
    (h : record ∈ (Header.read text filename path includePrivate).functions) :
    record.WellFormed filename includePrivate := by
  obtain ⟨declaration, doc, line, hDoc, hRead⟩ := Header.exists_read_of_mem_functions h
  exact Function.wellFormed_read hDoc hRead

theorem Header.wellFormed_of_mem_dataTypes {record : DataType}
    (h : record ∈ (Header.read text filename path includePrivate).dataTypes) : record.WellFormed filename := by
  obtain ⟨seedLine, declaration, doc, line, hDoc, hRead⟩ := Header.exists_read?_of_mem_dataTypes h
  exact DataType.wellFormed_read? hDoc hRead

end Header

/-- The header of any text holds whole records, whose names ascend in their bytes. -/
theorem Header.read_wellFormed (text filename path : Text) (includePrivate : Bool) :
    (Header.read text filename path includePrivate).WellFormed filename includePrivate where
  functions_ascending := (ascending_collected Function.name _).bytes
  dataTypes_ascending := (ascending_collected DataType.name _).bytes
  functions _ := Header.wellFormed_of_mem_functions
  dataTypes _ := Header.wellFormed_of_mem_dataTypes
  brief := wellFormed_fileDoc.brief
  description := wellFormed_fileDoc.description
  filename := rfl

end HeaderDigest
