import HeaderDigest.Proofs.Doc.Normal
import HeaderDigest.Proofs.Prototype.Form
import HeaderDigest.Proofs.Text.Parts

/-!
# The record of a function

No record of a function is partial. Its name is one that C can call, its return type is one line
that says something, its parameters have types, and its texts are normal, whatever the declaration.
-/

namespace HeaderDigest

open Text

/-- A name that a digest shows when it leaves private functions out. -/
structure IsShown (name : Text) : Prop where
  start : name.head? ≠ some '_'
  part : ¬"internal".toList <:+: lowercase name

structure Parameter.WellFormed (parameter : Parameter) : Prop where
  type : parameter.type ≠ []
  unnamed : parameter.name = [] → parameter.description = []
  description : IsNormal parameter.description

structure Function.WellFormed (file : Text) (includePrivate : Bool) (record : Function) : Prop where
  identifier : isIdentifier record.name = true
  functionName : record.name ∉ nonFunctionWords
  shown : includePrivate = false → IsShown record.name
  returnType_line : '\n' ∉ record.returnType
  returnType_normal : IsNormal record.returnType
  returnType_alphanum : ∃ c ∈ record.returnType, c.isAlphanum = true
  parameters : ∀ parameter ∈ record.parameters, parameter.WellFormed
  brief : IsNormal record.brief
  description : IsNormal record.description
  file : record.file = file

theorem isShown_of_isPrivateName {name : Text} (h : isPrivateName name = false) : IsShown name := by
  obtain ⟨hStart, hPart⟩ := Bool.or_eq_false_iff.mp h
  constructor
  · intro hHead
    obtain ⟨rest, rfl⟩ := List.head?_eq_some_iff.mp hHead
    cases hStart
  · rw [← hasPart_iff, hPart]
    decide

/-- Every head that is cut has a return type on one line. -/
theorem IsCut.returnType {declaration body before name gap list : Text}
    (hBody : declarationBody? declaration = some body) (h : IsCut body before name gap list) :
    '\n' ∉ trim before ∧ IsNormal (trim before) ∧ ∃ c ∈ trim before, c.isAlphanum = true := by
  obtain ⟨hSpaced, -⟩ := singleSpaced_declarationBody? hBody
  simp only [h.text, List.append_assoc] at hSpaced
  have hTrim : SingleSpaced (trim before) := by
    obtain ⟨u, v, -, -, -, hBefore⟩ := exists_eq_append_trim before
    have hFront := hSpaced.of_append_left
    rw [hBefore] at hFront
    exact hFront.of_append_left.of_append_right
  refine ⟨?_, normalize_eq_self hTrim (trimmed_trim before), ?_⟩
  · intro hFeed
    exact absurd (hTrim.eq_space hFeed (by decide)) (by decide)
  · have hAlphanum := (any_isAlphanum_trim before).trans h.alphanum
    simpa only [List.any_eq_true] using hAlphanum

theorem Function.wellFormed_readParameters {doc : Doc} (hDoc : doc.WellFormed) (list : Text) :
    ∀ parameter ∈ Function.readParameters list doc, parameter.WellFormed := by
  intro parameter hParameter
  unfold Function.readParameters at hParameter
  split at hParameter
  · cases hParameter
  · obtain ⟨declarator, -, hRead⟩ := List.mem_filterMap.mp hParameter
    split at hRead
    · cases hRead
    · rename_i hType
      cases hRead
      exact {
        type := fun hNil => hType (List.isEmpty_iff.mpr hNil)
        unnamed := fun hNil => (congrArg doc.param hNil).trans hDoc.params.unnamed
        description := hDoc.params.normal declarator.name }

theorem Function.wellFormed_read {declaration : Text} {doc : Doc} {file : Text} {line : Nat}
    {includePrivate : Bool} {record : Function} (hDoc : doc.WellFormed)
    (h : Function.read declaration doc file line includePrivate = .ok record) :
    record.WellFormed file includePrivate := by
  obtain ⟨head, list, parts, hParts, hShown, rfl⟩ := Function.exists_hasParts_of_read h
  obtain ⟨body, before, gap, inner, hBody, hCut, hType, -⟩ := exists_isCut_of_hasParts hParts
  obtain ⟨hLine, hNormal, hAlphanum⟩ := hCut.returnType hBody
  rw [← hType] at hLine hNormal hAlphanum
  exact {
    identifier := hParts.identifier
    functionName := fun hWord => by
      have hContains := List.contains_iff_mem.mpr hWord
      exact absurd (hParts.functionName.symm.trans hContains) (by decide)
    shown := fun hPrivate => isShown_of_isPrivateName
      (hShown.resolve_left (by rw [hPrivate]; decide))
    returnType_line := hLine
    returnType_normal := hNormal
    returnType_alphanum := hAlphanum
    parameters := Function.wellFormed_readParameters hDoc list
    brief := hDoc.brief
    description := hDoc.description
    file := rfl }

end HeaderDigest
