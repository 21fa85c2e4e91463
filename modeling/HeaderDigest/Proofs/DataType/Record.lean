import HeaderDigest.DataType.Basic
import HeaderDigest.Proofs.Declarator.PointerGroup
import HeaderDigest.Proofs.Doc.Normal

/-!
# The record of a type

Each rule that names a type takes a run of word characters for the name, and none that is empty.
Of the four kinds only a struct has members.
-/

namespace HeaderDigest

open Text

def IsWordRun (name : Text) : Prop := name ≠ [] ∧ ∀ c ∈ name, isWordChar c = true

structure DataType.WellFormed (file : Text) (record : DataType) : Prop where
  name : IsWordRun record.name
  members_kind : record.members ≠ [] → record.kind = .struct
  members : ∀ member ∈ record.members, IsNormal member.description
  brief : IsNormal record.brief
  description : IsNormal record.description
  file : record.file = file

theorem isWordRun_takeWhile {s : Text} (h : s.takeWhile isWordChar ≠ []) :
    IsWordRun (s.takeWhile isWordChar) := ⟨h, List.all_eq_true.mp List.all_takeWhile⟩

theorem nonEmpty?_eq_some {s name : Text} (h : nonEmpty? s = some name) : s ≠ [] ∧ name = s := by
  unfold nonEmpty? at h
  split at h
  · cases h
  · rename_i hEmpty
    cases h
    exact ⟨fun hNil => hEmpty (List.isEmpty_iff.mpr hNil), rfl⟩

theorem isWordRun_of_nonEmpty? {s name : Text} (h : nonEmpty? (s.takeWhile isWordChar) = some name) :
    IsWordRun name := by
  obtain ⟨hNe, rfl⟩ := nonEmpty?_eq_some h
  exact isWordRun_takeWhile hNe

theorem isWordRun_wordAfter? {keyword s name : Text} (h : wordAfter? keyword s = some name) :
    IsWordRun name := by
  unfold wordAfter? at h
  split at h
  · split at h
    · exact isWordRun_of_nonEmpty? h
    · cases h
  · cases h

theorem isWordRun_findWordAfter? {keyword name : Text} {afterWord : Bool} {s : Text}
    (h : findWordAfter? keyword afterWord s = some name) : IsWordRun name := by
  induction s generalizing afterWord with
  | nil => cases h
  | cons c s ih =>
    unfold findWordAfter? at h
    split at h
    · rename_i found hFound
      cases h
      split at hFound
      · cases hFound
      · exact isWordRun_wordAfter? hFound
    · exact ih h

theorem isWordRun_nameAfterBrace? {code name : Text} (h : nameAfterBrace? code = some name) :
    IsWordRun name := by
  unfold nameAfterBrace? at h
  simp only at h
  split at h
  · exact isWordRun_of_nonEmpty? h
  · cases h

theorem isWordRun_nameBeforeSemicolon? {code name : Text} (h : nameBeforeSemicolon? code = some name) :
    IsWordRun name := by
  unfold nameBeforeSemicolon? at h
  split at h
  · obtain ⟨hNe, rfl⟩ := nonEmpty?_eq_some h
    rw [splitEnding] at hNe ⊢
    obtain ⟨hRun, hWord⟩ := isWordRun_takeWhile fun hNil => hNe (congrArg List.reverse hNil)
    exact ⟨hNe, fun c hc => hWord c (List.mem_reverse.mp hc)⟩
  · cases h

theorem isWordRun_nameInPointerGroup? {code name : Text} (h : nameInPointerGroup? code = some name) :
    IsWordRun name := by
  induction code with
  | nil => cases h
  | cons c code ih =>
    unfold nameInPointerGroup? at h
    split at h
    · rename_i group hGroup
      split at h
      · rename_i hNamed
        cases h
        obtain ⟨-, hEmpty⟩ := Bool.and_eq_true_iff.mp hNamed
        obtain ⟨text, hText, -⟩ := PointerGroup.exists_isGroupText_of_read? hGroup
        exact ⟨by simpa using hEmpty, hText.word⟩
      · exact ih h
    · exact ih h

theorem NameRule.isWordRun {rule : NameRule} {kind : TypeKind} {seedLine code name : Text}
    (h : rule.name? kind seedLine code = some name) : IsWordRun name := by
  unfold NameRule.name? at h
  cases rule with
  | afterKeyword => exact isWordRun_findWordAfter? h
  | afterClosingBrace =>
    simp only at h
    split at h
    · exact isWordRun_nameAfterBrace? h
    · cases h
  | beforeSemicolon =>
    simp only at h
    split at h
    · exact isWordRun_nameBeforeSemicolon? h
    · cases h
  | inPointerGroup =>
    simp only at h
    split at h
    · exact isWordRun_nameInPointerGroup? h
    · cases h

theorem isWordRun_nameType? {seedLine code name : Text} {kind : TypeKind}
    (h : nameType? seedLine code = some (kind, name)) : IsWordRun name := by
  obtain ⟨⟨kind', rule⟩, -, hRule⟩ := List.exists_of_findSome?_eq_some h
  obtain ⟨name', hName, hPair⟩ := Option.map_eq_some_iff.mp hRule
  cases hPair
  exact rule.isWordRun hName

theorem Member.description_of_read? {declarator : Text} {doc : Doc} {member : Member}
    (h : Member.read? declarator doc = some member) : member.description = doc.member member.name := by
  unfold Member.read? at h
  simp only at h
  split at h
  · cases h
  · cases h
    rfl

theorem description_of_mem_readBody {doc : Doc} {depth : Int} {ls : List Text} {member : Member}
    (h : member ∈ readBody doc depth ls) : member.description = doc.member member.name := by
  induction ls generalizing depth with
  | nil => cases h
  | cons raw rest ih =>
    unfold readBody at h
    simp only at h
    split at h
    · cases h
    · split at h
      · exact ih h
      · split at h
        · cases h
        · split at h
          · obtain hFirst | hRest := List.mem_append.mp h
            · exact Member.description_of_read? (Option.mem_toList.mp hFirst)
            · exact ih hRest
          · exact ih h

theorem description_of_mem_readMembers {definition : Text} {doc : Doc} {member : Member}
    (h : member ∈ readMembers definition doc) : member.description = doc.member member.name := by
  unfold readMembers at h
  split at h
  · exact description_of_mem_readBody h
  · cases h

theorem DataType.wellFormed_read? {seedLine declaration : Text} {doc : Doc} {file : Text} {line : Nat}
    {record : DataType} (hDoc : doc.WellFormed)
    (h : DataType.read? seedLine declaration doc file line = some record) :
    record.WellFormed file := by
  obtain ⟨⟨kind, name⟩, hName, rfl⟩ := Option.map_eq_some_iff.mp h
  refine ⟨isWordRun_nameType? hName, ?_, ?_, hDoc.brief, hDoc.description, rfl⟩
  · intro hMembers
    by_contra hKind
    exact hMembers (if_neg hKind)
  · intro member hMember
    simp only at hMember
    split at hMember
    · rw [description_of_mem_readMembers hMember]
      exact hDoc.members.normal member.name
    · cases hMember

end HeaderDigest
