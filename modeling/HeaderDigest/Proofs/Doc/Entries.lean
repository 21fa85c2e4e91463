import HeaderDigest.Doc.Reader

/-!
# The entries of a documentation block

Each `@member` tag that begins with a name is an entry. What a block says of a member is the text
of the last entry on its name.
-/

namespace HeaderDigest.Doc

open Text

/-- The name and the text of an entry, if the tag is one. -/
def memberEntry? (tag : Text) : Option (Text × Text) :=
  if tag.takeWhile isWordChar = "member".toList then note? (trim (tag.dropWhile isWordChar)) else none

/-- The entries of a block in their order. -/
def memberEntries (raw : Text) : List (Text × Text) :=
  (splitTags true (prose raw)).2.filterMap memberEntry?

theorem member_addTag (doc : Doc) (tag name : Text) :
    (doc.addTag (tag.takeWhile isWordChar) (tag.dropWhile isWordChar)).member name =
      match memberEntry? tag with
      | some (key, text) => if name = key then text else doc.member name
      | none => doc.member name := by
  unfold addTag memberEntry?
  by_cases hMember : tag.takeWhile isWordChar = "member".toList
  · have hBrief : "member".toList ≠ "brief".toList := by decide
    have hParam : "member".toList ≠ "param".toList := by decide
    simp only [hMember, if_true, if_neg hBrief, if_neg hParam, member]
    cases note? (trim (tag.dropWhile isWordChar)) with
    | none => rfl
    | some entry => exact Notes.get_put doc.members entry.1 entry.2 name
  · simp only [if_neg hMember]
    split
    · split <;> rfl
    · split <;> rfl

theorem member_foldl (tags : List Text) (doc : Doc) (name : Text) :
    (tags.foldl (fun doc tag => doc.addTag (tag.takeWhile isWordChar) (tag.dropWhile isWordChar)) doc).member
        name = ((tags.filterMap memberEntry?).reverse.lookup name).getD (doc.member name) := by
  induction tags generalizing doc with
  | nil => rfl
  | cons tag tags ih =>
    rw [List.foldl_cons, ih, member_addTag]
    cases hEntry : memberEntry? tag with
    | none => rw [List.filterMap_cons_none hEntry]
    | some entry =>
      obtain ⟨key, text⟩ := entry
      rw [List.filterMap_cons_some hEntry, List.reverse_cons, List.lookup_append]
      cases (tags.filterMap memberEntry?).reverse.lookup name with
      | some found => rfl
      | none =>
        simp only [Option.none_or, Option.getD_none, List.lookup_cons, List.lookup_nil]
        by_cases hName : name = key
        · rw [if_pos hName, beq_iff_eq.mpr hName]
          rfl
        · rw [if_neg hName, beq_eq_false_iff_ne.mpr hName]
          rfl

theorem member_read (raw name : Text) :
    (Doc.read raw).member name = ((memberEntries raw).reverse.lookup name).getD [] := by
  exact member_foldl (splitTags true (prose raw)).2 _ name

end HeaderDigest.Doc
