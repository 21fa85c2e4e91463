import HeaderDigest.Doc.Reader
import HeaderDigest.Proofs.Text.Spacing

/-!
# The texts of a documentation block

Whatever a block holds, the texts read from it are normal, words with single spaces between them.
Nothing is noted under the empty name.
-/

namespace HeaderDigest

open Text

/-- The words of a text are all there is, joined by single spaces. -/
def Text.IsNormal (s : Text) : Prop := joinWords (words s) = s

theorem Text.isNormal_nil : IsNormal [] := rfl

theorem Text.isNormal_normalize (s : Text) : IsNormal (normalize s) := by
  obtain ⟨hSpaced, hTrimmed⟩ := singleSpaced_normalize s
  exact normalize_eq_self hSpaced hTrimmed

structure Notes.WellFormed (notes : Notes) : Prop where
  normal : ∀ name, IsNormal (notes.get name)
  unnamed : notes.get [] = []

theorem Notes.wellFormed_nil : Notes.WellFormed [] where
  normal _ := isNormal_nil
  unnamed := rfl

theorem Notes.WellFormed.put {notes : Notes} (h : notes.WellFormed) {name text : Text}
    (hName : name ≠ []) (hText : IsNormal text) : (notes.put name text).WellFormed where
  normal other := by
    rw [Notes.get_put]
    split
    · exact hText
    · exact h.normal other
  unnamed := by rw [Notes.get_put, if_neg hName.symm, h.unnamed]

namespace Doc

structure WellFormed (doc : Doc) : Prop where
  brief : IsNormal doc.brief
  description : IsNormal doc.description
  params : doc.params.WellFormed
  members : doc.members.WellFormed

theorem wellFormed_empty : WellFormed {} where
  brief := isNormal_nil
  description := isNormal_nil
  params := Notes.wellFormed_nil
  members := Notes.wellFormed_nil

theorem note?_eq_some {body name text : Text} (h : note? body = some (name, text)) :
    name ≠ [] ∧ IsNormal text := by
  -- what is left of the body behind a direction does not matter
  obtain ⟨named, hNamed⟩ : ∃ named, note? body =
      if ((trimStart named).takeWhile isWordChar).isEmpty then none
      else some ((trimStart named).takeWhile isWordChar,
        normalize ((trimStart named).dropWhile isWordChar)) := ⟨_, rfl⟩
  rw [hNamed] at h
  split at h
  · cases h
  · rename_i hName
    cases h
    exact ⟨fun hNil => hName (List.isEmpty_iff.mpr hNil), isNormal_normalize _⟩

/-- Notes to which the note in a tag is added, if there is one. -/
theorem wellFormed_addNote {notes : Notes} (h : notes.WellFormed) (body : Text) :
    Notes.WellFormed (match note? body with
      | some (name, text) => notes.put name text
      | none => notes) := by
  cases hNote : note? body with
  | none => exact h
  | some note =>
    obtain ⟨hName, hText⟩ := note?_eq_some hNote
    exact h.put hName hText

theorem WellFormed.addTag {doc : Doc} (h : doc.WellFormed) (name body : Text) :
    (doc.addTag name body).WellFormed := by
  unfold Doc.addTag
  simp only
  split
  · split
    · exact ⟨isNormal_normalize body, h.description, h.params, h.members⟩
    · exact ⟨h.brief, h.description, h.params, h.members⟩
  · split
    · exact ⟨h.brief, h.description, wellFormed_addNote h.params (trim body), h.members⟩
    · split
      · exact ⟨h.brief, h.description, h.params, wellFormed_addNote h.members (trim body)⟩
      · exact ⟨h.brief, h.description, h.params, h.members⟩

theorem WellFormed.foldl {doc : Doc} (h : doc.WellFormed) (tags : List Text) :
    (tags.foldl (fun doc tag => doc.addTag (tag.takeWhile isWordChar) (tag.dropWhile isWordChar))
      doc).WellFormed := by
  induction tags generalizing doc with
  | nil => exact h
  | cons tag tags ih => exact ih (h.addTag _ _)

theorem wellFormed_read (raw : Text) : (Doc.read raw).WellFormed := by
  have hStart : WellFormed { description := normalize (splitTags true (prose raw)).1 } :=
    ⟨isNormal_nil, isNormal_normalize _, Notes.wellFormed_nil, Notes.wellFormed_nil⟩
  exact hStart.foldl (splitTags true (prose raw)).2

theorem isWordChar_of_note? {body name text : Text} (h : note? body = some (name, text)) :
    ∀ c ∈ name, isWordChar c = true := by
  obtain ⟨named, hNamed⟩ : ∃ named, note? body =
      if ((trimStart named).takeWhile isWordChar).isEmpty then none
      else some ((trimStart named).takeWhile isWordChar,
        normalize ((trimStart named).dropWhile isWordChar)) := ⟨_, rfl⟩
  rw [hNamed] at h
  split at h
  · cases h
  · cases h
    exact fun c hc => List.mem_takeWhile_imp hc

theorem param_addTag {doc : Doc} {key : Text} {c : Char} (hc : c ∈ key) (hWord : isWordChar c = false)
    (name body : Text) : (doc.addTag name body).param key = doc.param key := by
  have hNote : Notes.get (match note? (trim body) with
      | some (name, text) => doc.params.put name text
      | none => doc.params) key = doc.params.get key := by
    cases hNote : note? (trim body) with
    | none => rfl
    | some note =>
      obtain ⟨other, text⟩ := note
      have hNe : key ≠ other := by
        rintro rfl
        exact Bool.false_ne_true (hWord.symm.trans (isWordChar_of_note? hNote c hc))
      rw [Notes.get_put, if_neg hNe]
  unfold Doc.addTag
  simp only
  split
  · split <;> rfl
  · split
    · exact hNote
    · split <;> rfl

/-- Nothing is noted on a name that is no run of word characters. -/
theorem param_read_eq_nil {key : Text} {c : Char} (hc : c ∈ key) (hWord : isWordChar c = false) (raw : Text) :
    (Doc.read raw).param key = [] := by
  have hTags (tags : List Text) (doc : Doc) :
      (tags.foldl (fun doc tag => doc.addTag (tag.takeWhile isWordChar) (tag.dropWhile isWordChar)) doc).param key =
        doc.param key := by
    induction tags generalizing doc with
    | nil => rfl
    | cons tag tags ih => exact (ih _).trans (param_addTag hc hWord _ _)
  exact hTags (splitTags true (prose raw)).2 _

end Doc

end HeaderDigest
