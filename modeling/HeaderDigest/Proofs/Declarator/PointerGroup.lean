import HeaderDigest.Declarator.PointerGroup
import HeaderDigest.Proofs.Text.Words

/-!
# The text of a pointer group

A pointer group is read from a text exactly if the text begins with one, and then the group has the stars
and the name that are written there, and the arguments are all behind it.
-/

namespace HeaderDigest

open Text

/-- A parenthesis with stars and perhaps a name in it, and the parenthesis behind it that opens the
arguments. Blanks may stand between any two of these. -/
structure IsGroupText (stars name text : Text) : Prop where
  stars_ne_nil : stars ≠ []
  stars_only : ∀ c ∈ stars, c = '*'
  word : ∀ c ∈ name, isWordChar c = true
  written : ∃ b₁ b₂ b₃ b₄, (∀ c ∈ b₁ ++ b₂ ++ b₃ ++ b₄, isBlank c = true) ∧
    text = '(' :: (b₁ ++ (stars ++ (b₂ ++ (name ++ (b₃ ++ ')' :: (b₄ ++ ['(']))))))

/-- The name in a group, if there is one, is read from between the blanks. -/
theorem read_groupName {b₂ b₃ name : Text} (h₂ : ∀ c ∈ b₂, isBlank c = true)
    (h₃ : ∀ c ∈ b₃, isBlank c = true) (hName : ∀ c ∈ name, isWordChar c = true) (rest : Text) :
    (trimStart (b₂ ++ (name ++ (b₃ ++ ')' :: rest)))).takeWhile isWordChar = name ∧
      trimStart ((trimStart (b₂ ++ (name ++ (b₃ ++ ')' :: rest)))).dropWhile isWordChar) = ')' :: rest := by
  have hClosing : trimStart (b₃ ++ ')' :: rest) = ')' :: rest := trimStart_blank_append h₃ rfl
  rw [trimStart_append_of_blank _ h₂]
  cases name with
  | nil =>
    rw [List.nil_append, hClosing]
    exact ⟨rfl, rfl⟩
  | cons c name =>
    have hc : isWordChar c = true := hName c List.mem_cons_self
    have hStop : ∀ d ∈ (b₃ ++ ')' :: rest).head?, isWordChar d = false := by
      intro d hd
      obtain hd | hd := mem_head?_append hd
      · exact isWordChar_eq_false_of_isBlank d (h₃ d hd)
      · exact Option.some.inj hd ▸ rfl
    obtain ⟨hTake, hDrop⟩ := span_append hName hStop
    rw [trimStart_eq_self (s := c :: name ++ _) (isBlank_eq_false_of_isWordChar hc), hTake, hDrop, hClosing]
    exact ⟨rfl, rfl⟩

theorem PointerGroup.read?_of_isGroupText {stars name text : Text} (h : IsGroupText stars name text)
    (arguments : Text) : PointerGroup.read? (text ++ arguments) = some ⟨stars, name, arguments⟩ := by
  obtain ⟨hNe, hStars, hName, b₁, b₂, b₃, b₄, hBlanks, rfl⟩ := h
  simp only [List.mem_append, or_imp, forall_and] at hBlanks
  obtain ⟨⟨⟨h₁, h₂⟩, h₃⟩, h₄⟩ := hBlanks
  have hText : '(' :: (b₁ ++ (stars ++ (b₂ ++ (name ++ (b₃ ++ ')' :: (b₄ ++ ['('])))))) ++ arguments =
      '(' :: (b₁ ++ (stars ++ (b₂ ++ (name ++ (b₃ ++ ')' :: (b₄ ++ '(' :: arguments)))))) := by simp
  have hStop : ∀ c ∈ (b₂ ++ (name ++ (b₃ ++ ')' :: (b₄ ++ '(' :: arguments)))).head?, (c == '*') = false := by
    intro c hc
    rw [beq_eq_false_iff_ne]
    rintro rfl
    obtain hc | hc := mem_head?_append hc
    · exact absurd (h₂ _ hc) (by decide)
    obtain hc | hc := mem_head?_append hc
    · exact absurd (hName _ hc) (by decide)
    obtain hc | hc := mem_head?_append hc
    · exact absurd (h₃ _ hc) (by decide)
    · cases hc
  have hFirst : startsBlank (stars ++ (b₂ ++ (name ++ (b₃ ++ ')' :: (b₄ ++ '(' :: arguments))))) = false := by
    obtain ⟨c, more, rfl⟩ := List.exists_cons_of_ne_nil hNe
    rw [hStars c List.mem_cons_self]
    rfl
  obtain ⟨hTake, hDrop⟩ := span_append (fun c hc => beq_iff_eq.mpr (hStars c hc)) hStop
  obtain ⟨hWord, hClosing⟩ := read_groupName h₂ h₃ hName (b₄ ++ '(' :: arguments)
  have hOpening : trimStart (b₄ ++ '(' :: arguments) = '(' :: arguments := trimStart_blank_append h₄ rfl
  have hSome : stars.isEmpty = false := by simpa using hNe
  rw [hText, PointerGroup.read?]
  simp only [trimStart_blank_append h₁ hFirst, hTake, hDrop, hWord, hClosing, hOpening, hSome]
  rfl

theorem PointerGroup.exists_isGroupText_of_read? {s : Text} {group : PointerGroup}
    (h : PointerGroup.read? s = some group) :
    ∃ text, IsGroupText group.stars group.name text ∧ s = text ++ group.arguments := by
  unfold PointerGroup.read? at h
  split at h
  · rename_i rest
    simp only at h
    split at h
    · rename_i behind hClosing
      split at h
      · rename_i arguments hOpening
        split at h
        · cases h
        · rename_i hStars
          cases h
          obtain ⟨b₁, h₁, hText₁⟩ := exists_eq_append_trimStart rest
          have hStarred := List.takeWhile_append_dropWhile (p := (· == '*')) (l := trimStart rest)
          obtain ⟨b₂, h₂, hText₂⟩ := exists_eq_append_trimStart ((trimStart rest).dropWhile (· == '*'))
          have hNamed := List.takeWhile_append_dropWhile (p := isWordChar)
            (l := trimStart ((trimStart rest).dropWhile (· == '*')))
          obtain ⟨b₃, h₃, hText₃⟩ := exists_eq_append_trimStart
            ((trimStart ((trimStart rest).dropWhile (· == '*'))).dropWhile isWordChar)
          obtain ⟨b₄, h₄, hText₄⟩ := exists_eq_append_trimStart behind
          rw [hClosing, hText₄, hOpening] at hText₃
          refine ⟨_, ⟨by simpa using hStars, ?_, ?_, b₁, b₂, b₃, b₄, ?_, rfl⟩, ?_⟩
          · intro c hc
            exact beq_iff_eq.mp (List.mem_takeWhile_imp (p := (· == '*')) hc)
          · intro c hc
            exact List.mem_takeWhile_imp hc
          · simp only [List.mem_append, or_imp, forall_and]
            exact ⟨⟨⟨h₁, h₂⟩, h₃⟩, h₄⟩
          · rw [hText₃] at hNamed
            rw [← hNamed] at hText₂
            rw [hText₂] at hStarred
            conv => lhs; rw [hText₁, ← hStarred]
            simp
      · cases h
    · cases h
  · cases h

theorem PointerGroup.read?_eq_some_iff {s : Text} {group : PointerGroup} :
    PointerGroup.read? s = some group ↔
      ∃ text, IsGroupText group.stars group.name text ∧ s = text ++ group.arguments := by
  constructor
  · exact PointerGroup.exists_isGroupText_of_read?
  · rintro ⟨text, h, rfl⟩
    exact PointerGroup.read?_of_isGroupText h group.arguments

theorem PointerGroup.read?_eq_none {c : Char} (hc : c ≠ '(') (s : Text) :
    PointerGroup.read? (c :: s) = none := by
  unfold PointerGroup.read?
  split
  · rename_i heq
    exact absurd (List.cons.inj heq).1 hc
  · rfl

end HeaderDigest
