import HeaderDigest.Proofs.Prototype.Pattern

/-!
# What the shapes of a head have in common

Each shape that fits a head takes its last run of word characters for the name and what stands
before that for the return type, and the last shape fits whenever one does. So the shapes together
cut a head where its last word begins.
-/

namespace HeaderDigest

open Text

/-- What a head with single spaces is cut into. -/
def lastWordHead (head : Text) : Head :=
  ⟨trim (splitEnding isWordChar head).1, (splitEnding isWordChar head).2⟩

variable {head : Text}

theorem any_isAlphanum_trim (s : Text) : (trim s).any Char.isAlphanum = s.any Char.isAlphanum := by
  have hBlank {u : Text} (hu : ∀ c ∈ u, isBlank c = true) : u.any Char.isAlphanum = false := by
    rw [List.any_eq_false]
    intro c hc hAlphanum
    have hName := isBlank_of_isNameChar (c := c) (by simp [isNameChar, hAlphanum])
    rw [hu c hc] at hName
    cases hName
  obtain ⟨u, v, hu, hv, -, hs⟩ := exists_eq_append_trim s
  calc (trim s).any Char.isAlphanum
    _ = (u ++ trim s ++ v).any Char.isAlphanum := by
      rw [List.any_append, List.any_append, hBlank hu, hBlank hv, Bool.false_or, Bool.or_false]
    _ = s.any Char.isAlphanum := by rw [← hs]

theorem lastWordHead_append {front name : Text} (hName : isWordName name = true)
    (hFront : endsWord front = false) : lastWordHead (front ++ name) = ⟨trim front, name⟩ := by
  rw [lastWordHead, splitEnding_isWordChar hName hFront]

/-- A gap in a text with single spaces is one space. -/
theorem IsGap.eq_space {gap behind : Text} (h : IsGap gap) (hSpaced : SingleSpaced (gap ++ behind)) :
    gap = [' '] := by
  obtain ⟨b, more, rfl⟩ := List.exists_cons_of_ne_nil h.1
  obtain ⟨hb, hMore⟩ := List.forall_mem_cons.mp h.2
  obtain ⟨rfl, hNext⟩ := hSpaced.1 hb
  cases more with
  | nil => rfl
  | cons c more => exact absurd ((hMore c List.mem_cons_self).symm.trans hNext) (by simp)

/-- With single spaces each shape gives all that stands before the name as the return type. -/
theorem Shape.IsFront.eq_trim_of_singleSpaced {shape : Shape} {front type : Text} (h : shape.IsFront front type)
    (hSpaced : SingleSpaced front) (hStart : startsBlank front = false) : type = trim front := by
  by_cases hShape : shape = pointerName
  · subst hShape
    obtain ⟨type, gap, stars, blanks, hType, -, hGap, hStars, hBlanks, rfl, rfl⟩ := h
    have hText : type ++ gap ++ stars ++ blanks = type ++ (gap ++ (stars ++ blanks)) := by simp
    rw [hText] at hSpaced hStart
    obtain rfl := hGap.eq_space hSpaced.of_append_right
    have hTrimmed : Trimmed type := ⟨startsBlank_left hStart, hSpaced.endsBlank_left rfl⟩
    have hStarred : Trimmed (type ++ [' '] ++ stars) := by
      refine ⟨?_, hStars.endsBlank _⟩
      rw [List.append_assoc, startsBlank_append _ hType]
      exact hTrimmed.1
    rw [trim_append_blank _ hBlanks, trim_eq_self hStarred, trim_eq_self hTrimmed]
    simp
  · exact h.eq_trim hShape

theorem Shape.Matches.eq_lastWordHead {shape : Shape} {parts : Head} (h : shape.Matches head parts)
    (hSpaced : SingleSpaced head) (hStart : startsBlank head = false) :
    isWordName (lastWordHead head).name = true ∧ parts = lastWordHead head := by
  obtain ⟨returnType, name⟩ := parts
  obtain ⟨hName, front, hFront, rfl⟩ := h
  rw [lastWordHead_append hName hFront.endsWord, Head.mk.injEq]
  exact ⟨hName, hFront.eq_trim_of_singleSpaced hSpaced.of_append_left (startsBlank_left hStart), rfl⟩

theorem Shape.tolerant_matches (hSpaced : SingleSpaced head)
    (hName : isWordName (lastWordHead head).name = true)
    (hAlphanum : (lastWordHead head).returnType.any Char.isAlphanum = true) :
    tolerant.Matches head (lastWordHead head) := by
  have hText := fst_append_snd_splitEnding isWordChar head
  have hEnd := endsWord_eq_false_iff.mpr (getLast?_fst_splitEnding isWordChar head)
  refine ⟨hName, (splitEnding isWordChar head).1, ?_, hText.symm⟩
  rw [lastWordHead] at hAlphanum ⊢
  rw [← hText] at hSpaced
  generalize (splitEnding isWordChar head).1 = front at *
  obtain rfl | ⟨type, c, rfl⟩ := List.eq_nil_or_concat front
  · cases hAlphanum
  · rw [List.concat_eq_append] at *
    refine ⟨type, c, [], fun hLine => ?_, (endsWord_concat type c).symm.trans hEnd, by simp, by simp, rfl⟩
    have hSpace : '\n' = ' ' := hSpaced.eq_space (by simp [hLine]) rfl
    cases hSpace

/-- A shape fits a head that ends in a name behind a letter or a digit, and then the head is cut
before the name. -/
theorem matchShape?_eq_some_iff (hSpaced : SingleSpaced head) (hStart : startsBlank head = false)
    (parts : Head) :
    (matchShape? head).map Prod.snd = some parts ↔
      isWordName (lastWordHead head).name = true ∧
        (lastWordHead head).returnType.any Char.isAlphanum = true ∧ parts = lastWordHead head := by
  have hFits {parts : Head} (h : (matchShape? head).map Prod.snd = some parts) :
      isWordName (lastWordHead head).name = true ∧
        (lastWordHead head).returnType.any Char.isAlphanum = true ∧ parts = lastWordHead head := by
    obtain ⟨fit, hFit, rfl⟩ := Option.map_eq_some_iff.mp h
    obtain ⟨shape, -, hShape⟩ := List.exists_of_findSome?_eq_some hFit
    obtain ⟨parts, hMatch, rfl⟩ := Option.map_eq_some_iff.mp hShape
    obtain ⟨hParts, hAlphanum⟩ := shape.match?_eq_some_iff.mp hMatch
    obtain ⟨hName, rfl⟩ := hParts.eq_lastWordHead hSpaced hStart
    exact ⟨hName, hAlphanum, rfl⟩
  refine ⟨hFits, ?_⟩
  rintro ⟨hName, hAlphanum, rfl⟩
  cases hMatch : matchShape? head with
  | some fit =>
    have hFit := hFits (congrArg (Option.map Prod.snd) hMatch)
    rw [Option.map_some, hFit.2.2]
  | none =>
    have hTolerant := List.findSome?_eq_none_iff.mp hMatch .tolerant (by decide)
    rw [(Shape.match?_eq_some_iff .tolerant).mpr
      ⟨Shape.tolerant_matches hSpaced hName hAlphanum, hAlphanum⟩] at hTolerant
    cases hTolerant

end HeaderDigest
