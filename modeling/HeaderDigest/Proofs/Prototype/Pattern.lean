import HeaderDigest.Proofs.Declarator.Reading
import HeaderDigest.Proofs.Text.Blanks
import HeaderDigest.Proofs.Text.Parts
import HeaderDigest.Proofs.Text.Spacing
import HeaderDigest.Proofs.Text.WordBounds
import HeaderDigest.Prototype.Shape

/-!
# What each shape matches

A shape is a pattern for a head: a return type, blanks and stars in the order that the shape asks
for, and a name. No line feed stands in the type, unless it ends in one where the shape allows any
character that is in no word.
-/

namespace HeaderDigest

open Text

variable {head front name type : Text} {parts : Head}

def IsGap (gap : Text) : Prop := gap ≠ [] ∧ ∀ c ∈ gap, isBlank c = true

def IsStars (stars : Text) : Prop := stars ≠ [] ∧ ∀ c ∈ stars, c = '*'

namespace Shape

/-- What a shape puts before the name, with the return type that it gives. -/
def IsFront (front returnType : Text) : Shape → Prop
  | plain => ∃ type c gap, '\n' ∉ type ∧ isBlank c = false ∧ c ≠ '*' ∧ IsGap gap ∧
      front = type ++ [c] ++ gap ∧ returnType = trim (type ++ [c])
  | pointerReturn => ∃ type stars gap, type ≠ [] ∧ '\n' ∉ type ∧ IsStars stars ∧ IsGap gap ∧
      front = type ++ stars ++ gap ∧ returnType = trim (type ++ stars)
  | pointerName => ∃ type gap stars blanks, type ≠ [] ∧ '\n' ∉ type ∧ IsGap gap ∧ IsStars stars ∧
      (∀ c ∈ blanks, isBlank c = true) ∧ front = type ++ gap ++ stars ++ blanks ∧
      returnType = trim type ++ ' ' :: stars
  | tolerant => ∃ type c blanks, '\n' ∉ type ∧ isWordChar c = false ∧
      (∀ c ∈ blanks, isBlank c = true) ∧ front = type ++ [c] ++ blanks ∧
      returnType = trim (type ++ [c])

/-- A head and its parts as a shape writes them. -/
def Matches (shape : Shape) (head : Text) (parts : Head) : Prop :=
  isWordName parts.name = true ∧
    ∃ front, shape.IsFront front parts.returnType ∧ head = front ++ parts.name

end Shape

theorem isWordChar_of_mem_name (hName : isWordName name = true) : ∀ c ∈ name, isWordChar c = true := by
  cases name with
  | nil => cases hName
  | cons c name =>
    obtain ⟨hStart, hRest⟩ := Bool.and_eq_true_iff.mp hName
    exact List.forall_mem_cons.mpr ⟨isWordChar_of_isNameStart c hStart, List.all_eq_true.mp hRest⟩

theorem splitEnding_isWordChar (hName : isWordName name = true) (hFront : endsWord front = false) :
    splitEnding isWordChar (front ++ name) = (front, name) :=
  splitEnding_append (isWordChar_of_mem_name hName) (endsWord_eq_false_iff.mp hFront)

theorem IsGap.endsBlank {gap : Text} (h : IsGap gap) (s : Text) : endsBlank (s ++ gap) = true := by
  rw [endsBlank_append s h.1, Text.endsBlank, List.getLast?_eq_some_getLast h.1, Option.any_some]
  exact h.2 _ (List.getLast_mem h.1)

theorem IsStars.getLast? {stars : Text} (h : IsStars stars) (s : Text) :
    (s ++ stars).getLast? = some '*' := by
  rw [List.getLast?_append, List.getLast?_eq_some_getLast h.1, Option.some_or,
    h.2 _ (List.getLast_mem h.1)]

theorem IsStars.endsBlank {stars : Text} (h : IsStars stars) (s : Text) : endsBlank (s ++ stars) = false := by
  rw [Text.endsBlank, h.getLast?]
  rfl

theorem IsStars.endsWord {stars : Text} (h : IsStars stars) (s : Text) : endsWord (s ++ stars) = false := by
  rw [Text.endsWord, h.getLast?]
  rfl

namespace Shape

/-- No word that a shape puts before the name goes on in it. -/
theorem IsFront.endsWord {shape : Shape} (h : shape.IsFront front type) : endsWord front = false := by
  cases shape with
  | plain =>
    obtain ⟨type, c, gap, -, -, -, hGap, rfl, -⟩ := h
    rw [endsWord_append _ hGap.1, endsWord_of_blank hGap.2]
  | pointerReturn =>
    obtain ⟨type, stars, gap, -, -, -, hGap, rfl, -⟩ := h
    rw [endsWord_append _ hGap.1, endsWord_of_blank hGap.2]
  | pointerName =>
    obtain ⟨type, gap, stars, blanks, -, -, -, hStars, hBlanks, rfl, -⟩ := h
    exact endsWord_append_of_blank (hStars.endsWord _) hBlanks
  | tolerant =>
    obtain ⟨type, c, blanks, -, hc, hBlanks, rfl, -⟩ := h
    exact endsWord_append_of_blank ((endsWord_concat type c).trans hc) hBlanks

theorem IsFront.eq_trim {shape : Shape} (h : shape.IsFront front type) (hShape : shape ≠ pointerName) :
    type = trim front := by
  cases shape with
  | plain =>
    obtain ⟨type, c, gap, -, -, -, hGap, rfl, rfl⟩ := h
    exact (trim_append_blank _ hGap.2).symm
  | pointerReturn =>
    obtain ⟨type, stars, gap, -, -, -, hGap, rfl, rfl⟩ := h
    exact (trim_append_blank _ hGap.2).symm
  | pointerName => exact absurd rfl hShape
  | tolerant =>
    obtain ⟨type, c, blanks, -, -, hBlanks, rfl, rfl⟩ := h
    exact (trim_append_blank _ hBlanks).symm

/-- The stars are all those that the text before the name ends in. -/
theorem splitEnding_stars (type : Text) {gap stars blanks : Text} (hGap : IsGap gap) (hStars : IsStars stars)
    (hBlanks : ∀ c ∈ blanks, isBlank c = true) :
    splitEnding (· == '*') (trimEnd (type ++ gap ++ stars ++ blanks)) = (type ++ gap, stars) := by
  rw [trimEnd_append_of_blank _ hBlanks, trimEnd_eq_self (hStars.endsBlank _)]
  refine splitEnding_append (fun c hc => beq_iff_eq.mpr (hStars.2 c hc)) fun c hc => ?_
  have hBlank := hGap.endsBlank type
  rw [Text.endsBlank, Option.mem_def.mp hc, Option.any_some] at hBlank
  exact beq_false_of_ne (ne_of_isBlank hBlank (by decide))

theorem IsFront.unique {shape : Shape} {other : Text} (h : shape.IsFront front type)
    (hOther : shape.IsFront front other) : other = type := by
  by_cases hShape : shape = pointerName
  · subst hShape
    obtain ⟨type, gap, stars, blanks, -, -, hGap, hStars, hBlanks, rfl, rfl⟩ := h
    obtain ⟨otherType, otherGap, otherStars, otherBlanks, -, -, hOtherGap, hOtherStars, hOtherBlanks, hFront,
      rfl⟩ := hOther
    have hSame := splitEnding_stars type hGap hStars hBlanks
    rw [hFront, splitEnding_stars otherType hOtherGap hOtherStars hOtherBlanks] at hSame
    obtain ⟨hBefore, rfl⟩ := Prod.mk.inj hSame
    rw [← trim_append_blank otherType hOtherGap.2, hBefore, trim_append_blank type hGap.2]
  · rw [h.eq_trim hShape, hOther.eq_trim hShape]

/-- A shape that writes a head writes it as cut before its last word. -/
theorem Matches.isFront {shape : Shape} (h : shape.Matches (front ++ name) parts)
    (hName : isWordName name = true) (hEnd : endsWord front = false) :
    shape.IsFront front parts.returnType ∧ parts.name = name := by
  obtain ⟨hOtherName, otherFront, hFront, hText⟩ := h
  have hCut := splitEnding_isWordChar hName hEnd
  rw [hText, splitEnding_isWordChar hOtherName hFront.endsWord] at hCut
  obtain ⟨rfl, hSame⟩ := Prod.mk.inj hCut
  exact ⟨hFront, hSame⟩

/-- However a head is written in a shape, its parts are the same, so that it does not matter whether
a search takes as much as it can for the type or as little. -/
theorem Matches.unique {shape : Shape} {other : Head} (h : shape.Matches head parts)
    (hOther : shape.Matches head other) : other = parts := by
  obtain ⟨hName, front, hFront, rfl⟩ := h
  obtain ⟨hOtherFront, hSame⟩ := hOther.isFront hName hFront.endsWord
  rw [Head.mk.injEq]
  exact ⟨hFront.unique hOtherFront, hSame⟩

/-- The last word is a name, and a gap stands before it if anything but blanks does. -/
theorem splitLastWord?_eq_some_iff : splitLastWord? head = some (type, name) ↔
    isWordName name = true ∧ '\n' ∉ type ∧ endsBlank type = false ∧
      ∃ gap, (∀ c ∈ gap, isBlank c = true) ∧ (gap = [] → type = []) ∧ head = type ++ gap ++ name := by
  constructor
  · intro h
    have hText := fst_append_snd_splitEnding (fun c => !isBlank c) head
    have hLast := getLast?_fst_splitEnding (fun c => !isBlank c) head
    unfold splitLastWord? at h
    simp only at h
    split at h
    · rename_i hGuard
      obtain ⟨hName, hLine⟩ := Bool.and_eq_true_iff.mp hGuard
      obtain ⟨rfl, rfl⟩ := Prod.mk.inj (Option.some.inj h)
      generalize (splitEnding (fun c => !isBlank c) head).1 = front at hText hLast hLine ⊢
      obtain ⟨gap, hGap, hFront⟩ := exists_eq_trimEnd_append front
      refine ⟨hName, ?_, endsBlank_trimEnd front, gap, hGap, ?_, hFront ▸ hText.symm⟩
      · exact contains_eq_false_iff.mp ((Bool.not_eq_true' _).mp hLine)
      · rintro rfl
        rw [List.append_nil] at hFront
        rw [← hFront]
        have hEnd := endsBlank_trimEnd front
        rw [← hFront] at hEnd
        obtain rfl | ⟨more, c, rfl⟩ := List.eq_nil_or_concat front
        · rfl
        · rw [List.concat_eq_append] at hEnd hLast
          have hBlank := hLast c List.getLast?_concat
          rw [← endsBlank_concat more, hEnd] at hBlank
          cases hBlank
    · cases h
  · rintro ⟨hName, hLine, hEnd, gap, hGap, hNil, rfl⟩
    have hSplit : splitEnding (fun c => !isBlank c) (type ++ gap ++ name) = (type ++ gap, name) := by
      apply splitEnding_append
      · intro c hc
        rw [isBlank_eq_false_of_isWordChar (isWordChar_of_mem_name hName c hc)]
        rfl
      · intro c hc
        obtain rfl | ⟨blanks, b, rfl⟩ := List.eq_nil_or_concat gap
        · rw [hNil rfl] at hc
          cases hc
        · rw [List.concat_eq_append, ← List.append_assoc, List.getLast?_concat] at hc
          cases hc
          rw [hGap c (by simp)]
          rfl
    rw [splitLastWord?, hSplit]
    simp only [trimEnd_append_of_blank type hGap, trimEnd_eq_self hEnd, hName,
      contains_eq_false_iff.mpr hLine, Bool.not_false, Bool.and_self, if_true]

theorem split?_plain_eq_some_iff : plain.split? head = some parts ↔ plain.Matches head parts := by
  constructor
  · intro h
    obtain ⟨⟨type, name⟩, hLast, hParts⟩ := Option.bind_eq_some_iff.mp h
    obtain ⟨hName, hLine, hEnd, gap, hGap, hNil, rfl⟩ := splitLastWord?_eq_some_iff.mp hLast
    simp only at hParts
    split at hParts
    · cases hParts
    · rename_i hGuard
      cases hParts
      obtain rfl | ⟨more, c, rfl⟩ := List.eq_nil_or_concat type
      · exact absurd rfl hGuard
      · rw [List.concat_eq_append] at *
        refine ⟨hName, _, ⟨more, c, gap, ?_, ?_, ?_, ⟨?_, hGap⟩, rfl, rfl⟩, rfl⟩
        · exact fun hMem => hLine (List.mem_append_left _ hMem)
        · exact (endsBlank_concat more c).symm.trans hEnd
        · rintro rfl
          exact hGuard (by simp [endsWith_concat])
        · exact fun hGapNil => absurd (hNil hGapNil) (by simp)
  · obtain ⟨returnType, name⟩ := parts
    rintro ⟨hName, _, ⟨type, c, gap, hLine, hBlank, hStar, hGap, rfl, rfl⟩, rfl⟩
    have hMem : '\n' ∉ type ++ [c] := by
      rw [List.mem_append, List.mem_singleton]
      rintro (hMem | rfl)
      · exact hLine hMem
      · cases hBlank
    have hLast : splitLastWord? (type ++ [c] ++ gap ++ name) = some (type ++ [c], name) :=
      splitLastWord?_eq_some_iff.mpr ⟨hName, hMem, (endsBlank_concat type c).trans hBlank, gap, hGap.2,
        fun hNil => absurd hNil hGap.1, rfl⟩
    have hGuard : ((type ++ [c]).isEmpty || endsWith ['*'] (type ++ [c])) = false := by
      rw [endsWith_concat, beq_false_of_ne (Ne.symm hStar)]
      simp
    simp only [split?, hLast, Option.bind_eq_bind, Option.bind_some, hGuard, Bool.false_eq_true, if_false]

theorem split?_pointerReturn_eq_some_iff :
    pointerReturn.split? head = some parts ↔ pointerReturn.Matches head parts := by
  constructor
  · intro h
    obtain ⟨⟨type, name⟩, hLast, hParts⟩ := Option.bind_eq_some_iff.mp h
    obtain ⟨hName, hLine, hEnd, gap, hGap, hNil, rfl⟩ := splitLastWord?_eq_some_iff.mp hLast
    simp only at hParts
    split at hParts
    · rename_i hGuard
      cases hParts
      obtain ⟨hStar, hLength⟩ := Bool.and_eq_true_iff.mp hGuard
      obtain ⟨more, rfl⟩ := List.getLast?_eq_some_iff.mp (endsWith_singleton_iff.mp hStar)
      have hMore : more ≠ [] := by
        rintro rfl
        cases hLength
      refine ⟨hName, _, ⟨more, ['*'], gap, hMore, ?_, ⟨by simp, by simp⟩, ⟨?_, hGap⟩, rfl, rfl⟩, rfl⟩
      · exact fun hMem => hLine (List.mem_append_left _ hMem)
      · exact fun hGapNil => absurd (hNil hGapNil) (by simp)
    · cases hParts
  · obtain ⟨returnType, name⟩ := parts
    rintro ⟨hName, _, ⟨type, stars, gap, hType, hLine, hStars, hGap, rfl, rfl⟩, rfl⟩
    have hMem : '\n' ∉ type ++ stars := by
      rw [List.mem_append]
      rintro (hMem | hMem)
      · exact hLine hMem
      · exact absurd (hStars.2 _ hMem) (by decide)
    have hLast : splitLastWord? (type ++ stars ++ gap ++ name) = some (type ++ stars, name) :=
      splitLastWord?_eq_some_iff.mpr ⟨hName, hMem, hStars.endsBlank type, gap, hGap.2,
        fun hNil => absurd hNil hGap.1, rfl⟩
    have hLength : 2 ≤ (type ++ stars).length := by
      rw [List.length_append]
      exact Nat.add_le_add (List.length_pos_iff.mpr hType) (List.length_pos_iff.mpr hStars.1)
    simp only [split?, hLast, Option.bind_eq_bind, Option.bind_some,
      endsWith_singleton_iff.mpr (hStars.getLast? type), hLength, decide_true, Bool.and_self, if_true]

theorem split?_pointerName_eq_some_iff (hAlphanum : parts.returnType.any Char.isAlphanum = true) :
    pointerName.split? head = some parts ↔ pointerName.Matches head parts := by
  constructor
  · intro h
    have hText := fst_append_snd_splitEnding isWordChar head
    rw [split?] at h
    simp only at h
    split at h
    · rename_i hGuard
      simp only [Bool.and_eq_true, decide_eq_true_eq, Bool.not_eq_true', List.isEmpty_eq_false_iff,
        contains_eq_false_iff] at hGuard
      obtain ⟨⟨⟨hName, hNe⟩, hGap⟩, hLine⟩ := hGuard
      cases h
      generalize (splitEnding isWordChar head).1 = front at *
      generalize (splitEnding isWordChar head).2 = name at *
      obtain ⟨blanks, hBlanks, hFront⟩ := exists_eq_trimEnd_append front
      have hStarred := fst_append_snd_splitEnding (· == '*') (trimEnd front)
      have hStars := snd_splitEnding (· == '*') (trimEnd front)
      generalize (splitEnding (· == '*') (trimEnd front)).1 = before at *
      generalize (splitEnding (· == '*') (trimEnd front)).2 = stars at *
      obtain ⟨gap, hBlank, hBefore⟩ := exists_eq_trimEnd_append before
      have hStars : IsStars stars := ⟨hNe, fun c hc => beq_iff_eq.mp (hStars c hc)⟩
      refine ⟨hName, front, ⟨trimEnd before, gap, stars, blanks, ?_, hLine, ⟨?_, hBlank⟩, hStars, hBlanks, ?_,
        rfl⟩, hText.symm⟩
      · intro hNil
        rw [hNil] at hAlphanum
        obtain ⟨c, hc, hLetter⟩ := List.any_eq_true.mp hAlphanum
        obtain rfl | hc := List.mem_cons.mp hc
        · cases hLetter
        · rw [hStars.2 c hc] at hLetter
          cases hLetter
      · rintro rfl
        rw [List.append_nil] at hBefore
        exact absurd (congrArg List.length hBefore) hGap.ne'
      · rw [← hBefore, hStarred, ← hFront]
    · cases h
  · obtain ⟨returnType, name⟩ := parts
    rintro ⟨hName, _, hMatch, rfl⟩
    have hEnd := hMatch.endsWord
    obtain ⟨type, gap, stars, blanks, hType, hLine, hGap, hStars, hBlanks, rfl, rfl⟩ := hMatch
    have hPrefix := trimEnd_isPrefix type
    have hLength : (trimEnd type).length < (type ++ gap).length := by
      rw [List.length_append]
      exact Nat.lt_of_le_of_lt hPrefix.length_le (Nat.lt_add_of_pos_right (List.length_pos_iff.mpr hGap.1))
    have hNoLine : (trimEnd type).contains '\n' = false :=
      contains_eq_false_iff.mpr fun hMem => hLine (hPrefix.subset hMem)
    rw [split?, splitEnding_isWordChar hName hEnd]
    simp only [splitEnding_stars type hGap hStars hBlanks, trimEnd_append_of_blank type hGap.2, hName, hLength,
      hNoLine, trim_trimEnd, List.isEmpty_eq_false_iff.mpr hStars.1, decide_true, Bool.not_false,
      Bool.and_self, if_true]

theorem split?_tolerant_eq_some_iff (hAlphanum : parts.returnType.any Char.isAlphanum = true) :
    tolerant.split? head = some parts ↔ tolerant.Matches head parts := by
  constructor
  · intro h
    have hText := fst_append_snd_splitEnding isWordChar head
    have hEnd := endsWord_eq_false_iff.mpr (getLast?_fst_splitEnding isWordChar head)
    rw [split?] at h
    simp only at h
    split at h
    · rename_i hGuard
      simp only [Bool.and_eq_true, Bool.not_eq_true', contains_eq_false_iff] at hGuard
      obtain ⟨hName, hLine⟩ := hGuard
      cases h
      generalize (splitEnding isWordChar head).1 = front at *
      obtain ⟨blanks, hBlanks, hFront⟩ := exists_eq_trimEnd_append front
      refine ⟨hName, front, ?_, hText.symm⟩
      cases blanks with
      | nil =>
        rw [List.append_nil] at hFront
        rw [← hFront] at hLine
        obtain rfl | ⟨type, c, rfl⟩ := List.eq_nil_or_concat front
        · cases hAlphanum
        · rw [List.concat_eq_append] at *
          refine ⟨type, c, [], ?_, (endsWord_concat type c).symm.trans hEnd, by simp, by simp, rfl⟩
          exact fun hMem => hLine (List.mem_append_left _ hMem)
      | cons b blanks =>
        obtain ⟨hb, hRest⟩ := List.forall_mem_cons.mp hBlanks
        refine ⟨trimEnd front, b, blanks, hLine, isWordChar_eq_false_of_isBlank b hb, hRest, ?_, ?_⟩
        · rw [List.append_assoc]
          exact hFront
        · rw [trim_append_blank _ (List.forall_mem_singleton.mpr hb), trim_trimEnd]
    · cases h
  · obtain ⟨returnType, name⟩ := parts
    rintro ⟨hName, _, hMatch, rfl⟩
    have hEnd := hMatch.endsWord
    obtain ⟨type, c, blanks, hLine, -, hBlanks, rfl, rfl⟩ := hMatch
    have hNoLine : '\n' ∉ trimEnd (type ++ [c]) := by
      cases hc : isBlank c with
      | true =>
        rw [trimEnd_append_of_blank type (List.forall_mem_singleton.mpr hc)]
        exact fun hMem => hLine ((trimEnd_isPrefix type).subset hMem)
      | false =>
        rw [trimEnd_eq_self ((endsBlank_concat type c).trans hc), List.mem_append, List.mem_singleton]
        rintro (hMem | rfl)
        · exact hLine hMem
        · cases hc
    rw [split?, splitEnding_isWordChar hName hEnd]
    simp only [trimEnd_append_of_blank _ hBlanks, trim_append_blank _ hBlanks, hName,
      contains_eq_false_iff.mpr hNoLine, Bool.not_false, Bool.and_self, if_true]

/-- Taking a head apart by one shape finds the parts that the shape writes, and takes the head only if
its return type has a letter or a digit. -/
theorem match?_eq_some_iff (shape : Shape) : shape.match? head = some parts ↔
    shape.Matches head parts ∧ parts.returnType.any Char.isAlphanum = true := by
  rw [match?, Option.filter_eq_some_iff, and_congr_left_iff]
  intro hAlphanum
  cases shape with
  | plain => exact split?_plain_eq_some_iff
  | pointerReturn => exact split?_pointerReturn_eq_some_iff
  | pointerName => exact split?_pointerName_eq_some_iff hAlphanum
  | tolerant => exact split?_tolerant_eq_some_iff hAlphanum

end Shape

end HeaderDigest
