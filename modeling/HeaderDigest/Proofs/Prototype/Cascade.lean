import HeaderDigest.Proofs.Prototype.Shape

/-!
# Which shape a head has

The shapes are tried in order, and how the text before the name ends decides which of them is the
first to fit: whether a space stands there, and whether stars stand before the space or behind it.
-/

namespace HeaderDigest

open Text

/-- How the text before the name of a head ends when the head has a shape. -/
def Shape.Fits (front : Text) : Shape → Prop
  | plain => ∃ type c, c ≠ '*' ∧ front = type ++ [c, ' ']
  | pointerReturn => ∃ type, front = type ++ ['*', ' ']
  | pointerName => ∃ type stars, stars ≠ 0 ∧ front = type ++ ' ' :: List.replicate stars '*'
  | tolerant => (∀ type c, front ≠ type ++ [c, ' ']) ∧
      ∀ type stars, stars ≠ 0 → front ≠ type ++ ' ' :: List.replicate stars '*'

variable {head front name type : Text}

/-- The first shape that writes a head decides, if its return type has a letter or a digit. -/
theorem matchShape?_of_isFront {before after : List Shape} {shape : Shape} (hName : isWordName name = true)
    (hAlphanum : type.any Char.isAlphanum = true) (hAll : Shape.all = before ++ shape :: after)
    (hBefore : ∀ other ∈ before, ∀ otherType, ¬other.IsFront front otherType)
    (hShape : shape.IsFront front type) :
    matchShape? (front ++ name) = some (shape, ⟨type, name⟩) := by
  rw [matchShape?, List.findSome?_eq_some_iff]
  refine ⟨before, shape, after, hAll, ?_, ?_⟩
  · have hMatches : shape.Matches (front ++ name) ⟨type, name⟩ := ⟨hName, front, hShape, rfl⟩
    rw [shape.match?_eq_some_iff.mpr ⟨hMatches, hAlphanum⟩, Option.map_some]
  · intro other hOther
    rw [Option.map_eq_none_iff, Option.eq_none_iff_forall_ne_some]
    intro parts hParts
    obtain ⟨hMatches, -⟩ := other.match?_eq_some_iff.mp hParts
    exact hBefore other hOther _ (hMatches.isFront hName hShape.endsWord).1

/-- A head with single spaces, cut before its last run of word characters. -/
structure IsCutHead (front name : Text) : Prop where
  singleSpaced : SingleSpaced (front ++ name)
  trimmed : Trimmed (front ++ name)
  word : ∀ c ∈ name, isWordChar c = true
  boundary : ∀ c ∈ front.getLast?, isWordChar c = false

theorem isCutHead_of_splitEnding (hSpaced : SingleSpaced head) (hTrimmed : Trimmed head)
    (hCut : splitEnding isWordChar head = (front, name)) : head = front ++ name ∧ IsCutHead front name := by
  have hText : front ++ name = head := by
    have hParts := fst_append_snd_splitEnding isWordChar head
    rwa [hCut] at hParts
  have hName := snd_splitEnding isWordChar head
  have hFront := getLast?_fst_splitEnding isWordChar head
  rw [hCut] at hName hFront
  exact ⟨hText.symm, hText ▸ hSpaced, hText ▸ hTrimmed, hName, hFront⟩

namespace IsCutHead

theorem noLineFeed (h : IsCutHead front name) : '\n' ∉ front := by
  intro hFeed
  exact absurd (h.singleSpaced.eq_space (List.mem_append_left name hFeed) (by decide)) (by decide)

/-- A gap at the end is one space, with a character before it that is not blank. -/
theorem eq_space_of_gap {gap : Text} (h : IsCutHead (type ++ gap) name) (hGap : IsGap gap) :
    gap = [' '] ∧ endsBlank type = false := by
  have hSpaced := h.singleSpaced
  rw [List.append_assoc] at hSpaced
  have hSpace := hGap.eq_space hSpaced.of_append_right
  rw [hSpace] at hSpaced
  exact ⟨hSpace, hSpaced.endsBlank_left rfl⟩

/-- One space stands before the name or none. -/
theorem ends (h : IsCutHead front name) (hNe : front ≠ []) :
    (∃ type c, isBlank c = false ∧ front = type ++ [c, ' ']) ∨
      ∃ c, isBlank c = false ∧ front.getLast? = some c := by
  obtain ⟨more, c, rfl⟩ : ∃ more c, front = more ++ [c] := ⟨_, _, (List.dropLast_concat_getLast hNe).symm⟩
  cases hc : isBlank c with
  | false => exact Or.inr ⟨c, hc, List.getLast?_concat⟩
  | true =>
    obtain rfl : c = ' ' := h.singleSpaced.eq_space (by simp) hc
    have hMore : more ≠ [] := by
      rintro rfl
      cases h.trimmed.1
    obtain ⟨type, d, rfl⟩ : ∃ type d, more = type ++ [d] :=
      ⟨_, _, (List.dropLast_concat_getLast hMore).symm⟩
    obtain ⟨-, hEnd⟩ := h.eq_space_of_gap ⟨by simp, by decide⟩
    exact Or.inl ⟨type, d, (endsBlank_concat type d).symm.trans hEnd, by simp⟩

theorem isWordName_of_starts (h : IsCutHead front name) (hStart : ∃ c ∈ name.head?, isNameStart c = true) :
    isWordName name = true := by
  obtain ⟨c, hc, hStart⟩ := hStart
  obtain ⟨rest, rfl⟩ := List.head?_eq_some_iff.mp hc
  rw [isWordName, hStart, Bool.true_and, List.all_eq_true]
  exact fun d hd => h.word d (List.mem_cons_of_mem c hd)

theorem lastWordHead_eq (h : IsCutHead front name) : lastWordHead (front ++ name) = ⟨trim front, name⟩ := by
  rw [lastWordHead, splitEnding_append h.word h.boundary]

theorem startsBlank_front (h : IsCutHead front name) : startsBlank front = false := startsBlank_left h.trimmed.1

theorem exists_of_isFront_plain (h : IsCutHead front name) (hFront : Shape.plain.IsFront front type) :
    ∃ before c, c ≠ '*' ∧ front = before ++ [c, ' '] := by
  obtain ⟨before, c, gap, -, -, hStar, hGap, rfl, -⟩ := hFront
  obtain ⟨rfl, -⟩ := h.eq_space_of_gap hGap
  exact ⟨before, c, hStar, by simp⟩

theorem exists_of_isFront_pointerReturn (h : IsCutHead front name)
    (hFront : Shape.pointerReturn.IsFront front type) : ∃ before, front = before ++ ['*', ' '] := by
  obtain ⟨before, stars, gap, -, -, hStars, hGap, rfl, -⟩ := hFront
  obtain ⟨rfl, -⟩ := h.eq_space_of_gap hGap
  obtain ⟨more, hMore⟩ := List.getLast?_eq_some_iff.mp (hStars.getLast? [])
  rw [List.nil_append] at hMore
  exact ⟨before ++ more, by simp [hMore]⟩

theorem fits_of_isFront_pointerName (h : IsCutHead front name) (hFront : Shape.pointerName.IsFront front type)
    (hEnd : endsBlank front = false) : Shape.pointerName.Fits front := by
  obtain ⟨before, gap, stars, blanks, -, -, hGap, hStars, hBlanks, rfl, -⟩ := hFront
  have hNil : blanks = [] := by
    by_contra hNe
    rw [IsGap.endsBlank ⟨hNe, hBlanks⟩] at hEnd
    cases hEnd
  have hSpaced := h.singleSpaced
  rw [List.append_assoc, List.append_assoc, List.append_assoc] at hSpaced
  obtain rfl := hGap.eq_space hSpaced.of_append_right
  refine ⟨before, stars.length, mt List.length_eq_zero_iff.mp hStars.1, ?_⟩
  rw [← List.eq_replicate_of_mem hStars.2, hNil]
  simp

end IsCutHead

theorem IsCutHead.exists_fits (h : IsCutHead front name) (hNe : front ≠ []) :
    ∃ shape : Shape, shape.Fits front := by
  obtain ⟨type, c, -, rfl⟩ | ⟨c, hBlank, hLast⟩ := h.ends hNe
  · by_cases hStar : c = '*'
    · exact ⟨.pointerReturn, type, by rw [hStar]⟩
    · exact ⟨.plain, type, c, hStar, rfl⟩
  · by_cases hPointer : Shape.pointerName.Fits front
    · exact ⟨.pointerName, hPointer⟩
    · refine ⟨.tolerant, ?_, ?_⟩
      · rintro type d rfl
        simp only [List.getLast?_append, List.getLast?_cons_cons] at hLast
        cases hLast
        cases hBlank
      · exact fun type stars hStars hFront => hPointer ⟨type, stars, hStars, hFront⟩

theorem IsCutHead.matchShape?_of_fits (h : IsCutHead front name)
    (hStart : ∃ c ∈ name.head?, isNameStart c = true) (hAlphanum : front.any Char.isAlphanum = true)
    {shape : Shape} (hFits : shape.Fits front) :
    matchShape? (front ++ name) = some (shape, ⟨trim front, name⟩) := by
  have hFirst (before : List Shape) {after : List Shape} {shape : Shape} {type : Text}
      (hAll : Shape.all = before ++ shape :: after)
      (hBefore : ∀ other ∈ before, ∀ otherType, ¬other.IsFront front otherType)
      (hShape : shape.IsFront front type) :
      matchShape? (front ++ name) = some (shape, ⟨trim front, name⟩) := by
    obtain rfl := hShape.eq_trim_of_singleSpaced h.singleSpaced.of_append_left h.startsBlank_front
    exact matchShape?_of_isFront (h.isWordName_of_starts hStart)
      ((any_isAlphanum_trim front).trans hAlphanum) hAll hBefore hShape
  -- Without a space before the name, neither of the first two shapes writes the head.
  have hNoSpace (hEnd : endsBlank front = false) :
      ∀ other ∈ [Shape.plain, Shape.pointerReturn], ∀ otherType, ¬other.IsFront front otherType := by
    have hSpace (before : Text) (c : Char) : front ≠ before ++ [c, ' '] := by
      rintro rfl
      rw [endsBlank_append before (List.cons_ne_nil c [' '])] at hEnd
      cases hEnd
    intro other hOther otherType hFront
    obtain rfl | hOther := List.mem_cons.mp hOther
    · obtain ⟨before, c, -, hText⟩ := h.exists_of_isFront_plain hFront
      exact hSpace before c hText
    · obtain rfl := List.mem_singleton.mp hOther
      obtain ⟨before, hText⟩ := h.exists_of_isFront_pointerReturn hFront
      exact hSpace before '*' hText
  have hLine := h.noLineFeed
  cases shape with
  | plain =>
    obtain ⟨before, c, hStar, rfl⟩ := hFits
    have hSplit : before ++ [c, ' '] = before ++ [c] ++ [' '] := by simp
    have hCut : IsCutHead (before ++ [c] ++ [' ']) name := hSplit ▸ h
    obtain ⟨-, hBlank⟩ := hCut.eq_space_of_gap ⟨by simp, by decide⟩
    refine hFirst [] rfl (by simp) ⟨before, c, [' '], ?_, ?_, hStar, ⟨by simp, by decide⟩, hSplit, rfl⟩
    · exact fun hMem => hLine (List.mem_append_left _ hMem)
    · exact (endsBlank_concat before c).symm.trans hBlank
  | pointerReturn =>
    obtain ⟨before, rfl⟩ := hFits
    have hNe : before ≠ [] := by
      rintro rfl
      cases hAlphanum
    refine hFirst [.plain] rfl ?_
      ⟨before, ['*'], [' '], hNe, ?_, ⟨by simp, by simp⟩, ⟨by simp, by decide⟩, by simp, rfl⟩
    · rintro other hOther otherType hFront
      obtain rfl := List.mem_singleton.mp hOther
      obtain ⟨otherBefore, c, hStar, hText⟩ := h.exists_of_isFront_plain hFront
      obtain ⟨-, hEnds⟩ := List.append_inj' hText rfl
      exact hStar (List.cons.inj hEnds).1.symm
    · exact fun hMem => hLine (List.mem_append_left _ hMem)
  | pointerName =>
    obtain ⟨before, stars, hStars, rfl⟩ := hFits
    have hNe : before ≠ [] := by
      rintro rfl
      cases h.startsBlank_front
    have hOnly : IsStars (List.replicate stars '*') :=
      ⟨mt (List.replicate_eq_nil_iff '*').mp hStars, fun _ => List.eq_of_mem_replicate⟩
    have hSplit : before ++ ' ' :: List.replicate stars '*' = before ++ [' '] ++ List.replicate stars '*' := by
      simp
    refine hFirst [.plain, .pointerReturn] rfl (hNoSpace (hSplit ▸ hOnly.endsBlank _))
      ⟨before, [' '], _, [], hNe, ?_, ⟨by simp, by decide⟩, hOnly, by simp, by simp, rfl⟩
    exact fun hMem => hLine (List.mem_append_left _ hMem)
  | tolerant =>
    obtain ⟨hSpace, hPointer⟩ := hFits
    have hNe : front ≠ [] := by
      rintro rfl
      cases hAlphanum
    obtain ⟨type, c, -, hFront⟩ | ⟨c, hBlank, hLast⟩ := h.ends hNe
    · exact absurd hFront (hSpace type c)
    · have hEnd : endsBlank front = false := by rw [endsBlank, hLast, Option.any_some, hBlank]
      have hWord := h.boundary c hLast
      obtain ⟨before, rfl⟩ := List.getLast?_eq_some_iff.mp hLast
      refine hFirst [.plain, .pointerReturn, .pointerName] rfl ?_
        ⟨before, c, [], ?_, hWord, by simp, by simp, rfl⟩
      · refine List.forall_mem_append.mpr ⟨hNoSpace hEnd, List.forall_mem_singleton.mpr ?_⟩
        intro otherType hFront
        obtain ⟨type, stars, hStars, hText⟩ := h.fits_of_isFront_pointerName hFront hEnd
        exact hPointer type stars hStars hText
      · exact fun hMem => hLine (List.mem_append_left _ hMem)

theorem IsCutHead.eq_trim_append (h : IsCutHead front name) :
    front ++ name = trim front ++ name ∨ front ++ name = trim front ++ ' ' :: name := by
  by_cases hNe : front = []
  · exact Or.inl (by rw [hNe]; rfl)
  · have hStart : startsBlank front = false := startsBlank_left h.trimmed.1
    have hTrim : trim front = trimEnd front := by rw [trim, trimStart_eq_self hStart]
    obtain ⟨type, c, hBlank, hFront⟩ | ⟨c, hBlank, hLast⟩ := h.ends hNe
    · refine Or.inr ?_
      have hEnd : trimEnd front = type ++ [c] := by
        rw [hFront, trimEnd_append_cons hBlank]
        rfl
      rw [hTrim, hEnd, hFront]
      simp
    · refine Or.inl ?_
      have hEnd : endsBlank front = false := by rw [endsBlank, hLast, Option.any_some, hBlank]
      rw [hTrim, trimEnd_eq_self hEnd]

/-- A head has a shape exactly if its last word can name a function and a letter or a digit stands
before it. Then all of the head but a space between them is its return type and its name, and its
shape is the one that the end of the text before the name fits. -/
theorem matchShape?_iff_fits (hSpaced : SingleSpaced head) (hTrimmed : Trimmed head)
    (hCut : splitEnding isWordChar head = (front, name)) :
    ((matchShape? head).isSome = true ↔
        (∃ c ∈ name.head?, isNameStart c = true) ∧ front.any Char.isAlphanum = true) ∧
      (∀ shape parts, matchShape? head = some (shape, parts) ↔
        ((∃ c ∈ name.head?, isNameStart c = true) ∧ front.any Char.isAlphanum = true) ∧
          parts = ⟨trim front, name⟩ ∧ shape.Fits front) ∧
      (head = trim front ++ name ∨ head = trim front ++ ' ' :: name) := by
  obtain ⟨rfl, h⟩ := isCutHead_of_splitEnding hSpaced hTrimmed hCut
  have hMatches {shape : Shape} {parts : Head} (hMatch : matchShape? (front ++ name) = some (shape, parts)) :
      ((∃ c ∈ name.head?, isNameStart c = true) ∧ front.any Char.isAlphanum = true) ∧
        parts = ⟨trim front, name⟩ ∧ shape.Fits front := by
    have hParts := congrArg (Option.map Prod.snd) hMatch
    rw [Option.map_some, matchShape?_eq_some_iff h.singleSpaced h.trimmed.1, h.lastWordHead_eq] at hParts
    obtain ⟨hName, hAlphanum, hParts⟩ := hParts
    have hStart : ∃ c ∈ name.head?, isNameStart c = true := by
      cases name with
      | nil => cases hName
      | cons c rest => exact ⟨c, rfl, (Bool.and_eq_true_iff.mp hName).1⟩
    rw [any_isAlphanum_trim] at hAlphanum
    have hNe : front ≠ [] := by
      rintro rfl
      cases hAlphanum
    obtain ⟨fitting, hFits⟩ := h.exists_fits hNe
    have hFirst := h.matchShape?_of_fits hStart hAlphanum hFits
    rw [hMatch, Option.some_inj, Prod.mk.injEq] at hFirst
    exact ⟨⟨hStart, hAlphanum⟩, hParts, hFirst.1 ▸ hFits⟩
  refine ⟨⟨?_, ?_⟩, ?_, h.eq_trim_append⟩
  · intro hSome
    obtain ⟨⟨shape, parts⟩, hMatch⟩ := Option.isSome_iff_exists.mp hSome
    exact (hMatches hMatch).1
  · rintro ⟨hStart, hAlphanum⟩
    have hNe : front ≠ [] := by
      rintro rfl
      cases hAlphanum
    obtain ⟨shape, hFits⟩ := h.exists_fits hNe
    rw [h.matchShape?_of_fits hStart hAlphanum hFits]
    rfl
  · intro shape parts
    refine ⟨hMatches, ?_⟩
    rintro ⟨⟨hStart, hAlphanum⟩, rfl, hFits⟩
    exact h.matchShape?_of_fits hStart hAlphanum hFits

theorem matchShape?_starredHead :
    SingleSpaced "const char **größe".toList ∧ Trimmed "const char **größe".toList ∧
      splitEnding isWordChar "const char **größe".toList = ("const char **".toList, "größe".toList) ∧
      matchShape? "const char **größe".toList =
        some (.pointerName, ⟨"const char **".toList, "größe".toList⟩) := by
  have hSpaced : SingleSpaced "const char **größe".toList := by decide
  have hTrimmed : Trimmed "const char **größe".toList := ⟨by decide, by decide⟩
  have hCut : splitEnding isWordChar "const char **größe".toList =
      ("const char **".toList, "größe".toList) := by decide
  refine ⟨hSpaced, hTrimmed, hCut, ((matchShape?_iff_fits hSpaced hTrimmed hCut).2.1 _ _).mpr ?_⟩
  exact ⟨⟨⟨'g', rfl, rfl⟩, by decide⟩, by decide, "const char".toList, 2, by decide, by decide⟩

end HeaderDigest
