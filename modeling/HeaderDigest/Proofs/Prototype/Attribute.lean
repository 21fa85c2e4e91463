import HeaderDigest.Proofs.Text.Parts
import HeaderDigest.Proofs.Text.Trim
import HeaderDigest.Prototype.Signature

/-!
# Attributes in a text

The attribute behind a parameter list is looked for with its word and two opening parentheses, and
the first place where these come together is where the text is cut, if it ends in two parentheses
that close. A text in which they never come together keeps all of itself. Such texts are put
together at characters that are neither blank nor in the word.
-/

namespace HeaderDigest

open Text

/-- Whether no two parentheses that open side by side have an attribute's word before them. -/
def AttributeFree (s : Text) : Prop :=
  ∀ u v, s = u ++ '(' :: '(' :: v → ¬"__attribute__".toList <:+ trimEnd u

/-- Whether a text begins as an attribute does. -/
def OpensAttribute (s : Text) : Prop :=
  ∃ blanks inner, (∀ c ∈ blanks, isBlank c = true) ∧
    s = "__attribute__".toList ++ blanks ++ '(' :: '(' :: inner

namespace OpensAttribute

theorem append {s : Text} (h : OpensAttribute s) (t : Text) : OpensAttribute (s ++ t) := by
  obtain ⟨blanks, inner, hBlanks, rfl⟩ := h
  exact ⟨blanks, inner ++ t, hBlanks, by simp⟩

theorem ne_nil {s : Text} (h : OpensAttribute s) : s ≠ [] := by
  obtain ⟨blanks, inner, -, rfl⟩ := h
  simp

theorem startsBlank {s : Text} (h : OpensAttribute s) : startsBlank s = false := by
  obtain ⟨blanks, inner, -, rfl⟩ := h
  rfl

/-- An attribute opens before the first parenthesis that closes. -/
theorem of_append_closing {u v : Text} (h : OpensAttribute (u ++ ')' :: v)) : OpensAttribute u := by
  obtain ⟨blanks, inner, hBlanks, hText⟩ := h
  have hNone : ')' ∉ "__attribute__".toList ++ blanks ++ ['(', '('] := by
    simp only [List.mem_append, not_or]
    refine ⟨⟨by decide, ?_⟩, by decide⟩
    intro hMem
    exact absurd (hBlanks _ hMem) (by decide)
  have hPrefix : "__attribute__".toList ++ blanks ++ ['(', '('] <+: u ++ ')' :: v :=
    ⟨inner, by rw [hText]; simp⟩
  obtain ⟨more, hMore⟩ := prefix_of_prefix_append_cons hNone hPrefix
  exact ⟨blanks, more, hBlanks, by rw [← hMore]; simp⟩

/-- An attribute that has opened keeps the two parentheses at the end of the text. -/
theorem suffix_of_append {u s : Text} (h : OpensAttribute s) (hClose : [')', ')'] <:+ u ++ s) :
    [')', ')'] <:+ s := by
  obtain ⟨blanks, inner, -, rfl⟩ := h
  rw [← List.append_assoc] at hClose
  exact (suffix_of_suffix_append_cons (by decide) hClose).trans
    ((List.suffix_cons _ _).trans (List.suffix_append _ _))

end OpensAttribute

theorem attributeFree_iff {s : Text} : AttributeFree s ↔ ∀ u t, u ++ t = s → ¬OpensAttribute t := by
  constructor
  · rintro h u t rfl ⟨blanks, inner, hBlanks, rfl⟩
    have hEnd : endsBlank (u ++ "__attribute__".toList) = false := by
      rw [endsBlank, List.getLast?_append]
      rfl
    apply h (u ++ "__attribute__".toList ++ blanks) inner (by simp)
    rw [trimEnd_append_of_blank _ hBlanks, trimEnd_eq_self hEnd]
    exact List.suffix_append u _
  · rintro h u v rfl ⟨front, hFront⟩
    obtain ⟨blanks, hBlanks, hTrim⟩ := exists_eq_trimEnd_append u
    rw [← hFront] at hTrim
    exact h front _ (by rw [hTrim]; simp) ⟨blanks, v, hBlanks, rfl⟩

theorem exists_first_opensAttribute {s : Text} (h : ¬AttributeFree s) :
    ∃ before rest, s = before ++ rest ∧ OpensAttribute rest ∧
      ∀ u more, before = u ++ more → more ≠ [] → ¬OpensAttribute (more ++ rest) := by
  induction s with
  | nil =>
    refine absurd (attributeFree_iff.mpr ?_) h
    intro u t hText hOpens
    exact hOpens.ne_nil (List.append_eq_nil_iff.mp hText).2
  | cons c s ih =>
    by_cases hHere : OpensAttribute (c :: s)
    · refine ⟨[], c :: s, rfl, hHere, ?_⟩
      intro u more hMore hNe
      exact absurd (List.append_eq_nil_iff.mp hMore.symm).2 hNe
    · have hLater : ¬AttributeFree s := by
        intro hFree
        apply h
        rw [attributeFree_iff] at hFree ⊢
        intro u t hText hOpens
        cases u with
        | nil => exact hHere (hText ▸ hOpens)
        | cons d u => exact hFree u t (List.cons.inj hText).2 hOpens
      obtain ⟨before, rest, rfl, hOpens, hFirst⟩ := ih hLater
      refine ⟨c :: before, rest, rfl, hOpens, ?_⟩
      intro u more hMore hNe
      cases u with
      | nil =>
        rw [List.nil_append] at hMore
        rwa [← hMore]
      | cons d u => exact hFirst u more (List.cons.inj hMore).2 hNe

theorem isAttributeTail_iff {s : Text} :
    isAttributeTail s = true ↔ OpensAttribute s ∧ [')', ')'] <:+ s := by
  constructor
  · intro h
    unfold isAttributeTail at h
    split at h
    · rename_i rest hWord
      split at h
      · rename_i inner hOpen
        obtain ⟨blanks, hBlanks, hRest⟩ := exists_eq_append_trimStart rest
        rw [eq_append_of_dropPrefix? hOpen] at hRest
        have hText : s = "__attribute__".toList ++ blanks ++ ['(', '('] ++ inner := by
          rw [eq_append_of_dropPrefix? hWord, hRest]
          simp
        refine ⟨⟨blanks, inner, hBlanks, by rw [hText]; simp⟩, (List.isSuffixOf_iff_suffix.mp h).trans ?_⟩
        exact ⟨_, hText.symm⟩
      · cases h
    · cases h
  · rintro ⟨⟨blanks, inner, hBlanks, rfl⟩, hClose⟩
    have hStart : trimStart (blanks ++ ['(', '('] ++ inner) = ['(', '('] ++ inner := by
      rw [List.append_assoc, trimStart_append_of_blank _ hBlanks]
      exact trimStart_eq_self rfl
    have hText : "__attribute__".toList ++ blanks ++ '(' :: '(' :: inner =
        "__attribute__".toList ++ (blanks ++ ['(', '('] ++ inner) := by simp
    have hInner : [')', ')'] <:+ inner :=
      suffix_of_suffix_append_cons (u := []) (c := '(') (by decide)
        (suffix_of_suffix_append_cons (by decide) hClose)
    rw [hText, isAttributeTail, dropPrefix?_append]
    simp only [hStart, dropPrefix?_append]
    exact List.isSuffixOf_iff_suffix.mpr hInner

theorem isAttributeTail_of_attributeFree {u s : Text} (h : AttributeFree (u ++ s)) :
    isAttributeTail s = false := by
  rw [Bool.eq_false_iff]
  intro hTail
  exact attributeFree_iff.mp h u s rfl (isAttributeTail_iff.mp hTail).1

theorem beforeAttributeTail?_eq_none_iff {s : Text} :
    beforeAttributeTail? s = none ↔ ∀ u t, u ++ t = s → isAttributeTail t = false := by
  induction s with
  | nil =>
    refine iff_of_true rfl ?_
    intro u t hText
    rw [(List.append_eq_nil_iff.mp hText).2]
    rfl
  | cons c s ih =>
    rw [beforeAttributeTail?]
    split
    · rename_i hTail
      refine iff_of_false (Option.some_ne_none _) ?_
      intro h
      rw [h [] (c :: s) rfl] at hTail
      cases hTail
    · rename_i hTail
      rw [Option.map_eq_none_iff, ih]
      constructor
      · intro h u t hText
        cases u with
        | nil =>
          rw [List.nil_append] at hText
          exact hText ▸ Bool.eq_false_iff.mpr hTail
        | cons d u => exact h u t (List.cons.inj hText).2
      · rintro h u t rfl
        exact h (c :: u) t rfl

/-- The cut is before the first attribute that runs to the end. -/
theorem beforeAttributeTail?_eq_some_iff {s before : Text} :
    beforeAttributeTail? s = some before ↔ ∃ tail, s = before ++ tail ∧ isAttributeTail tail = true ∧
      ∀ u more, before = u ++ more → more ≠ [] → isAttributeTail (more ++ tail) = false := by
  induction s generalizing before with
  | nil =>
    refine iff_of_false (Option.some_ne_none before).symm ?_
    rintro ⟨tail, hText, hTail, -⟩
    rw [(List.append_eq_nil_iff.mp hText.symm).2] at hTail
    cases hTail
  | cons c s ih =>
    rw [beforeAttributeTail?]
    split
    · rename_i hTail
      constructor
      · rintro ⟨⟩
        refine ⟨c :: s, rfl, hTail, ?_⟩
        intro u more hMore hNe
        exact absurd (List.append_eq_nil_iff.mp hMore.symm).2 hNe
      · rintro ⟨tail, hText, -, hFirst⟩
        by_cases hNil : before = []
        · rw [hNil]
        · have hNot := hFirst [] before rfl hNil
          rw [← hText, hTail] at hNot
          cases hNot
    · rename_i hTail
      rw [Option.map_eq_some_iff]
      constructor
      · rintro ⟨before, hBefore, rfl⟩
        obtain ⟨tail, rfl, hRest, hFirst⟩ := ih.mp hBefore
        refine ⟨tail, rfl, hRest, ?_⟩
        intro u more hMore hNe
        cases u with
        | nil =>
          rw [List.nil_append] at hMore
          exact hMore ▸ Bool.eq_false_iff.mpr hTail
        | cons d u => exact hFirst u more (List.cons.inj hMore).2 hNe
      · rintro ⟨tail, hText, hRest, hFirst⟩
        cases before with
        | nil =>
          rw [List.nil_append] at hText
          exact absurd (hText ▸ hRest) hTail
        | cons d before =>
          obtain ⟨rfl, hMore⟩ := List.cons.inj hText
          refine ⟨before, ih.mpr ⟨tail, hMore, hRest, ?_⟩, rfl⟩
          rintro u more rfl hNe
          exact hFirst (c :: u) more rfl hNe

theorem withoutAttributeTail_of_attributeFree {s : Text} (h : AttributeFree s) :
    withoutAttributeTail s = s := by
  rw [withoutAttributeTail, beforeAttributeTail?_eq_none_iff.mpr]
  rintro u t rfl
  exact isAttributeTail_of_attributeFree h

/-- An attribute that runs to the end closes two parentheses there. -/
theorem withoutAttributeTail_of_not_suffix {s : Text} (h : ¬[')', ')'] <:+ s) :
    withoutAttributeTail s = s := by
  rw [withoutAttributeTail, beforeAttributeTail?_eq_none_iff.mpr]
  rintro u t rfl
  rw [Bool.eq_false_iff]
  intro hTail
  exact h ((isAttributeTail_iff.mp hTail).2.trans (List.suffix_append u t))

/-- The first place where an attribute opens is the cut, whatever stands behind the parenthesis that
closes, as long as two of them close the text. -/
theorem withoutAttributeTail_of_opens {before rest : Text} (hOpens : OpensAttribute (rest ++ [')']))
    (hFirst : ∀ u more, before = u ++ more → more ≠ [] → ¬OpensAttribute (more ++ (rest ++ [')'])))
    {behind : Text} (hClose : [')', ')'] <:+ before ++ (rest ++ [')']) ++ behind) :
    withoutAttributeTail (before ++ (rest ++ [')']) ++ behind) = trimEnd before := by
  rw [List.append_assoc] at hClose
  have hCut : beforeAttributeTail? (before ++ (rest ++ [')']) ++ behind) = some before := by
    refine beforeAttributeTail?_eq_some_iff.mpr ⟨rest ++ [')'] ++ behind, List.append_assoc _ _ _, ?_, ?_⟩
    · have hMore := hOpens.append behind
      exact isAttributeTail_iff.mpr ⟨hMore, hMore.suffix_of_append hClose⟩
    · intro u more hMore hNe
      rw [Bool.eq_false_iff]
      intro hTail
      have hInside : OpensAttribute (more ++ rest) := by
        apply OpensAttribute.of_append_closing (v := behind)
        have hText : more ++ (rest ++ [')'] ++ behind) = more ++ rest ++ ')' :: behind := by simp
        exact hText ▸ (isAttributeTail_iff.mp hTail).1
      apply hFirst u more hMore hNe
      rw [← List.append_assoc]
      exact hInside.append [')']
  rw [withoutAttributeTail, hCut]

/-- Where an attribute opens in a text that ends in a parenthesis, there is one place for the cut. -/
theorem exists_cut_of_not_attributeFree {front : Text} (h : ¬AttributeFree (front ++ [')'])) :
    ∃ before rest, front ++ [')'] = before ++ rest ∧ rest ≠ [] ∧ ∀ behind,
      [')', ')'] <:+ front ++ [')'] ++ behind →
        withoutAttributeTail (front ++ [')'] ++ behind) = trimEnd before := by
  obtain ⟨before, rest, hCut, hOpens, hFirst⟩ := exists_first_opensAttribute h
  refine ⟨before, rest, hCut, hOpens.ne_nil, ?_⟩
  intro behind hClose
  rcases List.eq_nil_or_concat rest with rfl | ⟨more, c, rfl⟩
  · exact absurd rfl hOpens.ne_nil
  · rw [List.concat_eq_append] at hCut hOpens hFirst
    rw [← List.append_assoc] at hCut
    obtain ⟨rfl, hLast⟩ := List.append_inj' hCut rfl
    rw [← hLast] at hOpens hFirst
    rw [List.append_assoc before] at hClose ⊢
    exact withoutAttributeTail_of_opens hOpens hFirst hClose

/-- Behind a text without attributes the blanks before an attribute go with it. -/
theorem withoutAttributeTail_append {front glue tail : Text} (h : AttributeFree (front ++ [')']))
    (hGlue : ∀ c ∈ glue, isBlank c = true) (hTail : isAttributeTail tail = true) :
    withoutAttributeTail (front ++ [')'] ++ glue ++ tail) = front ++ [')'] := by
  have hCut : beforeAttributeTail? (front ++ [')'] ++ glue ++ tail) = some (front ++ [')'] ++ glue) := by
    refine beforeAttributeTail?_eq_some_iff.mpr ⟨tail, rfl, hTail, ?_⟩
    intro u more hMore hNe
    rw [Bool.eq_false_iff]
    intro hEarlier
    have hOpens := (isAttributeTail_iff.mp hEarlier).1
    rw [List.append_assoc] at hMore
    obtain ⟨m, rfl, hBehind⟩ | ⟨m, rfl, rfl⟩ := List.append_eq_append_iff.mp hMore
    · cases m with
      | nil =>
        rw [List.nil_append] at hBehind
        rw [← hBehind] at hOpens
        exact (OpensAttribute.of_append_closing (u := []) hOpens).ne_nil rfl
      | cons d m =>
        obtain ⟨c, more, rfl⟩ := List.exists_cons_of_ne_nil hNe
        have hText : glue = m ++ c :: more := (List.cons.inj hBehind).2
        have hc : c ∈ glue := hText ▸ List.mem_append_right m List.mem_cons_self
        exact absurd ((hGlue c hc).symm.trans hOpens.startsBlank) (by simp)
    · have hText : m ++ ([')'] ++ glue) ++ tail = m ++ ')' :: (glue ++ tail) := by simp
      rw [hText] at hOpens
      exact attributeFree_iff.mp h u (m ++ [')']) (List.append_assoc _ _ _).symm
        (hOpens.of_append_closing.append [')'])
  rw [withoutAttributeTail, hCut]
  simp only [trimEnd_append_of_blank _ hGlue]
  exact trimEnd_eq_self (by rw [endsBlank, List.getLast?_concat]; rfl)

/-- A text that is an attribute up to its end is cut at its beginning. -/
theorem withoutAttributeTail_eq_nil {s : Text} (h : isAttributeTail s = true) :
    withoutAttributeTail s = [] := by
  have hCut : beforeAttributeTail? s = some [] := by
    refine beforeAttributeTail?_eq_some_iff.mpr ⟨s, rfl, h, ?_⟩
    intro u more hMore hNe
    exact absurd (List.append_eq_nil_iff.mp hMore.symm).2 hNe
  rw [withoutAttributeTail, hCut]
  rfl

theorem exists_closing_of_withoutAttributeTail {s front : Text}
    (h : withoutAttributeTail s = front ++ [')']) : ∃ stem, s = stem ++ [')'] := by
  unfold withoutAttributeTail at h
  split at h
  · rename_i before hBefore
    obtain ⟨tail, rfl, hTail, -⟩ := beforeAttributeTail?_eq_some_iff.mp hBefore
    obtain ⟨stem, rfl⟩ := (isAttributeTail_iff.mp hTail).2
    exact ⟨before ++ stem ++ [')'], by simp⟩
  · exact ⟨front, h⟩

namespace AttributeFree

theorem of_hasPart {s : Text} (h : hasPart ['(', '('] s = false) : AttributeFree s := by
  rintro u v rfl
  have hPart : hasPart ['(', '('] (u ++ '(' :: '(' :: v) = true :=
    hasPart_iff.mpr ⟨u, v, by simp⟩
  rw [h] at hPart
  cases hPart

theorem of_not_mem {s : Text} (h : '(' ∉ s) : AttributeFree s :=
  of_hasPart (hasPart_eq_false_of_not_mem List.mem_cons_self h)

theorem append_cons {u v : Text} {c : Char} (hBlank : isBlank c = false)
    (hWord : c ∉ "__attribute__".toList)
    (hOpen : c = '(' → u.getLast? ≠ some '(' ∧
      (v.head? = some '(' → ¬"__attribute__".toList <:+ trimEnd u))
    (hu : AttributeFree u) (hv : AttributeFree v) : AttributeFree (u ++ c :: v) := by
  intro a b h
  obtain ⟨front, rfl, hFront⟩ | ⟨front, rfl, hFront⟩ := List.append_eq_append_iff.mp h
  · cases front with
    | nil =>
      obtain ⟨rfl, rfl⟩ := List.cons.inj hFront
      rw [List.append_nil]
      exact (hOpen rfl).2 rfl
    | cons d front =>
      obtain ⟨rfl, rfl⟩ := List.cons.inj hFront
      rw [trimEnd_append_cons hBlank]
      intro hSuffix
      exact hv front b rfl (suffix_of_suffix_append_cons hWord hSuffix)
  · cases front with
    | nil =>
      obtain ⟨rfl, rfl⟩ := List.cons.inj hFront
      rw [List.append_nil] at hOpen
      exact (hOpen rfl).2 rfl
    | cons d front =>
      obtain ⟨rfl, hMore⟩ := List.cons.inj hFront
      cases front with
      | nil =>
        obtain ⟨rfl, -⟩ := List.cons.inj hMore
        exact absurd List.getLast?_concat (hOpen rfl).1
      | cons e front =>
        obtain ⟨rfl, -⟩ := List.cons.inj hMore
        exact hu a front rfl

theorem append_closing {u v : Text} (hu : AttributeFree u) (hv : AttributeFree v) :
    AttributeFree (u ++ ')' :: v) := by
  apply append_cons _ _ _ hu hv
  · decide
  · decide
  · intro hc
    exact absurd hc (by decide)

theorem cons {s : Text} {c : Char} (hWord : c ≠ '_') (h : AttributeFree s) : AttributeFree (c :: s) := by
  rw [attributeFree_iff] at h ⊢
  intro u t hText hOpens
  cases u with
  | nil =>
    obtain ⟨blanks, inner, -, rfl⟩ := hOpens
    exact hWord (List.cons.inj hText).1.symm
  | cons d u => exact h u t (List.cons.inj hText).2 hOpens

end AttributeFree

end HeaderDigest
