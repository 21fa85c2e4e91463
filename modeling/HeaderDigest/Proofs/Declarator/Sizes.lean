import HeaderDigest.Declarator.Parts
import HeaderDigest.Proofs.Text.Blanks

/-!
# Array sizes at the end of a declarator

A declarator may end in sizes, groups in square brackets with perhaps blanks around them. Reading takes
off the longest ending of this kind. A group ends at its first closing bracket, so another opening one may
stand in it.
-/

namespace HeaderDigest

open Text

inductive IsSizes : Text → Prop
  | nil : IsSizes []
  | blank {c : Char} {s : Text} : isBlank c = true → IsSizes s → IsSizes (c :: s)
  | size {size rest : Text} : ']' ∉ size → IsSizes rest → IsSizes ('[' :: (size ++ ']' :: rest))

/-- No longer ending of a text than `sizes` consists of sizes. -/
structure EndsInSizes (s base sizes : Text) : Prop where
  text : s = base ++ sizes
  isSizes : IsSizes sizes
  longest : ∀ base' sizes', s = base' ++ sizes' → IsSizes sizes' → base.length ≤ base'.length

theorem isSizes_cons_iff {c : Char} {s : Text} : IsSizes (c :: s) ↔ (isBlank c = true ∧ IsSizes s) ∨
    (c = '[' ∧ ∃ size rest, ']' ∉ size ∧ s = size ++ ']' :: rest ∧ IsSizes rest) := by
  constructor
  · intro h
    cases h with
    | blank hc hs => exact Or.inl ⟨hc, hs⟩
    | @size size rest hSize hRest => exact Or.inr ⟨rfl, size, rest, hSize, rfl, hRest⟩
  · rintro (⟨hc, hs⟩ | ⟨rfl, size, rest, hSize, rfl, hRest⟩)
    · exact .blank hc hs
    · exact .size hSize hRest

namespace IsSizes

variable {u v : Text}

theorem of_blank (h : ∀ c ∈ v, isBlank c = true) : IsSizes v := by
  induction v with
  | nil => exact .nil
  | cons c v ih => exact .blank (h c List.mem_cons_self) (ih fun d hd => h d (List.mem_cons_of_mem c hd))

theorem append (hu : IsSizes u) (hv : IsSizes v) : IsSizes (u ++ v) := by
  induction hu with
  | nil => exact hv
  | blank hc _ ih => exact .blank hc ih
  | size hSize _ ih =>
    rw [List.cons_append, List.append_assoc, List.cons_append]
    exact .size hSize ih

/-- A group does not end in a blank. -/
theorem of_append_blank (hv : ∀ c ∈ v, isBlank c = true) (h : IsSizes (u ++ v)) : IsSizes u := by
  have hClosing : ']' ∉ v := not_mem_of_blank hv (by decide)
  generalize hText : u ++ v = s at h
  induction h generalizing u with
  | nil =>
    rw [(List.append_eq_nil_iff.mp hText).1]
    exact .nil
  | blank hc _ ih =>
    cases u with
    | nil => exact .nil
    | cons d u =>
      obtain ⟨rfl, hRest⟩ := List.cons.inj hText
      exact .blank hc (ih hRest)
  | @size size rest hSize _ ih =>
    cases u with
    | nil => exact .nil
    | cons d u =>
      obtain ⟨rfl, hRest⟩ := List.cons.inj hText
      obtain ⟨more, -, rfl⟩ | ⟨more, rfl, hMore⟩ := List.append_eq_append_iff.mp hRest
      · exact absurd (List.mem_append_right more List.mem_cons_self) hClosing
      · cases more with
        | nil =>
          rw [List.nil_append] at hMore
          exact absurd (hMore ▸ List.mem_cons_self) hClosing
        | cons e more =>
          obtain ⟨rfl, hBehind⟩ := List.cons.inj hMore
          exact .size hSize (ih hBehind.symm)

theorem of_blank_append (hu : ∀ c ∈ u, isBlank c = true) (h : IsSizes (u ++ v)) : IsSizes v := by
  induction u with
  | nil => exact h
  | cons c u ih =>
    obtain ⟨hc, hRest⟩ := List.forall_mem_cons.mp hu
    obtain ⟨-, hSizes⟩ | ⟨rfl, -⟩ := isSizes_cons_iff.mp h
    · exact ih hRest hSizes
    · exact absurd hc (by decide)

/-- Without a bracket that opens a group there are only blanks. -/
theorem blank_of_not_mem (hu : '[' ∉ u) (h : IsSizes (u ++ v)) : ∀ c ∈ u, isBlank c = true := by
  induction u with
  | nil => simp
  | cons c u ih =>
    obtain ⟨hc, hRest⟩ := List.ne_and_not_mem_of_not_mem_cons hu
    obtain ⟨hBlank, hSizes⟩ | ⟨rfl, -⟩ := isSizes_cons_iff.mp h
    · exact List.forall_mem_cons.mpr ⟨hBlank, ih hRest hSizes⟩
    · exact absurd rfl hc

end IsSizes

theorem isGroups_iff (s : Text) : (Declarator.isGroups false s = true ↔ IsSizes s) ∧
    (Declarator.isGroups true s = true ↔
      ∃ size rest, ']' ∉ size ∧ s = size ++ ']' :: rest ∧ IsSizes rest) := by
  induction s with
  | nil =>
    refine ⟨iff_of_true rfl .nil, iff_of_false (by decide) ?_⟩
    rintro ⟨size, rest, -, hText, -⟩
    simp at hText
  | cons c s ih =>
    obtain ⟨ihOutside, ihInside⟩ := ih
    constructor
    · rw [Declarator.isGroups, if_neg Bool.false_ne_true, isSizes_cons_iff, ← ihOutside, ← ihInside]
      cases hBlank : isBlank c with
      | true =>
        have hc : c ≠ '[' := ne_of_isBlank hBlank (by decide)
        simp [hc]
      | false => simp
    · rw [Declarator.isGroups, if_pos rfl]
      by_cases hc : c = ']'
      · subst hc
        rw [bne_self_eq_false, ihOutside]
        constructor
        · exact fun hs => ⟨[], s, by simp, rfl, hs⟩
        · rintro ⟨size, rest, hSize, hText, hRest⟩
          cases size with
          | nil => rwa [(List.cons.inj hText).2]
          | cons d size => exact absurd ((List.cons.inj hText).1 ▸ List.mem_cons_self) hSize
      · rw [bne_iff_ne.mpr hc, ihInside]
        constructor
        · rintro ⟨size, rest, hSize, rfl, hRest⟩
          exact ⟨c :: size, rest, by simp [hSize, Ne.symm hc], rfl, hRest⟩
        · rintro ⟨size, rest, hSize, hText, hRest⟩
          cases size with
          | nil => exact absurd (List.cons.inj hText).1 hc
          | cons d size =>
            obtain ⟨rfl, rfl⟩ := List.cons.inj hText
            exact ⟨size, rest, (List.ne_and_not_mem_of_not_mem_cons hSize).2, rfl, hRest⟩

namespace EndsInSizes

variable {s base base' sizes sizes' : Text}

theorem base_eq (h : EndsInSizes s base sizes) (h' : EndsInSizes s base' sizes') : base = base' := by
  have hLess := h.longest base' sizes' h'.text h'.isSizes
  have hMore := h'.longest base sizes h.text h.isSizes
  exact (List.append_inj (h.text.symm.trans h'.text) (Nat.le_antisymm hLess hMore)).1

theorem of_not_mem (hBase : '[' ∉ base) (hEnd : endsBlank base = false) (hSizes : IsSizes sizes) :
    EndsInSizes (base ++ sizes) base sizes := by
  refine ⟨rfl, hSizes, fun base' sizes' hText hOther => ?_⟩
  obtain ⟨more, rfl, -⟩ | ⟨more, rfl, rfl⟩ := List.append_eq_append_iff.mp hText
  · simp
  · have hBlank := hOther.blank_of_not_mem fun hMem => hBase (List.mem_append_right base' hMem)
    obtain rfl | ⟨front, c, rfl⟩ := List.eq_nil_or_concat more
    · simp
    · rw [List.concat_eq_append] at hBlank hEnd
      rw [endsBlank, ← List.append_assoc, List.getLast?_concat, Option.any_some, hBlank c (by simp)] at hEnd
      cases hEnd

/-- Blanks at the ends of a declarator do not count. -/
theorem exists_of_trim (h : EndsInSizes (trim s) base sizes) : ∃ base' sizes', EndsInSizes s base' sizes' ∧
    base'.filter (!isBlank ·) = base.filter (!isBlank ·) := by
  obtain ⟨b, b', hb, hb', -, hs⟩ := exists_eq_append_trim s
  by_cases hAll : IsSizes (trim s)
  · have hNil : base = [] := List.length_eq_zero_iff.mp (Nat.le_zero.mp (h.longest [] (trim s) rfl hAll))
    refine ⟨[], s, ⟨rfl, ?_, fun _ _ _ _ => Nat.zero_le _⟩, by rw [hNil]⟩
    rw [hs]
    exact ((IsSizes.of_blank hb).append hAll).append (.of_blank hb')
  · refine ⟨b ++ base, sizes ++ b',
      ⟨?_, h.isSizes.append (.of_blank hb'), fun other sizes' hText hSizes => ?_⟩, ?_⟩
    · conv => lhs; rw [hs, h.text]
      simp
    · have hLength := congrArg List.length h.text
      rw [hs] at hText
      -- The other ending begins in the blanks behind, in the trimmed text, or in the blanks before it.
      obtain ⟨more, rfl, -⟩ | ⟨rest, hFront, rfl⟩ := List.append_eq_append_iff.mp hText
      · simp only [List.length_append] at hLength ⊢
        omega
      · obtain ⟨more, rfl, hTrim⟩ | ⟨more, rfl, rfl⟩ := List.append_eq_append_iff.mp hFront
        · have hLess := h.longest more rest hTrim (hSizes.of_append_blank hb')
          simp only [List.length_append]
          omega
        · have hMore : ∀ c ∈ more, isBlank c = true := fun c hc => hb c (List.mem_append_right other hc)
          exact absurd (IsSizes.of_blank_append hMore (hSizes.of_append_blank hb')) hAll
    · have hNone : b.filter (!isBlank ·) = [] := by
        rw [List.filter_eq_nil_iff]
        intro c hc
        simp [hb c hc]
      rw [List.filter_append, hNone, List.nil_append]

end EndsInSizes

namespace Declarator

theorem endsInSizes_of_beforeSizes? {s base : Text} (h : beforeSizes? s = some base) :
    ∃ sizes, EndsInSizes s base sizes ∧ ∃ c ∈ sizes, isBlank c = false := by
  induction s generalizing base with
  | nil => cases h
  | cons c s ih =>
    rw [beforeSizes?] at h
    split at h
    · rename_i hHere
      obtain ⟨hGroups, hSaid⟩ := Bool.and_eq_true_iff.mp hHere
      cases h
      obtain ⟨d, hd, hBlank⟩ := List.any_eq_true.mp hSaid
      refine ⟨c :: s, ⟨rfl, (isGroups_iff _).1.mp hGroups, fun _ _ _ _ => Nat.zero_le _⟩, d, hd, ?_⟩
      simpa using hBlank
    · rename_i hNot
      split at h
      · cases h
      · obtain ⟨base, hRest, rfl⟩ := Option.map_eq_some_iff.mp h
        obtain ⟨sizes, hEnds, d, hd, hBlank⟩ := ih hRest
        refine ⟨sizes, ⟨by rw [hEnds.text, List.cons_append], hEnds.isSizes, fun base' sizes' hText hSizes => ?_⟩,
          d, hd, hBlank⟩
        cases base' with
        | nil =>
          have hGroups : isGroups false (c :: s) = true := by
            rw [(isGroups_iff _).1, hText]
            exact hSizes
          have hSaid : (c :: s).any (!isBlank ·) = true := by
            rw [List.any_eq_true]
            exact ⟨d, by rw [hEnds.text]; simp [hd], by rw [hBlank]; rfl⟩
          exact absurd (Bool.and_eq_true_iff.mpr ⟨hGroups, hSaid⟩) hNot
        | cons e base' => exact Nat.succ_le_succ (hEnds.longest base' sizes' (List.cons.inj hText).2 hSizes)

theorem blank_of_beforeSizes?_eq_none {s base sizes : Text} (hLine : '\n' ∉ s) (h : beforeSizes? s = none)
    (hText : s = base ++ sizes) (hSizes : IsSizes sizes) : ∀ c ∈ sizes, isBlank c = true := by
  induction s generalizing base with
  | nil =>
    rw [(List.append_eq_nil_iff.mp hText.symm).2]
    simp
  | cons c s ih =>
    obtain ⟨hc, hRest⟩ := List.ne_and_not_mem_of_not_mem_cons hLine
    rw [beforeSizes?] at h
    split at h
    · cases h
    · rename_i hNot
      rw [if_neg (Ne.symm hc), Option.map_eq_none_iff] at h
      cases base with
      | nil =>
        have hGroups : isGroups false (c :: s) = true := by
          rw [(isGroups_iff _).1, hText]
          exact hSizes
        rw [hGroups, Bool.true_and, hText, List.nil_append, List.any_eq_true] at hNot
        intro d hd
        by_contra hBlank
        exact hNot ⟨d, hd, by simpa using hBlank⟩
      | cons d base => exact ih hRest h (List.cons.inj hText).2

/-- Reading goes on with what stands before the sizes at the end. -/
theorem exists_endsInSizes {s : Text} (hLine : '\n' ∉ s) :
    ∃ base sizes, EndsInSizes s base sizes ∧ trim ((beforeSizes? s).getD s) = trim base := by
  cases hBefore : beforeSizes? s with
  | some base =>
    obtain ⟨sizes, hEnds, -⟩ := endsInSizes_of_beforeSizes? hBefore
    exact ⟨base, sizes, hEnds, rfl⟩
  | none =>
    obtain ⟨blanks, hBlanks, hs⟩ := exists_eq_trimEnd_append s
    refine ⟨trimEnd s, blanks, ⟨hs, .of_blank hBlanks, fun base' sizes' hText hSizes => ?_⟩, ?_⟩
    · have hBlank := blank_of_beforeSizes?_eq_none hLine hBefore hText hSizes
      rw [hText, trimEnd_append_of_blank _ hBlank, ← List.length_reverse, trimEnd, List.reverse_reverse]
      exact (List.dropWhile_sublist isBlank).length_le.trans (Nat.le_of_eq List.length_reverse)
    · rw [Option.getD_none, trim_trimEnd]

end Declarator

end HeaderDigest
