import HeaderDigest.Text.Brackets

/-!
# Balanced texts

A text is balanced in a kind of bracket when each bracket in it has its partner in it. Looking for
a partner passes over such a text, in either direction, and counting gives nothing.
-/

namespace HeaderDigest.Text

inductive Balanced (opening closing : Char) : Text → Prop
  | nil : Balanced opening closing []
  | char {c : Char} {s : Text} : c ≠ opening → c ≠ closing → Balanced opening closing s →
      Balanced opening closing (c :: s)
  | group {inner rest : Text} : Balanced opening closing inner → Balanced opening closing rest →
      Balanced opening closing (opening :: inner ++ closing :: rest)

variable {opening closing : Char} {s t : Text}

namespace Balanced

theorem append (hs : Balanced opening closing s) (ht : Balanced opening closing t) :
    Balanced opening closing (s ++ t) := by
  induction hs with
  | nil => exact ht
  | char hOpening hClosing _ ih => exact ih.char hOpening hClosing
  | @group inner rest hInner _ _ ih =>
    have h : opening :: inner ++ closing :: rest ++ t = opening :: inner ++ closing :: (rest ++ t) := by
      simp
    rw [h]
    exact hInner.group ih

theorem of_not_mem (hOpening : opening ∉ s) (hClosing : closing ∉ s) : Balanced opening closing s := by
  induction s with
  | nil => exact nil
  | cons c s ih =>
    obtain ⟨hc, hOpening⟩ := List.ne_and_not_mem_of_not_mem_cons hOpening
    obtain ⟨hd, hClosing⟩ := List.ne_and_not_mem_of_not_mem_cons hClosing
    exact (ih hOpening hClosing).char (Ne.symm hc) (Ne.symm hd)

theorem bracketed (hs : Balanced opening closing s) :
    Balanced opening closing (opening :: s ++ [closing]) := hs.group nil

theorem reverse (hs : Balanced opening closing s) : Balanced closing opening s.reverse := by
  induction hs with
  | nil => exact nil
  | char hOpening hClosing _ ih =>
    rw [List.reverse_cons]
    exact ih.append (nil.char hClosing hOpening)
  | @group inner rest _ _ ihInner ihRest =>
    have h : (opening :: inner ++ closing :: rest).reverse =
        rest.reverse ++ (closing :: inner.reverse ++ [opening]) := by
      simp
    rw [h]
    exact ihRest.append ihInner.bracketed

/-- Each opening bracket has its partner behind it. -/
theorem exists_partner (hNe : opening ≠ closing) (hs : Balanced opening closing s) (u v : Text)
    (hText : s = u ++ opening :: v) :
    ∃ inner rest, Balanced opening closing inner ∧ v = inner ++ closing :: rest := by
  induction hs generalizing u v with
  | nil => cases u <;> cases hText
  | char hOpening _ _ ih =>
    cases u with
    | nil => exact absurd (List.cons.inj hText).1 hOpening
    | cons d u => exact ih u v (List.cons.inj hText).2
  | @group inner rest hInner _ ihInner ihRest =>
    cases u with
    | nil => exact ⟨inner, rest, hInner, (List.cons.inj hText).2.symm⟩
    | cons d u =>
      have hBehind : inner ++ closing :: rest = u ++ opening :: v := (List.cons.inj hText).2
      obtain ⟨more, rfl, hMore⟩ | ⟨more, rfl, hMore⟩ := List.append_eq_append_iff.mp hBehind
      · cases more with
        | nil => exact absurd (List.cons.inj hMore).1.symm hNe
        | cons e more =>
          obtain ⟨-, rfl⟩ := List.cons.inj hMore
          exact ihRest more v rfl
      · cases more with
        | nil => exact absurd (List.cons.inj hMore).1 hNe
        | cons e more =>
          obtain ⟨rfl, rfl⟩ := List.cons.inj hMore
          obtain ⟨i, r, hBalanced, rfl⟩ := ihInner u more rfl
          exact ⟨i, r ++ closing :: rest, hBalanced, by simp⟩

end Balanced

/-- The search for a partner reads on behind a balanced text as it stood before it. -/
theorem splitPartner?_append (hNe : opening ≠ closing) (hs : Balanced opening closing s) (depth : Nat)
    (rest : Text) : splitPartner? opening closing depth (s ++ rest) =
      (splitPartner? opening closing depth rest).map fun (inner, after) => (s ++ inner, after) := by
  induction hs generalizing depth rest with
  | nil => simp
  | char hOpening hClosing _ ih =>
    rw [List.cons_append, splitPartner?, if_neg hOpening, if_neg hClosing, ih, Option.map_map]
    rfl
  | @group inner more _ _ ihInner ihMore =>
    have hText : opening :: inner ++ closing :: more ++ rest =
        opening :: (inner ++ closing :: (more ++ rest)) := by
      simp
    rw [hText, splitPartner?, if_pos rfl, ihInner, splitPartner?, if_neg hNe.symm, if_pos rfl,
      if_neg (Nat.succ_ne_zero depth), Nat.add_sub_cancel, ihMore]
    simp only [Option.map_map, Function.comp_def, List.cons_append, List.append_assoc]

theorem splitPartner?_partner (hNe : opening ≠ closing) (hs : Balanced opening closing s)
    (rest : Text) :
    splitPartner? opening closing 0 (s ++ closing :: rest) = some (s, rest) := by
  rw [splitPartner?_append hNe hs, splitPartner?, if_neg hNe.symm, if_pos rfl, if_pos rfl,
    Option.map_some]
  simp

theorem balance_append (opening closing : Char) (s t : Text) :
    balance opening closing (s ++ t) = balance opening closing s + balance opening closing t := by
  have key (s : Text) (depth : Int) : s.foldl (fun depth c =>
      if c = opening then depth + 1 else if c = closing then depth - 1 else depth) depth =
        depth + balance opening closing s := by
    induction s generalizing depth with
    | nil => exact (Int.add_zero depth).symm
    | cons c s ih =>
      rw [balance, List.foldl_cons, List.foldl_cons, ih, ih]
      split
      · omega
      · split <;> omega
  rw [balance, List.foldl_append]
  exact key t _

theorem balance_cons (opening closing c : Char) (s : Text) :
    balance opening closing (c :: s) = balance opening closing [c] + balance opening closing s := by
  rw [← List.singleton_append, balance_append]

theorem balance_opening (opening closing : Char) : balance opening closing [opening] = 1 := by
  simp [balance]

theorem balance_closing (hNe : opening ≠ closing) : balance opening closing [closing] = -1 := by
  simp [balance, hNe.symm]

theorem balance_other {c : Char} (hOpening : c ≠ opening) (hClosing : c ≠ closing) :
    balance opening closing [c] = 0 := by
  simp [balance, hOpening, hClosing]

theorem balance_eq_zero (hNe : opening ≠ closing) (hs : Balanced opening closing s) :
    balance opening closing s = 0 := by
  induction hs with
  | nil => rfl
  | @char c s hOpening hClosing _ ih =>
    rw [balance_cons, balance_other hOpening hClosing, ih]
    rfl
  | @group inner rest _ _ ihInner ihRest =>
    have hText : opening :: inner ++ closing :: rest = [opening] ++ inner ++ [closing] ++ rest := by
      simp
    rw [hText, balance_append, balance_append, balance_append, ihInner, ihRest, balance_opening,
      balance_closing hNe]
    rfl

theorem balance_eq_count (hNe : opening ≠ closing) (s : Text) :
    balance opening closing s = (s.count opening : Int) - s.count closing := by
  induction s with
  | nil => rfl
  | cons c s ih =>
    rw [balance_cons, ih, List.count_cons, List.count_cons]
    by_cases hOpening : c = opening
    · subst hOpening
      simp only [balance_opening, beq_self_eq_true, if_true, beq_iff_eq, if_neg hNe]
      omega
    · by_cases hClosing : c = closing
      · subst hClosing
        simp only [balance_closing hNe, beq_self_eq_true, if_true, beq_iff_eq, if_neg hOpening]
        omega
      · simp only [balance_other hOpening hClosing, beq_iff_eq, if_neg hOpening, if_neg hClosing]
        omega

/-- Whether a text that stands inside `depth` brackets and one more closes the `depth` ones and
leaves the other open, from its beginning on. -/
structure Closes (opening closing : Char) (depth : Nat) (s : Text) : Prop where
  total : balance opening closing s = -depth
  never_below : ∀ beginning, beginning <+: s → -(depth : Int) ≤ balance opening closing beginning

theorem closes_nil (opening closing : Char) : Closes opening closing 0 [] := by
  refine ⟨rfl, ?_⟩
  intro beginning h
  rw [List.prefix_nil.mp h]
  exact Int.le_refl 0

/-- The first character changes the depth at which the rest is closed. -/
theorem closes_cons_iff {c : Char} {depth depth' : Nat}
    (h : (depth' : Int) = depth + balance opening closing [c]) :
    Closes opening closing depth (c :: s) ↔ Closes opening closing depth' s := by
  constructor
  · rintro ⟨hTotal, hBelow⟩
    refine ⟨?_, ?_⟩
    · rw [balance_cons] at hTotal
      omega
    · intro beginning hBeginning
      have hLonger := hBelow (c :: beginning) (List.cons_prefix_cons.mpr ⟨rfl, hBeginning⟩)
      rw [balance_cons] at hLonger
      omega
  · rintro ⟨hTotal, hBelow⟩
    refine ⟨?_, ?_⟩
    · rw [balance_cons]
      omega
    · intro beginning hBeginning
      obtain rfl | ⟨rest, rfl, hRest⟩ := List.prefix_cons_iff.mp hBeginning
      · rw [balance_nil]
        omega
      · have hShorter := hBelow rest hRest
        rw [balance_cons]
        omega

/-- The partner is found exactly where the depth is reached for the first time and a closing
bracket comes. -/
theorem splitPartner?_eq_some_iff (hNe : opening ≠ closing) (depth : Nat) (s inner after : Text) :
    splitPartner? opening closing depth s = some (inner, after) ↔
      s = inner ++ closing :: after ∧ Closes opening closing depth inner := by
  have hOpening := balance_opening opening closing
  have hClosing := balance_closing hNe
  induction s generalizing depth inner with
  | nil => simp [splitPartner?]
  | cons c s ih =>
    have hStep {depth depth' : Nat} {c : Char} (hDepth : (depth' : Int) = depth + balance opening closing [c])
        (hc : c ≠ closing ∨ depth ≠ 0) :
        (splitPartner? opening closing depth' s).map (fun (i, a) => (c :: i, a)) = some (inner, after) ↔
          c :: s = inner ++ closing :: after ∧ Closes opening closing depth inner := by
      rw [Option.map_eq_some_iff]
      constructor
      · rintro ⟨⟨i, a⟩, hSplit, hParts⟩
        obtain ⟨rfl, rfl⟩ := Prod.mk.inj hParts
        obtain ⟨hText, hCloses⟩ := (ih depth' i).mp hSplit
        exact ⟨by rw [hText, List.cons_append], (closes_cons_iff hDepth).mpr hCloses⟩
      · rintro ⟨hText, hCloses⟩
        cases inner with
        | nil =>
          obtain ⟨rfl, rfl⟩ := List.cons.inj hText
          have hTotal := hCloses.total
          rw [balance_nil] at hTotal
          omega
        | cons d inner =>
          obtain ⟨rfl, hRest⟩ := List.cons.inj hText
          exact ⟨(inner, after), (ih depth' inner).mpr ⟨hRest, (closes_cons_iff hDepth).mp hCloses⟩, rfl⟩
    rw [splitPartner?]
    split
    · rename_i hc
      exact hStep (by rw [hc, hOpening]; rfl) (Or.inl (hc ▸ hNe))
    · rename_i hcOpening
      split
      · rename_i hc
        subst hc
        split
        · rename_i hDepth
          subst hDepth
          constructor
          · rintro ⟨⟩
            exact ⟨rfl, closes_nil opening c⟩
          · rintro ⟨hText, hCloses⟩
            cases inner with
            | nil => rw [(List.cons.inj hText).2]
            | cons d inner =>
              obtain ⟨rfl, -⟩ := List.cons.inj hText
              have hBelow := hCloses.never_below [c] (List.cons_prefix_cons.mpr ⟨rfl, List.nil_prefix⟩)
              rw [hClosing] at hBelow
              omega
        · rename_i hDepth
          exact hStep (by rw [hClosing]; omega) (Or.inr hDepth)
      · rename_i hcClosing
        exact hStep (by rw [balance_other hcOpening hcClosing, Int.add_zero]) (Or.inl hcClosing)

/-- Where no partner is found, no beginning closes more brackets than stand open. -/
theorem balance_of_splitPartner?_eq_none (hNe : opening ≠ closing) {depth : Nat}
    (h : splitPartner? opening closing depth s = none) {beginning : Text} (hBeginning : beginning <+: s) :
    -(depth : Int) ≤ balance opening closing beginning := by
  induction s generalizing depth beginning with
  | nil =>
    rw [List.prefix_nil.mp hBeginning, balance_nil]
    omega
  | cons c s ih =>
    obtain rfl | ⟨rest, rfl, hRest⟩ := List.prefix_cons_iff.mp hBeginning
    · rw [balance_nil]
      omega
    rw [splitPartner?] at h
    rw [balance_cons]
    split at h
    · rename_i hOpening
      have hBelow := ih (Option.map_eq_none_iff.mp h) hRest
      rw [hOpening, balance_opening]
      omega
    · rename_i hOpening
      split at h
      · rename_i hClosing
        split at h
        · cases h
        · rename_i hDepth
          have hBelow := ih (Option.map_eq_none_iff.mp h) hRest
          rw [hClosing, balance_closing hNe]
          omega
      · rename_i hClosing
        have hBelow := ih (Option.map_eq_none_iff.mp h) hRest
        rw [balance_other hOpening hClosing]
        omega

/-- A text that closes an open bracket does so for the first time behind one that closes none. -/
theorem Closes.exists_partner (hNe : opening ≠ closing) {depth : Nat} (h : Closes opening closing (depth + 1) s) :
    ∃ inner after, s = inner ++ closing :: after ∧ Closes opening closing 0 inner ∧
      Closes opening closing depth after := by
  obtain ⟨hTotal, hBelow⟩ := h
  cases hSplit : splitPartner? opening closing 0 s with
  | none =>
    have hNever := balance_of_splitPartner?_eq_none hNe hSplit (List.prefix_refl s)
    omega
  | some parts =>
    obtain ⟨inner, after⟩ := parts
    obtain ⟨rfl, hInner⟩ := (splitPartner?_eq_some_iff hNe 0 s inner after).mp hSplit
    have hFront (behind : Text) :
        balance opening closing (inner ++ closing :: behind) = balance opening closing behind - 1 := by
      rw [balance_append, balance_cons, balance_closing hNe, hInner.total]
      omega
    refine ⟨inner, after, rfl, hInner, ?_, ?_⟩
    · rw [hFront] at hTotal
      omega
    · intro beginning hBeginning
      have hLonger := hBelow (inner ++ closing :: beginning)
        ((List.prefix_append_right_inj inner).mpr (List.cons_prefix_cons.mpr ⟨rfl, hBeginning⟩))
      rw [hFront] at hLonger
      omega

theorem Closes.balanced (hNe : opening ≠ closing) (h : Closes opening closing 0 s) : Balanced opening closing s := by
  induction hLength : s.length using Nat.strongRecOn generalizing s with
  | ind n ih =>
    subst hLength
    cases s with
    | nil => exact .nil
    | cons c s =>
      by_cases hOpening : c = opening
      · subst hOpening
        have hOpen : Closes c closing 1 s :=
          (closes_cons_iff (by rw [balance_opening]; rfl)).mp h
        obtain ⟨inner, after, rfl, hInner, hAfter⟩ := hOpen.exists_partner hNe
        have hText : (c :: (inner ++ closing :: after)).length = inner.length + after.length + 2 := by
          simp only [List.length_cons, List.length_append]
          omega
        exact .group (ih inner.length (by omega) hInner rfl) (ih after.length (by omega) hAfter rfl)
      · by_cases hClosing : c = closing
        · subst hClosing
          have hBelow := h.never_below [c] (List.cons_prefix_cons.mpr ⟨rfl, List.nil_prefix⟩)
          rw [balance_closing hNe] at hBelow
          omega
        · have hRest : Closes opening closing 0 s :=
            (closes_cons_iff (by rw [balance_other hOpening hClosing]; rfl)).mp h
          exact .char hOpening hClosing (ih s.length (by simp) hRest rfl)

/-- A bracket has no partner in a text exactly if none stands behind a balanced one. -/
theorem splitPartner?_eq_none_iff (hNe : opening ≠ closing) :
    splitPartner? opening closing 0 s = none ↔
      ∀ inner after, Balanced opening closing inner → s ≠ inner ++ closing :: after := by
  constructor
  · rintro h inner after hInner rfl
    rw [splitPartner?_partner hNe hInner] at h
    cases h
  · intro h
    rw [Option.eq_none_iff_forall_ne_some]
    rintro ⟨inner, after⟩ hSplit
    obtain ⟨hText, hInner⟩ := (splitPartner?_eq_some_iff hNe 0 s inner after).mp hSplit
    exact h inner after (hInner.balanced hNe) hText

theorem balance_reverse (hNe : opening ≠ closing) (s : Text) :
    balance closing opening s.reverse = -balance opening closing s := by
  induction s with
  | nil => rfl
  | cons c s ih =>
    have hChar : balance closing opening [c] = -balance opening closing [c] := by
      by_cases hOpening : c = opening
      · rw [hOpening, balance_opening, balance_closing hNe.symm]
      · by_cases hClosing : c = closing
        · rw [hClosing, balance_opening, balance_closing hNe]
          rfl
        · rw [balance_other hOpening hClosing, balance_other hClosing hOpening]
          rfl
    rw [List.reverse_cons, balance_append, ih, hChar, balance_cons opening closing c s]
    omega

/-- Whether what stands between two brackets leaves them partners: no ending of it opens more
brackets than it closes, and the whole as many. -/
structure Enclosed (opening closing : Char) (s : Text) : Prop where
  total : balance opening closing s = 0
  endings : ∀ ending, ending <:+ s → balance opening closing ending ≤ 0

theorem closes_reverse_iff (hNe : opening ≠ closing) (s : Text) :
    Closes closing opening 0 s.reverse ↔ Enclosed opening closing s := by
  constructor
  · rintro ⟨hTotal, hBelow⟩
    rw [balance_reverse hNe] at hTotal
    refine ⟨by omega, ?_⟩
    intro ending hEnding
    have h := hBelow ending.reverse (List.reverse_prefix.mpr hEnding)
    rw [balance_reverse hNe] at h
    omega
  · rintro ⟨hTotal, hEndings⟩
    refine ⟨by rw [balance_reverse hNe]; omega, ?_⟩
    intro beginning hBeginning
    have hReverse : beginning.reverse <:+ s := by
      rw [← List.reverse_reverse s]
      exact List.reverse_suffix.mpr hBeginning
    have h := hEndings beginning.reverse hReverse
    have hSwap := balance_reverse hNe beginning.reverse
    rw [List.reverse_reverse] at hSwap
    omega

theorem Balanced.enclosed (hs : Balanced opening closing s) (hNe : opening ≠ closing) :
    Enclosed opening closing s := by
  have hPartner := splitPartner?_partner (Ne.symm hNe) hs.reverse []
  rw [splitPartner?_eq_some_iff (Ne.symm hNe)] at hPartner
  exact (closes_reverse_iff hNe s).mp hPartner.2

theorem Enclosed.balanced (hs : Enclosed opening closing s) (hNe : opening ≠ closing) :
    Balanced opening closing s := by
  have hReverse := (((closes_reverse_iff hNe s).mpr hs).balanced hNe.symm).reverse
  rwa [List.reverse_reverse] at hReverse

theorem enclosed_iff_count (hNe : opening ≠ closing) :
    Enclosed opening closing s ↔ s.count opening = s.count closing ∧
      ∀ ending, ending <:+ s → ending.count opening ≤ ending.count closing := by
  constructor
  · rintro ⟨hTotal, hEndings⟩
    rw [balance_eq_count hNe] at hTotal
    refine ⟨by omega, fun ending hEnding => ?_⟩
    have h := hEndings ending hEnding
    rw [balance_eq_count hNe] at h
    omega
  · rintro ⟨hTotal, hEndings⟩
    refine ⟨by rw [balance_eq_count hNe]; omega, fun ending hEnding => ?_⟩
    have h := hEndings ending hEnding
    rw [balance_eq_count hNe]
    omega

end HeaderDigest.Text
