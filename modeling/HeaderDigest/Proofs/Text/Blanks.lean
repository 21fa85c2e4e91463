import HeaderDigest.Proofs.Text.Brackets
import HeaderDigest.Proofs.Text.Parts
import HeaderDigest.Proofs.Text.Words

/-!
# What blanks at the ends of a text leave alone

Blanks before a text and behind it change neither the characters that are no blanks nor the words
and the parts that are made of these.
-/

namespace HeaderDigest.Text

theorem ne_of_isBlank {b c : Char} (hb : isBlank b = true) (hc : isBlank c = false) : b ≠ c := by
  rintro rfl
  rw [hb] at hc
  cases hc

theorem not_mem_of_blank {u : Text} (hu : ∀ c ∈ u, isBlank c = true) {c : Char}
    (hc : isBlank c = false) : c ∉ u :=
  fun h => ne_of_isBlank (hu c h) hc rfl

theorem words_trim (s : Text) : words (trim s) = words s := runs_trim (fun c hc => by simp [hc]) s

theorem filter_trim (s : Text) : (trim s).filter (!isBlank ·) = s.filter (!isBlank ·) := by
  obtain ⟨u, v, hu, hv, -, hs⟩ := exists_eq_append_trim s
  have hNil {w : Text} (hw : ∀ c ∈ w, isBlank c = true) : w.filter (!isBlank ·) = [] := by
    rw [List.filter_eq_nil_iff]
    intro c hc
    simp [hw c hc]
  calc (trim s).filter (!isBlank ·)
    _ = (u ++ trim s ++ v).filter (!isBlank ·) := by
      rw [List.filter_append, List.filter_append, hNil hu, hNil hv, List.nil_append, List.append_nil]
    _ = s.filter (!isBlank ·) := by rw [← hs]

theorem contains_trim {c : Char} (hc : isBlank c = false) (s : Text) :
    (trim s).contains c = s.contains c := by
  rw [Bool.eq_iff_iff, List.contains_iff_mem, List.contains_iff_mem]
  exact mem_trim hc

theorem balance_trim {opening closing : Char} (hOpening : isBlank opening = false)
    (hClosing : isBlank closing = false) (hNe : opening ≠ closing) (s : Text) :
    balance opening closing (trim s) = balance opening closing s := by
  obtain ⟨u, v, hu, hv, -, hs⟩ := exists_eq_append_trim s
  have hZero {w : Text} (hw : ∀ c ∈ w, isBlank c = true) : balance opening closing w = 0 := by
    apply balance_eq_zero hNe
    exact Balanced.of_not_mem (not_mem_of_blank hw hOpening) (not_mem_of_blank hw hClosing)
  calc balance opening closing (trim s)
    _ = balance opening closing (u ++ trim s ++ v) := by
      rw [balance_append, balance_append, hZero hu, hZero hv]
      omega
    _ = balance opening closing s := by rw [← hs]

variable {part u v : Text}

theorem startsWith_append_of_blank (hPart : ∀ c ∈ part, isBlank c = false)
    (hv : ∀ c ∈ v, isBlank c = true) (s : Text) : startsWith part (s ++ v) = startsWith part s := by
  induction part generalizing s with
  | nil => rfl
  | cons a part ih =>
    obtain ⟨ha, hRest⟩ := List.forall_mem_cons.mp hPart
    cases s with
    | cons d s =>
      have hs := ih hRest s
      simp only [startsWith, List.cons_append, List.isPrefixOf_cons_cons] at hs ⊢
      rw [hs]
    | nil =>
      cases v with
      | nil => rfl
      | cons b v =>
        have hNe : b ≠ a := ne_of_isBlank (hv b List.mem_cons_self) ha
        rw [List.nil_append, startsWith, startsWith, List.isPrefixOf_cons_cons, beq_false_of_ne hNe.symm]
        rfl

theorem hasPart_append_of_blank (hPart : ∀ c ∈ part, isBlank c = false)
    (hv : ∀ c ∈ v, isBlank c = true) (s : Text) : hasPart part (s ++ v) = hasPart part s := by
  induction s with
  | cons c s ih =>
    have hStarts := startsWith_append_of_blank hPart hv (c :: s)
    rw [List.cons_append] at hStarts
    rw [List.cons_append, hasPart, hasPart, hStarts, ih]
  | nil =>
    cases part with
    | nil => rw [Bool.eq_iff_iff, hasPart_iff, hasPart_iff]; simp
    | cons a part =>
      apply hasPart_eq_false_of_not_mem List.mem_cons_self
      intro hMem
      exact ne_of_isBlank (hv a hMem) (hPart a List.mem_cons_self) rfl

theorem hasPart_append_left_of_blank (hNe : part ≠ []) (hPart : ∀ c ∈ part, isBlank c = false)
    (hu : ∀ c ∈ u, isBlank c = true) (s : Text) : hasPart part (u ++ s) = hasPart part s := by
  induction u with
  | nil => rfl
  | cons b u ih =>
    obtain ⟨hb, hRest⟩ := List.forall_mem_cons.mp hu
    obtain ⟨a, part', rfl⟩ := List.exists_cons_of_ne_nil hNe
    have ha : a ≠ b := (ne_of_isBlank hb (hPart a List.mem_cons_self)).symm
    rw [List.cons_append, hasPart, ih hRest, startsWith, List.isPrefixOf_cons_cons, beq_false_of_ne ha,
      Bool.false_and, Bool.false_or]

theorem hasPart_trim (hNe : part ≠ []) (hPart : ∀ c ∈ part, isBlank c = false) (s : Text) :
    hasPart part (trim s) = hasPart part s := by
  obtain ⟨u, v, hu, hv, -, hs⟩ := exists_eq_append_trim s
  calc hasPart part (trim s)
    _ = hasPart part (u ++ trim s ++ v) := by
      rw [hasPart_append_of_blank hPart hv, hasPart_append_left_of_blank hNe hPart hu]
    _ = hasPart part s := by rw [← hs]

end HeaderDigest.Text
