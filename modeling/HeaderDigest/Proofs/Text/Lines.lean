import HeaderDigest.Text.Basic

/-!
# Lines of a composed text

Cutting into lines goes through a text one line feed after the other. So a text that is empty or
ends with a line feed is cut independently of what follows it, and joining lines is undone by
cutting where no line holds a line feed or ends in a carriage return.
-/

namespace HeaderDigest.Text

/-- Whether a text is empty or ends with a line feed. -/
def EndsLine (s : Text) : Prop := s = [] ∨ s.getLast? = some '\n'

/-- Whether a text followed by a line feed is one line. -/
def IsLine (s : Text) : Prop := '\n' ∉ s ∧ s.getLast? ≠ some '\r'

theorem EndsLine.of_cons {c : Char} {s : Text} (hs : s ≠ []) (h : EndsLine (c :: s)) : EndsLine s := by
  rcases h with h | h
  · cases h
  · exact Or.inr (by rwa [List.getLast?_cons_of_ne_nil hs] at h)

theorem lines_cons_ne_nil (c : Char) (s : Text) : lines (c :: s) ≠ [] := by
  intro h
  rw [lines.eq_def] at h
  split at h
  · contradiction
  · cases h
  · cases h
  · split at h <;> cases h

/-- A character that ends no line continues the first line of what follows it. -/
theorem lines_cons {c : Char} {s line : Text} {more : List Text} (hc : c ≠ '\n')
    (hr : ∀ t, c = '\r' → s ≠ '\n' :: t) (hs : lines s = line :: more) :
    lines (c :: s) = (c :: line) :: more := by
  rw [lines.eq_4 c s hc (fun t h => hr t h), hs]

theorem lines_append {s : Text} (t : Text) (h : EndsLine s) :
    lines (s ++ t) = lines s ++ lines t := by
  induction s using lines.induct with
  | case1 => rfl
  | case2 rest ih =>
    have hRest : EndsLine rest := by
      cases rest with
      | nil => exact Or.inl rfl
      | cons c rest => exact h.of_cons (by simp)
    rw [List.cons_append, lines_line_feed, lines_line_feed, ih hRest, List.cons_append]
  | case3 rest ih =>
    have hRest : EndsLine rest := by
      cases rest with
      | nil => exact Or.inl rfl
      | cons c rest => exact (h.of_cons (by simp)).of_cons (by simp)
    simp only [List.cons_append, lines, ih hRest]
  | case4 c rest hc hr line more hl ih =>
    have hNe : rest ≠ [] := by
      rintro rfl
      cases hl
    have hLines := ih (h.of_cons hNe)
    rw [hl, List.cons_append] at hLines
    rw [List.cons_append, lines_cons hc ?_ hLines, lines_cons hc (fun t h => hr t h) hl,
      List.cons_append]
    intro u hu happ
    cases rest with
    | nil => exact hNe rfl
    | cons d rest =>
      cases happ
      exact hr rest hu rfl
  | case5 c rest hc hr hl ih =>
    cases rest with
    | cons d rest => exact absurd hl (lines_cons_ne_nil d rest)
    | nil =>
      rcases h with h | h
      · cases h
      · exact absurd (Option.some.inj h) hc

theorem lines_line {l : Text} (hl : IsLine l) (rest : Text) :
    lines (l ++ '\n' :: rest) = l :: lines rest := by
  induction l with
  | nil => exact lines_line_feed rest
  | cons c l ih =>
    obtain ⟨hFeed, hReturn⟩ := hl
    obtain ⟨hc, hFeed⟩ := List.ne_and_not_mem_of_not_mem_cons hFeed
    have hTail : IsLine l := by
      refine ⟨hFeed, ?_⟩
      cases l with
      | nil => simp
      | cons d l => rwa [List.getLast?_cons_of_ne_nil (by simp)] at hReturn
    rw [List.cons_append]
    refine lines_cons (Ne.symm hc) ?_ (ih hTail)
    intro t hcr ht
    subst hcr
    cases l with
    | nil => exact hReturn rfl
    | cons d l =>
      cases ht
      exact hFeed (by simp)

theorem lines_joinLines_append {ls : List Text} (h : ∀ l ∈ ls, IsLine l) (last : Text) :
    lines (joinLines (ls ++ [last])) = ls ++ lines last := by
  induction ls with
  | nil => simp [joinLines]
  | cons l ls ih =>
    have hJoin : joinLines (l :: ls ++ [last]) = l ++ '\n' :: joinLines (ls ++ [last]) := by
      cases ls <;> simp [joinLines, List.intercalate]
    rw [hJoin, lines_line (h l List.mem_cons_self), ih fun m hm => h m (List.mem_cons_of_mem l hm),
      List.cons_append]

end HeaderDigest.Text
