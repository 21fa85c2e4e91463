import HeaderDigest.Text.Basic

/-!
# Trimming

Trimming takes blanks off the ends of a text and nothing else, and leaves a text whose ends are
not blank.
-/

namespace HeaderDigest.Text

def startsBlank (s : Text) : Bool := s.head?.any isBlank

def endsBlank (s : Text) : Bool := s.getLast?.any isBlank

/-- Neither end is blank. The empty text has no ends. -/
def Trimmed (s : Text) : Prop := startsBlank s = false ∧ endsBlank s = false

theorem endsBlank_reverse (s : Text) : endsBlank s.reverse = startsBlank s := by
  rw [endsBlank, startsBlank, List.getLast?_reverse]

theorem startsBlank_reverse (s : Text) : startsBlank s.reverse = endsBlank s := by
  rw [startsBlank, endsBlank, List.head?_reverse]

theorem trimStart_append_of_blank {u : Text} (s : Text) (h : ∀ c ∈ u, isBlank c = true) :
    trimStart (u ++ s) = trimStart s := List.dropWhile_append_of_pos h

theorem trimStart_append_of_ne_nil {s : Text} (h : trimStart s ≠ []) (t : Text) :
    trimStart (s ++ t) = trimStart s ++ t := by
  have hEmpty : ¬(s.dropWhile isBlank).isEmpty = true := fun hEmpty => h (List.isEmpty_iff.mp hEmpty)
  rw [trimStart, List.dropWhile_append, if_neg hEmpty, trimStart]

theorem trimStart_eq_self {s : Text} (h : startsBlank s = false) : trimStart s = s := by
  cases s with
  | nil => rfl
  | cons c s => exact List.dropWhile_cons_of_neg (by simpa [startsBlank] using h)

theorem trimStart_blank_append {u s : Text} (hu : ∀ c ∈ u, isBlank c = true) (hs : startsBlank s = false) :
    trimStart (u ++ s) = s :=
  (trimStart_append_of_blank s hu).trans (trimStart_eq_self hs)

theorem startsBlank_trimStart (s : Text) : startsBlank (trimStart s) = false := by
  have h := List.head?_dropWhile_not isBlank s
  unfold startsBlank trimStart
  cases hHead : (s.dropWhile isBlank).head? with
  | none => rfl
  | some c =>
    rw [hHead] at h
    simpa using h

theorem exists_eq_append_trimStart (s : Text) :
    ∃ u, (∀ c ∈ u, isBlank c = true) ∧ s = u ++ trimStart s := by
  refine ⟨s.takeWhile isBlank, ?_, List.takeWhile_append_dropWhile.symm⟩
  intro c hc
  exact List.all_eq_true.mp List.all_takeWhile c hc

/-- Blanks at the beginning end at one place. -/
theorem eq_of_blank_append_eq {u v s t : Text} (hu : ∀ c ∈ u, isBlank c = true)
    (hv : ∀ c ∈ v, isBlank c = true) (hs : startsBlank s = false) (ht : startsBlank t = false)
    (h : u ++ s = v ++ t) : u = v ∧ s = t := by
  have hRest : s = t := by
    have hTrim := congrArg trimStart h
    rwa [trimStart_append_of_blank s hu, trimStart_append_of_blank t hv, trimStart_eq_self hs,
      trimStart_eq_self ht] at hTrim
  rw [hRest] at h
  exact ⟨List.append_cancel_right h, hRest⟩

theorem trimEnd_eq_reverse (s : Text) : trimEnd s = (trimStart s.reverse).reverse := rfl

theorem trimEnd_append_of_blank {v : Text} (s : Text) (h : ∀ c ∈ v, isBlank c = true) :
    trimEnd (s ++ v) = trimEnd s := by
  rw [trimEnd_eq_reverse, List.reverse_append,
    trimStart_append_of_blank s.reverse fun c hc => h c (List.mem_reverse.mp hc), trimEnd_eq_reverse]

theorem trimEnd_eq_self {s : Text} (h : endsBlank s = false) : trimEnd s = s := by
  rw [trimEnd_eq_reverse, trimStart_eq_self ((startsBlank_reverse s).trans h), List.reverse_reverse]

theorem endsBlank_trimEnd (s : Text) : endsBlank (trimEnd s) = false := by
  rw [trimEnd_eq_reverse, endsBlank_reverse, startsBlank_trimStart]

theorem trimEnd_append_cons {c : Char} (hc : isBlank c = false) (u v : Text) :
    trimEnd (u ++ c :: v) = u ++ c :: trimEnd v := by
  have hDrop : trimStart (v.reverse ++ c :: u.reverse) = trimStart v.reverse ++ c :: u.reverse := by
    induction v.reverse with
    | nil => exact List.dropWhile_cons_of_neg (by simp [hc])
    | cons d s ih =>
      cases hd : isBlank d with
      | true =>
        rw [List.cons_append, trimStart, trimStart, List.dropWhile_cons_of_pos hd,
          List.dropWhile_cons_of_pos hd]
        exact ih
      | false => rw [trimStart, trimStart, List.cons_append, List.dropWhile_cons_of_neg (by simp [hd]),
          List.dropWhile_cons_of_neg (by simp [hd]), List.cons_append]
  rw [trimEnd_eq_reverse, trimEnd_eq_reverse, List.reverse_append, List.reverse_cons,
    List.append_assoc, List.singleton_append, hDrop]
  simp

theorem exists_eq_trimEnd_append (s : Text) :
    ∃ v, (∀ c ∈ v, isBlank c = true) ∧ s = trimEnd s ++ v := by
  obtain ⟨u, hu, hs⟩ := exists_eq_append_trimStart s.reverse
  refine ⟨u.reverse, fun c hc => hu c (List.mem_reverse.mp hc), ?_⟩
  rw [trimEnd_eq_reverse, ← List.reverse_append, ← hs, List.reverse_reverse]

theorem trimEnd_isPrefix (s : Text) : trimEnd s <+: s := by
  obtain ⟨v, -, hs⟩ := exists_eq_trimEnd_append s
  exact ⟨v, hs.symm⟩

theorem trimEnd_eq_nil_iff {s : Text} : trimEnd s = [] ↔ ∀ c ∈ s, isBlank c = true := by
  obtain ⟨v, hv, hs⟩ := exists_eq_trimEnd_append s
  constructor
  · intro hTrim
    rwa [hs, hTrim]
  · exact trimEnd_append_of_blank (v := s) []

theorem startsBlank_trimEnd {s : Text} (h : startsBlank s = false) :
    startsBlank (trimEnd s) = false := by
  obtain ⟨v, -, hs⟩ := exists_eq_trimEnd_append s
  cases hTrim : trimEnd s with
  | nil => rfl
  | cons c t =>
    rw [hTrim] at hs
    rwa [hs] at h

theorem trimEnd_append (u v : Text) :
    trimEnd (u ++ v) = if trimEnd v = [] then trimEnd u else u ++ trimEnd v := by
  obtain ⟨w, hw, hv⟩ := exists_eq_trimEnd_append v
  have hEnd : trimEnd (u ++ v) = trimEnd (u ++ trimEnd v) := by
    rw [← trimEnd_append_of_blank (u ++ trimEnd v) hw, List.append_assoc, ← hv]
  split
  · rename_i hNil
    rw [hEnd, hNil, List.append_nil]
  · rename_i hNe
    rw [hEnd]
    apply trimEnd_eq_self
    have hLast := endsBlank_trimEnd v
    rw [endsBlank, List.getLast?_eq_some_getLast hNe] at hLast
    rw [endsBlank, List.getLast?_append, List.getLast?_eq_some_getLast hNe, Option.some_or]
    exact hLast

theorem trim_eq_self {s : Text} (h : Trimmed s) : trim s = s := by
  rw [trim, trimStart_eq_self h.1, trimEnd_eq_self h.2]

theorem trim_space_cons {s : Text} (h : Trimmed s) : trim (' ' :: s) = s := by
  have hStart : trimStart (' ' :: s) = trimStart s := List.dropWhile_cons_of_pos rfl
  rw [trim, hStart]
  exact trim_eq_self h

theorem trimmed_trim (s : Text) : Trimmed (trim s) :=
  ⟨startsBlank_trimEnd (startsBlank_trimStart s), endsBlank_trimEnd _⟩

@[simp] theorem trim_trim (s : Text) : trim (trim s) = trim s := trim_eq_self (trimmed_trim s)

theorem trimStart_trim (s : Text) : trimStart (trim s) = trim s := trimStart_eq_self (trimmed_trim s).1

theorem trim_append_of_blank {u v : Text} (s : Text) (hu : ∀ c ∈ u, isBlank c = true)
    (hv : ∀ c ∈ v, isBlank c = true) : trim (u ++ s ++ v) = trim s := by
  obtain ⟨w, hw, hs⟩ := exists_eq_append_trimStart s
  by_cases hEmpty : trimStart s = []
  · have hBlank : ∀ c ∈ u ++ s ++ v, isBlank c = true := by
      rw [hs, hEmpty, List.append_nil, List.forall_mem_append, List.forall_mem_append]
      exact ⟨⟨hu, hw⟩, hv⟩
    have hNil : trimStart (u ++ s ++ v) = [] := by
      have h := trimStart_append_of_blank [] hBlank
      rwa [List.append_nil] at h
    rw [trim, trim, hNil, hEmpty]
  · rw [trim, List.append_assoc, trimStart_append_of_blank _ hu, trimStart_append_of_ne_nil hEmpty,
      trimEnd_append_of_blank _ hv, trim]

theorem trim_append_blank {v : Text} (s : Text) (hv : ∀ c ∈ v, isBlank c = true) : trim (s ++ v) = trim s :=
  trim_append_of_blank (u := []) s (by simp) hv

theorem trim_cons {c : Char} (hc : isBlank c = false) (s : Text) : trim (c :: s) = c :: trimEnd s := by
  rw [trim, trimStart_eq_self (s := c :: s) (by simp [startsBlank, hc])]
  exact trimEnd_append_cons hc [] s

theorem trim_append_cons {c : Char} (hc : isBlank c = false) (u v : Text) :
    trim (u ++ c :: v) = trimStart u ++ c :: trimEnd v := by
  have hStart : trimStart (u ++ c :: v) = trimStart u ++ c :: v := by
    obtain ⟨w, hw, hu⟩ := exists_eq_append_trimStart u
    by_cases hNil : trimStart u = []
    · rw [hNil, List.append_nil] at hu
      rw [hNil, hu, trimStart_append_of_blank _ hw, List.nil_append]
      exact trimStart_eq_self hc
    · exact trimStart_append_of_ne_nil hNil (c :: v)
  rw [trim, hStart, trimEnd_append_cons hc]

/-- What stands in front of a text that is not blank stays in front of it. -/
theorem trim_append_of_startsBlank {u s : Text} (hStart : startsBlank (u ++ s) = false)
    (hs : startsBlank s = false) (hNe : trim s ≠ []) :
    trim (u ++ s) = u ++ trim s := by
  have hEnd : trim s = trimEnd s := by
    rw [trim, trimStart_eq_self hs]
  rw [trim, trimStart_eq_self hStart, trimEnd_append, ← hEnd, if_neg hNe]

theorem trim_append_space {s : Text} (h : Trimmed s) : trim (s ++ [' ']) = s :=
  (trim_append_blank s (by decide)).trans (trim_eq_self h)

theorem exists_eq_append_trim (s : Text) :
    ∃ u v, (∀ c ∈ u, isBlank c = true) ∧ (∀ c ∈ v, isBlank c = true) ∧
      trimStart s = trim s ++ v ∧ s = u ++ trim s ++ v := by
  obtain ⟨u, hu, hs⟩ := exists_eq_append_trimStart s
  obtain ⟨v, hv, ht⟩ := exists_eq_trimEnd_append (trimStart s)
  refine ⟨u, v, hu, hv, ht, ?_⟩
  rw [List.append_assoc, trim, ← ht, ← hs]

theorem trim_trimStart (s : Text) : trim (trimStart s) = trim s := by
  rw [trim, trimStart_eq_self (startsBlank_trimStart s), trim]

theorem trim_trimEnd (s : Text) : trim (trimEnd s) = trim s := by
  obtain ⟨v, hv, hs⟩ := exists_eq_trimEnd_append s
  calc trim (trimEnd s)
    _ = trim (trimEnd s ++ v) := (trim_append_blank (trimEnd s) hv).symm
    _ = trim s := by rw [← hs]

theorem trim_eq_nil_iff {s : Text} : trim s = [] ↔ ∀ c ∈ s, isBlank c = true := by
  obtain ⟨u, v, hu, hv, -, hs⟩ := exists_eq_append_trim s
  constructor
  · intro hTrim
    rw [hs, hTrim, List.append_nil]
    exact List.forall_mem_append.mpr ⟨hu, hv⟩
  · intro hBlank
    have hNil := trim_append_of_blank (u := s) (v := []) [] hBlank (by simp)
    rwa [List.append_nil, List.append_nil] at hNil

theorem head?_trim (s : Text) : (trim s).head? = (trimStart s).head? := by
  obtain ⟨u, v, -, hv, hStart, -⟩ := exists_eq_append_trim s
  have hFirst := startsBlank_trimStart s
  cases hTrim : trim s with
  | cons c t => rw [hStart, hTrim, List.cons_append, List.head?_cons, List.head?_cons]
  | nil =>
    rw [hTrim, List.nil_append] at hStart
    rw [hStart] at hFirst ⊢
    cases v with
    | nil => rfl
    | cons c v => exact absurd (hFirst.symm.trans (hv c List.mem_cons_self)) Bool.false_ne_true

theorem mem_of_mem_trim {s : Text} {c : Char} (h : c ∈ trim s) : c ∈ s := by
  obtain ⟨u, v, -, -, -, hs⟩ := exists_eq_append_trim s
  rw [hs]
  exact List.mem_append_left v (List.mem_append_right u h)

theorem mem_trim {s : Text} {c : Char} (h : isBlank c = false) : c ∈ trim s ↔ c ∈ s := by
  obtain ⟨u, v, hu, hv, -, hs⟩ := exists_eq_append_trim s
  constructor
  · intro hc
    rw [hs]
    simp [hc]
  · intro hc
    rw [hs] at hc
    simp only [List.mem_append] at hc
    rcases hc with (hc | hc) | hc
    · exact absurd (hu c hc) (by simp [h])
    · exact hc
    · exact absurd (hv c hc) (by simp [h])

end HeaderDigest.Text
