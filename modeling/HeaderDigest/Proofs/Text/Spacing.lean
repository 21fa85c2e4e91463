import HeaderDigest.Proofs.Text.Words

/-!
# Texts with single spaces

In a text with single spaces no blank is another character than the space and no two of them are
neighbours. Normalizing leaves such a text as it is, once its ends are not blank.
-/

namespace HeaderDigest.Text

/-- Whether all blanks are spaces and none has a blank beside it. -/
def SingleSpaced : Text → Prop
  | [] => True
  | c :: s => (isBlank c = true → c = ' ' ∧ startsBlank s = false) ∧ SingleSpaced s

instance decidableSingleSpaced : (s : Text) → Decidable (SingleSpaced s)
  | [] => isTrue trivial
  | _ :: s =>
    have := decidableSingleSpaced s
    inferInstanceAs (Decidable (_ ∧ _))

theorem SingleSpaced.of_forall {s : Text} (h : ∀ c ∈ s, isBlank c = false) : SingleSpaced s := by
  induction s with
  | nil => trivial
  | cons c s ih =>
    refine ⟨?_, ih fun d hd => h d (List.mem_cons_of_mem c hd)⟩
    intro hc
    rw [h c List.mem_cons_self] at hc
    cases hc

theorem startsBlank_append {u : Text} (v : Text) (hu : u ≠ []) :
    startsBlank (u ++ v) = startsBlank u := by
  cases u with
  | nil => exact absurd rfl hu
  | cons c u => rfl

theorem startsBlank_left {u v : Text} (h : startsBlank (u ++ v) = false) : startsBlank u = false := by
  cases u with
  | nil => rfl
  | cons c u => exact h

theorem endsBlank_append (u : Text) {v : Text} (hv : v ≠ []) :
    endsBlank (u ++ v) = endsBlank v := by
  rw [endsBlank, endsBlank, List.getLast?_append, List.getLast?_eq_some_getLast hv, Option.some_or]

theorem endsBlank_concat (s : Text) (c : Char) : endsBlank (s ++ [c]) = isBlank c := by
  rw [endsBlank, List.getLast?_concat, Option.any_some]

theorem Trimmed.append {u v : Text} (hu : Trimmed u) (hv : Trimmed v) : Trimmed (u ++ v) := by
  constructor
  · cases u with
    | nil => exact hv.1
    | cons c u => exact hu.1
  · by_cases hNil : v = []
    · rw [hNil, List.append_nil]
      exact hu.2
    · rw [endsBlank_append u hNil]
      exact hv.2

theorem SingleSpaced.append {u v : Text} (hu : SingleSpaced u) (hv : SingleSpaced v)
    (h : endsBlank u = false ∨ startsBlank v = false) : SingleSpaced (u ++ v) := by
  induction u with
  | nil => exact hv
  | cons c u ih =>
    obtain ⟨hc, hRest⟩ := hu
    cases u with
    | nil =>
      refine ⟨fun hBlank => ⟨(hc hBlank).1, ?_⟩, hv⟩
      rcases h with h | h
      · simp [endsBlank, hBlank] at h
      · exact h
    | cons d u =>
      refine ⟨hc, ih hRest ?_⟩
      rwa [endsBlank, List.getLast?_cons_cons] at h

theorem SingleSpaced.append_space {u v : Text} (hu : SingleSpaced u) (hv : SingleSpaced v)
    (hEnd : endsBlank u = false) (hStart : startsBlank v = false) :
    SingleSpaced (u ++ ' ' :: v) :=
  hu.append ⟨fun _ => ⟨rfl, hStart⟩, hv⟩ (Or.inl hEnd)

theorem SingleSpaced.eq_space {s : Text} (h : SingleSpaced s) {c : Char} (hc : c ∈ s)
    (hBlank : isBlank c = true) : c = ' ' := by
  induction s with
  | nil => cases hc
  | cons d s ih =>
    obtain rfl | hc := List.mem_cons.mp hc
    · exact (h.1 hBlank).1
    · exact ih h.2 hc

theorem SingleSpaced.of_append_right {u v : Text} (h : SingleSpaced (u ++ v)) : SingleSpaced v := by
  induction u with
  | nil => exact h
  | cons c u ih => exact ih h.2

theorem SingleSpaced.of_append_left {u v : Text} (h : SingleSpaced (u ++ v)) : SingleSpaced u := by
  induction u with
  | nil => trivial
  | cons c u ih =>
    refine ⟨fun hBlank => ⟨(h.1 hBlank).1, ?_⟩, ih h.2⟩
    cases u with
    | nil => rfl
    | cons d u => exact (h.1 hBlank).2

/-- A blank stands between two characters that are not. -/
theorem SingleSpaced.endsBlank_left {u v : Text} (h : SingleSpaced (u ++ v)) (hv : startsBlank v = true) :
    endsBlank u = false := by
  obtain rfl | ⟨more, c, rfl⟩ := List.eq_nil_or_concat u
  · rfl
  · rw [List.concat_eq_append, List.append_assoc] at h
    rw [List.concat_eq_append, endsBlank_concat, Bool.eq_false_iff]
    intro hc
    have hNext : startsBlank v = false := (h.of_append_right.1 hc).2
    rw [hv] at hNext
    cases hNext

theorem IsWord.trimmed {w : Text} (h : IsWord w) : Trimmed w := by
  constructor
  · cases w with
    | nil => rfl
    | cons c w => exact h.2 c List.mem_cons_self
  · rw [endsBlank, List.getLast?_eq_some_getLast h.1]
    exact h.2 _ (List.getLast_mem h.1)

theorem singleSpaced_joinWords {ws : List Text} (h : ∀ w ∈ ws, IsWord w) :
    SingleSpaced (joinWords ws) ∧ Trimmed (joinWords ws) ∧ (ws ≠ [] → joinWords ws ≠ []) := by
  induction ws with
  | nil => exact ⟨trivial, ⟨rfl, rfl⟩, fun hNe => absurd rfl hNe⟩
  | cons w ws ih =>
    have hWord := h w List.mem_cons_self
    obtain ⟨hSpaced, hTrimmed, hNe⟩ := ih fun v hv => h v (List.mem_cons_of_mem w hv)
    cases ws with
    | nil =>
      rw [joinWords_singleton]
      exact ⟨SingleSpaced.of_forall hWord.2, hWord.trimmed, fun _ => hWord.1⟩
    | cons v ws =>
      rw [joinWords_cons_cons]
      refine ⟨(SingleSpaced.of_forall hWord.2).append_space hSpaced hWord.trimmed.2 hTrimmed.1,
        ⟨?_, ?_⟩, fun _ => by simp⟩
      · rw [startsBlank_append _ hWord.1]
        exact hWord.trimmed.1
      · rw [← List.singleton_append, ← List.append_assoc, endsBlank_append _ (hNe (by simp))]
        exact hTrimmed.2

theorem singleSpaced_normalize (s : Text) : SingleSpaced (normalize s) ∧ Trimmed (normalize s) := by
  obtain ⟨hSpaced, hTrimmed, -⟩ := singleSpaced_joinWords fun _ hWord => isWord_of_mem_words (s := s) hWord
  exact ⟨hSpaced, hTrimmed⟩

theorem normalize_eq_self {s : Text} (h : SingleSpaced s) (hTrimmed : Trimmed s) :
    normalize s = s := by
  induction hLength : s.length using Nat.strongRecOn generalizing s with
  | ind n ih =>
    cases s with
    | nil => rfl
    | cons c s =>
      subst hLength
      have hc : (!isBlank c) = true := by simpa [startsBlank] using hTrimmed.1
      have hSplit : c :: s = (c :: s.takeWhile fun d => !isBlank d) ++ s.dropWhile fun d => !isBlank d := by
        rw [List.cons_append, List.takeWhile_append_dropWhile]
      rw [normalize, words, runs_cons_of_pos hc]
      cases hDrop : s.dropWhile fun d => !isBlank d with
      | nil =>
        rw [hDrop, List.append_nil] at hSplit
        exact (joinWords_singleton _).trans hSplit.symm
      | cons e rest =>
        have he : isBlank e = true := by
          have := List.head?_dropWhile_not (fun d => !isBlank d) s
          rw [hDrop] at this
          simpa using this
        rw [hDrop] at hSplit
        have hSpaced : SingleSpaced (e :: rest) := (hSplit ▸ h).of_append_right
        obtain ⟨rfl, hStart⟩ := hSpaced.1 he
        have hEnd : endsBlank (' ' :: rest) = false := by
          rw [← endsBlank_append _ (List.cons_ne_nil ' ' rest), ← hSplit]
          exact hTrimmed.2
        cases rest with
        | nil => cases hEnd
        | cons d rest =>
          have hShorter : (d :: rest).length < (c :: s).length := by
            rw [hSplit]
            simp only [List.length_append, List.length_cons]
            omega
          have hRest := ih _ hShorter hSpaced.2 ⟨hStart, by rwa [endsBlank, List.getLast?_cons_cons] at hEnd⟩ rfl
          have hd : (!isBlank d) = true := by simpa [startsBlank] using hStart
          rw [normalize, words, runs_cons_of_pos hd] at hRest
          rw [runs_cons_of_neg (by simp [he]), runs_cons_of_pos hd, joinWords_cons_cons, hRest, ← hSplit]

end HeaderDigest.Text
