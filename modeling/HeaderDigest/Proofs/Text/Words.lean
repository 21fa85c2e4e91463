import HeaderDigest.Proofs.Text.Trim
import Mathlib.Data.List.TakeWhile

/-!
# Words and other runs

The runs of a text are found from its beginning, and a character that belongs to no run separates
what stands before it from what stands behind it.
-/

namespace HeaderDigest.Text

variable {p : Char → Bool}

theorem runs_cons_of_neg {c : Char} (h : p c = false) (s : Text) : runs p (c :: s) = runs p s := by
  simp [runs, h]

theorem runs_cons_of_pos {c : Char} (h : p c = true) (s : Text) :
    runs p (c :: s) = (c :: s.takeWhile p) :: runs p (s.dropWhile p) := by
  induction s generalizing c with
  | nil => simp [runs, h]
  | cons d s ih =>
    cases hd : p d with
    | true =>
      rw [runs, if_pos h]
      simp only [hd, if_true]
      rw [ih hd, List.takeWhile_cons_of_pos hd, List.dropWhile_cons_of_pos hd]
    | false =>
      have hd' : ¬p d = true := by simp [hd]
      rw [runs, if_pos h]
      simp only [hd, Bool.false_eq_true, if_false]
      rw [List.takeWhile_cons_of_neg hd', List.dropWhile_cons_of_neg hd']

theorem takeWhile_append_cons_of_neg {c : Char} (h : p c = false) (u v : Text) :
    (u ++ c :: v).takeWhile p = u.takeWhile p := by
  induction u with
  | nil => simp [h]
  | cons d u ih =>
    cases hd : p d with
    | true => rw [List.cons_append, List.takeWhile_cons_of_pos hd, List.takeWhile_cons_of_pos hd, ih]
    | false => simp [hd]

theorem dropWhile_append_cons_of_neg {c : Char} (h : p c = false) (u v : Text) :
    (u ++ c :: v).dropWhile p = u.dropWhile p ++ c :: v := by
  induction u with
  | nil => simp [h]
  | cons d u ih =>
    cases hd : p d with
    | true => rw [List.cons_append, List.dropWhile_cons_of_pos hd, List.dropWhile_cons_of_pos hd, ih]
    | false => simp [hd]

theorem span_append {u v : Text} (hu : ∀ c ∈ u, p c = true)
    (hv : ∀ c ∈ v.head?, p c = false) : (u ++ v).takeWhile p = u ∧ (u ++ v).dropWhile p = v := by
  rw [List.takeWhile_append_of_pos hu, List.dropWhile_append_of_pos hu]
  cases v with
  | nil => exact ⟨List.append_nil u, rfl⟩
  | cons c v =>
    have hc : ¬p c = true := Bool.eq_false_iff.mp (hv c rfl)
    rw [List.takeWhile_cons_of_neg hc, List.dropWhile_cons_of_neg hc, List.append_nil]
    exact ⟨rfl, rfl⟩

theorem mem_head?_append {u v : Text} {c : Char} (h : c ∈ (u ++ v).head?) : c ∈ u ∨ c ∈ v.head? := by
  cases u with
  | nil => exact Or.inr h
  | cons d u => exact Or.inl (Option.some.inj h ▸ List.mem_cons_self)

theorem runs_append_cons_of_neg {c : Char} (h : p c = false) (u v : Text) :
    runs p (u ++ c :: v) = runs p u ++ runs p v := by
  induction hLength : u.length using Nat.strongRecOn generalizing u with
  | ind n ih =>
    cases u with
    | nil =>
      rw [List.nil_append, runs_cons_of_neg h]
      rfl
    | cons d u =>
      subst hLength
      cases hd : p d with
      | false =>
        rw [List.cons_append, runs_cons_of_neg hd, runs_cons_of_neg hd]
        exact ih u.length (by simp) u rfl
      | true =>
        have hShorter : (u.dropWhile p).length < (d :: u).length := by
          have hSublist : (u.dropWhile p).Sublist u := List.dropWhile_sublist p
          have := hSublist.length_le
          simp only [List.length_cons]
          omega
        rw [List.cons_append, runs_cons_of_pos hd, runs_cons_of_pos hd,
          takeWhile_append_cons_of_neg h, dropWhile_append_cons_of_neg h,
          ih _ hShorter (u.dropWhile p) rfl, List.cons_append]

theorem runs_of_forall {s : Text} (hs : s ≠ []) (h : ∀ c ∈ s, p c = true) : runs p s = [s] := by
  cases s with
  | nil => exact absurd rfl hs
  | cons c s =>
    have hTail : ∀ d ∈ s, p d = true := fun d hd => h d (List.mem_cons_of_mem c hd)
    have hTake : s.takeWhile p = s := List.takeWhile_eq_self_iff.mpr hTail
    have hDrop : s.dropWhile p = [] := List.dropWhile_eq_nil_iff.mpr hTail
    rw [runs_cons_of_pos (h c List.mem_cons_self), hTake, hDrop]
    rfl

theorem runs_append_left_of_neg {u : Text} (h : ∀ c ∈ u, p c = false) (s : Text) :
    runs p (u ++ s) = runs p s := by
  induction u with
  | nil => rfl
  | cons c u ih =>
    rw [List.cons_append, runs_cons_of_neg (h c List.mem_cons_self)]
    exact ih fun d hd => h d (List.mem_cons_of_mem c hd)

theorem runs_append_right_of_neg {v : Text} (h : ∀ c ∈ v, p c = false) (s : Text) :
    runs p (s ++ v) = runs p s := by
  cases v with
  | nil => rw [List.append_nil]
  | cons c v =>
    have hNil : runs p v = [] := by
      have := runs_append_left_of_neg (fun d hd => h d (List.mem_cons_of_mem c hd)) ([] : Text)
      rwa [List.append_nil] at this
    rw [runs_append_cons_of_neg (h c List.mem_cons_self), hNil, List.append_nil]

/-- Trimming takes no run away, as long as no blank belongs to one. -/
theorem runs_trim (h : ∀ c, isBlank c = true → p c = false) (s : Text) : runs p (trim s) = runs p s := by
  obtain ⟨u, v, hu, hv, -, hs⟩ := exists_eq_append_trim s
  have hRuns : runs p (u ++ trim s ++ v) = runs p (trim s) := by
    rw [runs_append_right_of_neg fun c hc => h c (hv c hc),
      runs_append_left_of_neg fun c hc => h c (hu c hc)]
  rw [← hRuns, ← hs]

theorem mem_runs {s run : Text} (h : run ∈ runs p s) : run ≠ [] ∧ ∀ c ∈ run, p c = true := by
  induction hLength : s.length using Nat.strongRecOn generalizing s with
  | ind n ih =>
    cases s with
    | nil => cases h
    | cons c s =>
      subst hLength
      cases hc : p c with
      | false =>
        rw [runs_cons_of_neg hc] at h
        exact ih s.length (by simp) h rfl
      | true =>
        rw [runs_cons_of_pos hc] at h
        obtain rfl | h := List.mem_cons.mp h
        · exact ⟨List.cons_ne_nil _ _, List.forall_mem_cons.mpr ⟨hc, fun d hd => List.mem_takeWhile_imp hd⟩⟩
        · have hSublist : (s.dropWhile p).Sublist s := List.dropWhile_sublist p
          have := hSublist.length_le
          exact ih (s.dropWhile p).length (by simp only [List.length_cons]; omega) h rfl

theorem flatten_runs (p : Char → Bool) (s : Text) : (runs p s).flatten = s.filter p := by
  induction hLength : s.length using Nat.strongRecOn generalizing s with
  | ind n ih =>
    cases s with
    | nil => rfl
    | cons c s =>
      subst hLength
      cases hc : p c with
      | false =>
        rw [runs_cons_of_neg hc, List.filter_cons_of_neg (by simp [hc])]
        exact ih s.length (Nat.lt_succ_self _) s rfl
      | true =>
        have hShorter := (List.dropWhile_sublist (p := p) (l := s)).length_le
        have hTake : (s.takeWhile p).filter p = s.takeWhile p :=
          List.filter_eq_self.mpr fun d hd => List.mem_takeWhile_imp hd
        rw [runs_cons_of_pos hc, List.flatten_cons, ih _ (Nat.lt_succ_of_le hShorter) (s.dropWhile p) rfl,
          List.filter_cons_of_pos hc, List.cons_append]
        congr 1
        calc s.takeWhile p ++ (s.dropWhile p).filter p
          _ = (s.takeWhile p ++ s.dropWhile p).filter p := by rw [List.filter_append, hTake]
          _ = s.filter p := by rw [List.takeWhile_append_dropWhile]

/-- A text with a blank in it has a last one. -/
theorem exists_eq_append_blank {s : Text} (h : ∃ c ∈ s, isBlank c = true) :
    ∃ u b v, s = u ++ b :: v ∧ isBlank b = true ∧ ∀ c ∈ v, isBlank c = false := by
  induction s with
  | nil => simp at h
  | cons c s ih =>
    by_cases hRest : ∃ d ∈ s, isBlank d = true
    · obtain ⟨u, b, v, rfl, hb, hv⟩ := ih hRest
      exact ⟨c :: u, b, v, rfl, hb, hv⟩
    · obtain ⟨d, hd, hBlank⟩ := h
      obtain rfl | hd := List.mem_cons.mp hd
      · exact ⟨[], d, s, rfl, hBlank, fun e he => Bool.eq_false_iff.mpr fun hBlank => hRest ⟨e, he, hBlank⟩⟩
      · exact absurd ⟨d, hd, hBlank⟩ hRest

def IsWord (s : Text) : Prop := s ≠ [] ∧ ∀ c ∈ s, isBlank c = false

instance (s : Text) : Decidable (IsWord s) := inferInstanceAs (Decidable (_ ∧ _))

theorem joinWords_cons_cons (w v : Text) (ws : List Text) :
    joinWords (w :: v :: ws) = w ++ ' ' :: joinWords (v :: ws) := by
  simp [joinWords, List.intercalate]

theorem joinWords_singleton (w : Text) : joinWords [w] = w := by simp [joinWords, List.intercalate]

theorem joinWords_append {ws vs : List Text} (hws : ws ≠ []) (hvs : vs ≠ []) :
    joinWords (ws ++ vs) = joinWords ws ++ ' ' :: joinWords vs := by
  induction ws with
  | nil => exact absurd rfl hws
  | cons w ws ih =>
    cases ws with
    | nil =>
      obtain ⟨v, vs, rfl⟩ := List.exists_cons_of_ne_nil hvs
      rw [List.singleton_append, joinWords_cons_cons, joinWords_singleton]
    | cons u ws =>
      have hRest := ih (List.cons_ne_nil u ws)
      rw [List.cons_append] at hRest
      rw [List.cons_append, List.cons_append, joinWords_cons_cons, hRest, joinWords_cons_cons,
        List.append_assoc, List.cons_append]

theorem joinWords_concat {ws : List Text} (hNe : ws ≠ []) (w : Text) :
    joinWords (ws ++ [w]) = joinWords ws ++ ' ' :: w := by
  rw [joinWords_append hNe (List.cons_ne_nil w []), joinWords_singleton]

theorem runs_joinWords {ws : List Text} (hSpace : p ' ' = false)
    (h : ∀ w ∈ ws, w ≠ [] ∧ ∀ c ∈ w, p c = true) : runs p (joinWords ws) = ws := by
  induction ws with
  | nil => rfl
  | cons w ws ih =>
    obtain ⟨hNe, hWord⟩ := h w List.mem_cons_self
    have hRest := ih fun v hv => h v (List.mem_cons_of_mem w hv)
    cases ws with
    | nil => rw [joinWords_singleton, runs_of_forall hNe hWord]
    | cons v ws =>
      rw [joinWords_cons_cons, runs_append_cons_of_neg hSpace, runs_of_forall hNe hWord, hRest,
        List.singleton_append]

theorem words_joinWords {ws : List Text} (h : ∀ w ∈ ws, IsWord w) : words (joinWords ws) = ws :=
  runs_joinWords (by decide) fun w hw => ⟨(h w hw).1, fun c hc => by simp [(h w hw).2 c hc]⟩

theorem words_joinWords_eq_flatMap (ws : List Text) : words (joinWords ws) = ws.flatMap words := by
  induction ws with
  | nil => rfl
  | cons w ws ih =>
    cases ws with
    | nil => rw [joinWords_singleton, List.flatMap_singleton]
    | cons v ws =>
      rw [joinWords_cons_cons, words, runs_append_cons_of_neg (by decide), List.flatMap_cons]
      exact congrArg (runs _ w ++ ·) ih

theorem isWord_of_mem_words {s w : Text} (h : w ∈ words s) : IsWord w := by
  obtain ⟨hNe, hWord⟩ := mem_runs h
  exact ⟨hNe, fun c hc => by simpa using hWord c hc⟩

/-- Runs without blanks are found word by word. -/
theorem runs_eq_flatMap_words (h : ∀ c, isBlank c = true → p c = false) (s : Text) :
    runs p s = (words s).flatMap (runs p) := by
  induction hLength : s.length using Nat.strongRecOn generalizing s with
  | ind n ih =>
    cases s with
    | nil => rfl
    | cons c s =>
      subst hLength
      cases hc : isBlank c with
      | true =>
        rw [words, runs_cons_of_neg (h c hc), runs_cons_of_neg (by simp [hc])]
        exact ih s.length (Nat.lt_succ_self _) s rfl
      | false =>
        have hPos : (fun d => !isBlank d) c = true := by simp [hc]
        have hShorter := (List.dropWhile_sublist (p := fun d => !isBlank d) (l := s)).length_le
        have hRest := ih _ (Nat.lt_succ_of_le hShorter) (s.dropWhile fun d => !isBlank d) rfl
        have hFirst := List.head?_dropWhile_not (fun d => !isBlank d) s
        rw [words, runs_cons_of_pos (p := fun d => !isBlank d) hPos, List.flatMap_cons]
        refine Eq.trans ?_ (congrArg (runs p _ ++ ·) hRest)
        conv => lhs; rw [← List.takeWhile_append_dropWhile (p := fun d => !isBlank d) (l := s), ← List.cons_append]
        cases hBehind : s.dropWhile fun d => !isBlank d with
        | nil => simp [runs]
        | cons b rest =>
          rw [hBehind] at hFirst
          have hb : p b = false := h b (by simpa using hFirst)
          rw [runs_append_cons_of_neg hb, runs_cons_of_neg hb]

theorem words_normalize (s : Text) : words (normalize s) = words s :=
  words_joinWords fun _ => isWord_of_mem_words

theorem mem_joinWords {ws : List Text} {c : Char} (h : c ∈ joinWords ws) :
    c = ' ' ∨ ∃ w ∈ ws, c ∈ w := by
  induction ws with
  | nil => cases h
  | cons w ws ih =>
    cases ws with
    | nil =>
      rw [joinWords_singleton] at h
      exact Or.inr ⟨w, List.mem_cons_self, h⟩
    | cons v ws =>
      rw [joinWords_cons_cons, List.mem_append, List.mem_cons] at h
      rcases h with h | h | h
      · exact Or.inr ⟨w, List.mem_cons_self, h⟩
      · exact Or.inl h
      · obtain h | ⟨u, hu, hc⟩ := ih h
        · exact Or.inl h
        · exact Or.inr ⟨u, List.mem_cons_of_mem w hu, hc⟩

end HeaderDigest.Text
