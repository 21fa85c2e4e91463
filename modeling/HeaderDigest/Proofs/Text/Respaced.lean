import HeaderDigest.Proofs.Text.Spacing

/-!
# Texts with the same words

Two texts with the same words are walked through side by side: where both have a blank, or one is
at its end, either may have any number of blanks more. What is read off such texts word by word is
the same in both. A text beside another keeps its words, but for the one that may run over.
-/

namespace HeaderDigest.Text

/-- `gap` says whether nothing or a blank stands before both texts. -/
inductive Respaced : Bool → Text → Text → Prop
  | nil {gap : Bool} : Respaced gap [] []
  | char {gap : Bool} {c : Char} {s t : Text} : isBlank c = false → Respaced false s t →
      Respaced gap (c :: s) (c :: t)
  | both {gap : Bool} {b c : Char} {s t : Text} : isBlank b = true → isBlank c = true →
      Respaced true s t → Respaced gap (b :: s) (c :: t)
  | left {gap : Bool} {b : Char} {s t : Text} : isBlank b = true → gap = true ∨ t = [] →
      Respaced true s t → Respaced gap (b :: s) t
  | right {gap : Bool} {c : Char} {s t : Text} : isBlank c = true → gap = true ∨ s = [] →
      Respaced true s t → Respaced gap s (c :: t)

variable {gap : Bool} {s t : Text} {p : Char → Bool}

namespace Respaced

theorem symm (h : Respaced gap s t) : Respaced gap t s := by
  induction h with
  | nil => exact nil
  | char hc _ ih => exact char hc ih
  | both hb hc _ ih => exact both hc hb ih
  | left hb hGap _ ih => exact right hb hGap ih
  | right hc hGap _ ih => exact left hc hGap ih

theorem trimStart_cons {b : Char} (hb : isBlank b = true) (s : Text) :
    trimStart (b :: s) = trimStart s := List.dropWhile_cons_of_pos hb

theorem trimStart (h : Respaced gap s t) (gap' : Bool) :
    Respaced gap' (trimStart s) (trimStart t) := by
  induction h with
  | nil => exact nil
  | @char _ c s t hc hRest _ =>
    rw [trimStart_eq_self (s := c :: s) hc, trimStart_eq_self (s := c :: t) hc]
    exact char hc hRest
  | both hb hc _ ih => rwa [trimStart_cons hb, trimStart_cons hc]
  | left hb _ _ ih => rwa [trimStart_cons hb]
  | right hc _ _ ih => rwa [trimStart_cons hc]

/-- Texts that do not begin with a blank begin with the same character, if any. -/
theorem eq_nil_or_cons (h : Respaced gap s t) (hs : startsBlank s = false) (ht : startsBlank t = false) :
    s = [] ∧ t = [] ∨ ∃ c s' t', s = c :: s' ∧ t = c :: t' ∧ isBlank c = false ∧ Respaced false s' t' := by
  cases h with
  | nil => exact Or.inl ⟨rfl, rfl⟩
  | char hc hRest => exact Or.inr ⟨_, _, _, rfl, rfl, hc, hRest⟩
  | both hb => exact absurd (hb.symm.trans hs) (by simp)
  | left hb => exact absurd (hb.symm.trans hs) (by simp)
  | right hc => exact absurd (hc.symm.trans ht) (by simp)

theorem trimStart_eq_nil_or_cons (h : Respaced gap s t) :
    Text.trimStart s = [] ∧ Text.trimStart t = [] ∨
      ∃ c s' t', Text.trimStart s = c :: s' ∧ Text.trimStart t = c :: t' ∧ isBlank c = false ∧
        Respaced false s' t' :=
  (h.trimStart false).eq_nil_or_cons (startsBlank_trimStart s) (startsBlank_trimStart t)

/-- A run of characters that are no blanks is the same in both texts. -/
theorem takeWhile_eq (hp : ∀ c, isBlank c = true → p c = false) (h : Respaced gap s t)
    (hGap : gap = false) : s.takeWhile p = t.takeWhile p ∧ Respaced gap (s.dropWhile p) (t.dropWhile p) := by
  induction h with
  | nil => exact ⟨rfl, nil⟩
  | @char _ c s t hc hRest ih =>
    obtain ⟨hTake, hDrop⟩ := ih rfl
    cases hpc : p c with
    | true =>
      rw [List.takeWhile_cons_of_pos hpc, List.takeWhile_cons_of_pos hpc,
        List.dropWhile_cons_of_pos hpc, List.dropWhile_cons_of_pos hpc, hTake]
      exact ⟨rfl, hGap ▸ hDrop⟩
    | false =>
      have hNot : ¬p c = true := by simp [hpc]
      rw [List.takeWhile_cons_of_neg hNot, List.takeWhile_cons_of_neg hNot,
        List.dropWhile_cons_of_neg hNot, List.dropWhile_cons_of_neg hNot]
      exact ⟨rfl, char hc hRest⟩
  | @both _ b c s t hb hc hRest _ =>
    have hNotB : ¬p b = true := by simp [hp b hb]
    have hNotC : ¬p c = true := by simp [hp c hc]
    rw [List.takeWhile_cons_of_neg hNotB, List.takeWhile_cons_of_neg hNotC,
      List.dropWhile_cons_of_neg hNotB, List.dropWhile_cons_of_neg hNotC]
    exact ⟨rfl, both hb hc hRest⟩
  | @left _ b s t hb hEnd hRest _ =>
    have hNot : ¬p b = true := by simp [hp b hb]
    obtain rfl : t = [] := hEnd.resolve_left (by simp [← hGap])
    rw [List.takeWhile_cons_of_neg hNot, List.dropWhile_cons_of_neg hNot]
    exact ⟨rfl, left hb (Or.inr rfl) hRest⟩
  | @right _ c s t hc hEnd hRest _ =>
    have hNot : ¬p c = true := by simp [hp c hc]
    obtain rfl : s = [] := hEnd.resolve_left (by simp [← hGap])
    rw [List.takeWhile_cons_of_neg hNot, List.dropWhile_cons_of_neg hNot]
    exact ⟨rfl, right hc (Or.inr rfl) hRest⟩

/-- A run that goes on at blanks ends at the same character in both texts. -/
theorem takeWhile_blank (hp : ∀ c, isBlank c = true → p c = true) (h : Respaced gap s t) :
    Respaced gap (s.takeWhile p) (t.takeWhile p) ∧
      (s.dropWhile p).head? = (t.dropWhile p).head? := by
  induction h with
  | nil => exact ⟨nil, rfl⟩
  | @char _ c s t hc hRest ih =>
    obtain ⟨hTake, hDrop⟩ := ih
    cases hpc : p c with
    | true =>
      rw [List.takeWhile_cons_of_pos hpc, List.takeWhile_cons_of_pos hpc,
        List.dropWhile_cons_of_pos hpc, List.dropWhile_cons_of_pos hpc]
      exact ⟨char hc hTake, hDrop⟩
    | false =>
      have hNot : ¬p c = true := by simp [hpc]
      rw [List.takeWhile_cons_of_neg hNot, List.takeWhile_cons_of_neg hNot,
        List.dropWhile_cons_of_neg hNot, List.dropWhile_cons_of_neg hNot]
      exact ⟨nil, rfl⟩
  | @both _ b c s t hb hc _ ih =>
    rw [List.takeWhile_cons_of_pos (hp b hb), List.takeWhile_cons_of_pos (hp c hc),
      List.dropWhile_cons_of_pos (hp b hb), List.dropWhile_cons_of_pos (hp c hc)]
    exact ⟨both hb hc ih.1, ih.2⟩
  | @left _ b s t hb hEnd _ ih =>
    rw [List.takeWhile_cons_of_pos (hp b hb), List.dropWhile_cons_of_pos (hp b hb)]
    refine ⟨left hb (hEnd.imp_right ?_) ih.1, ih.2⟩
    rintro rfl
    rfl
  | @right _ c s t hc hEnd _ ih =>
    rw [List.takeWhile_cons_of_pos (hp c hc), List.dropWhile_cons_of_pos (hp c hc)]
    refine ⟨right hc (hEnd.imp_right ?_) ih.1, ih.2⟩
    rintro rfl
    rfl

theorem words_blank_cons {b : Char} (hb : isBlank b = true) (s : Text) : words (b :: s) = words s :=
  runs_cons_of_neg (by simp [hb]) s

theorem words_append_blank {b : Char} (hb : isBlank b = true) (w s : Text) :
    words (w ++ b :: s) = words w ++ words s := runs_append_cons_of_neg (by simp [hb]) w s

/-- The texts go on with the same words behind the beginning of a word. -/
theorem words_append_eq (h : Respaced gap s t) {w : Text} (hw : gap = true → w = []) :
    words (w ++ s) = words (w ++ t) := by
  induction h generalizing w with
  | nil => rfl
  | @char _ c s t _ _ ih =>
    have hWord := ih (w := w ++ [c]) (by simp)
    rwa [List.append_assoc, List.append_assoc] at hWord
  | both hb hc _ ih =>
    rw [words_append_blank hb, words_append_blank hc]
    exact congrArg (words w ++ ·) (ih (w := []) fun _ => rfl)
  | @left _ b s t hb hEnd _ ih =>
    have hWords : words s = words t := ih (w := []) fun _ => rfl
    rw [words_append_blank hb, hWords]
    rcases hEnd with hGap | rfl
    · rw [hw hGap]
      rfl
    · exact (List.append_nil _).trans (congrArg words (List.append_nil w).symm)
  | @right _ c s t hc hEnd _ ih =>
    have hWords : words s = words t := ih (w := []) fun _ => rfl
    rw [words_append_blank hc, ← hWords]
    rcases hEnd with hGap | rfl
    · rw [hw hGap]
      rfl
    · exact ((List.append_nil _).trans (congrArg words (List.append_nil w).symm)).symm

theorem words_eq (h : Respaced gap s t) : words s = words t :=
  h.words_append_eq (w := []) fun _ => rfl

theorem takeWhile_blank_cons {b : Char} (hb : isBlank b = true) (s : Text) :
    (b :: s).takeWhile (fun c => !isBlank c) = [] := List.takeWhile_cons_of_neg (by simp [hb])

theorem dropWhile_blank_cons {b : Char} (hb : isBlank b = true) (s : Text) :
    (b :: s).dropWhile (fun c => !isBlank c) = b :: s := List.dropWhile_cons_of_neg (by simp [hb])

/-- Inside a word the texts have to agree on the rest of the word and on the words behind it. -/
theorem of_takeWhile_eq
    (ih : ∀ s' t' : Text, s'.length + t'.length < s.length + t.length → words s' = words t' →
      Respaced true s' t')
    (hTake : s.takeWhile (fun c => !isBlank c) = t.takeWhile (fun c => !isBlank c))
    (hWords : words (s.dropWhile fun c => !isBlank c) = words (t.dropWhile fun c => !isBlank c)) :
    Respaced false s t := by
  induction s generalizing t with
  | nil =>
    cases t with
    | nil => exact nil
    | cons c t =>
      cases hc : isBlank c with
      | true =>
        rw [dropWhile_blank_cons hc, words_blank_cons hc] at hWords
        exact right hc (Or.inr rfl) (ih [] t (by simp) hWords)
      | false =>
        rw [List.takeWhile_cons_of_pos (by simp [hc])] at hTake
        cases hTake
  | cons b s ihs =>
    cases hb : isBlank b with
    | true =>
      rw [takeWhile_blank_cons hb] at hTake
      rw [dropWhile_blank_cons hb, words_blank_cons hb] at hWords
      cases t with
      | nil => exact left hb (Or.inr rfl) (ih s [] (by simp) hWords)
      | cons c t =>
        cases hc : isBlank c with
        | true =>
          rw [dropWhile_blank_cons hc, words_blank_cons hc] at hWords
          refine both hb hc (ih s t ?_ hWords)
          simp only [List.length_cons]
          omega
        | false =>
          rw [List.takeWhile_cons_of_pos (by simp [hc])] at hTake
          cases hTake
    | false =>
      rw [List.takeWhile_cons_of_pos (by simp [hb])] at hTake
      rw [List.dropWhile_cons_of_pos (by simp [hb])] at hWords
      cases t with
      | nil => cases hTake
      | cons c t =>
        cases hc : isBlank c with
        | true =>
          rw [takeWhile_blank_cons hc] at hTake
          cases hTake
        | false =>
          rw [List.takeWhile_cons_of_pos (by simp [hc])] at hTake
          rw [List.dropWhile_cons_of_pos (by simp [hc])] at hWords
          obtain ⟨rfl, hRest⟩ := List.cons.inj hTake
          refine char hb (ihs ?_ hRest hWords)
          intro s' t' hLength
          apply ih
          simp only [List.length_cons]
          omega

theorem of_words_eq (h : words s = words t) : Respaced true s t := by
  induction hLength : s.length + t.length using Nat.strongRecOn generalizing s t with
  | ind n ih =>
    subst hLength
    have hShorter (s' t' : Text) (hLess : s'.length + t'.length < s.length + t.length)
        (hWords : words s' = words t') : Respaced true s' t' := ih _ hLess hWords rfl
    cases s with
    | nil =>
      cases t with
      | nil => exact nil
      | cons c t =>
        cases hc : isBlank c with
        | true =>
          rw [words_blank_cons hc] at h
          exact right hc (Or.inl rfl) (hShorter [] t (by simp) h)
        | false =>
          rw [words, words, runs_cons_of_pos (by simp [hc])] at h
          cases h
    | cons b s =>
      cases hb : isBlank b with
      | true =>
        rw [words_blank_cons hb] at h
        refine left hb (Or.inl rfl) (hShorter s t ?_ h)
        simp only [List.length_cons]
        omega
      | false =>
        cases t with
        | nil =>
          rw [words, words, runs_cons_of_pos (by simp [hb])] at h
          cases h
        | cons c t =>
          cases hc : isBlank c with
          | true =>
            rw [words_blank_cons hc] at h
            refine right hc (Or.inl rfl) (hShorter (b :: s) t ?_ h)
            simp only [List.length_cons]
            omega
          | false =>
            rw [words, words, runs_cons_of_pos (by simp [hb]), runs_cons_of_pos (by simp [hc])] at h
            obtain ⟨hWord, hWords⟩ := List.cons.inj h
            obtain ⟨rfl, hTake⟩ := List.cons.inj hWord
            refine char hb (of_takeWhile_eq ?_ hTake hWords)
            intro s' t' hLess
            apply hShorter
            simp only [List.length_cons]
            omega

end Respaced

theorem runs_reverse (p : Char → Bool) (s : Text) :
    runs p s.reverse = ((runs p s).map List.reverse).reverse := by
  induction hLength : s.length using Nat.strongRecOn generalizing s with
  | ind n ih =>
    subst hLength
    by_cases hAll : ∀ c ∈ s, p c = true
    · cases s with
      | nil => rfl
      | cons c s =>
        rw [runs_of_forall (List.cons_ne_nil c s) hAll,
          runs_of_forall (by simp) fun d hd => hAll d (List.mem_reverse.mp hd)]
        rfl
    · obtain ⟨c, hMem, hc⟩ : ∃ c ∈ s, p c = false := by simpa using hAll
      obtain ⟨u, v, rfl⟩ := List.append_of_mem hMem
      have hu := ih u.length (by simp only [List.length_append, List.length_cons]; omega) u rfl
      have hv := ih v.length (by simp only [List.length_append, List.length_cons]; omega) v rfl
      rw [List.reverse_append, List.reverse_cons, List.append_assoc, List.singleton_append,
        runs_append_cons_of_neg hc, runs_append_cons_of_neg hc, hu, hv, List.map_append,
        List.reverse_append]

theorem Respaced.reverse (h : Respaced true s t) : Respaced true s.reverse t.reverse := by
  apply Respaced.of_words_eq
  rw [words, runs_reverse, words, runs_reverse]
  exact congrArg (fun ws => (ws.map List.reverse).reverse) h.words_eq

section SideBySide

variable {u v w : Text}

theorem words_append_of_blank (h : endsBlank u = true ∨ startsBlank v = true) :
    words (u ++ v) = words u ++ words v := by
  obtain h | h := h
  · obtain ⟨b, hLast, hb⟩ := (Option.any_eq_true _ _).mp h
    obtain ⟨front, rfl⟩ := List.getLast?_eq_some_iff.mp hLast
    rw [List.append_assoc, List.singleton_append, Respaced.words_append_blank hb,
      Respaced.words_append_blank hb]
    exact congrArg (· ++ words v) (List.append_nil _).symm
  · obtain ⟨b, hHead, hb⟩ := (Option.any_eq_true _ _).mp h
    obtain ⟨rest, rfl⟩ := List.head?_eq_some_iff.mp hHead
    rw [Respaced.words_append_blank hb, Respaced.words_blank_cons hb]

theorem words_append_congr_right (h : words v = words w) (hv : startsBlank v = false)
    (hw : startsBlank w = false) (u : Text) : words (u ++ v) = words (u ++ w) := by
  obtain ⟨rfl, rfl⟩ | ⟨c, v, w, rfl, rfl, hc, hRest⟩ := (Respaced.of_words_eq h).eq_nil_or_cons hv hw
  · rfl
  · have hSame : Respaced false (c :: v) (c :: w) := .char hc hRest
    exact hSame.words_append_eq (by simp)

theorem words_append_congr_left (h : words u = words w) (hu : endsBlank u = false)
    (hw : endsBlank w = false) (v : Text) : words (u ++ v) = words (w ++ v) := by
  have hReverse := words_append_congr_right (Respaced.of_words_eq h).reverse.words_eq
    ((startsBlank_reverse u).trans hu) ((startsBlank_reverse w).trans hw) v.reverse
  rw [← List.reverse_append, ← List.reverse_append, words, runs_reverse, words, runs_reverse,
    List.reverse_inj] at hReverse
  exact (List.map_inj_right fun _ _ => List.reverse_inj.mp).mp hReverse

theorem normalize_append_of_blank (h : ∀ c ∈ v, isBlank c = true) (s : Text) :
    normalize (s ++ v) = normalize s :=
  congrArg joinWords (runs_append_right_of_neg (fun c hc => by simp [h c hc]) s)

theorem normalize_append_left_of_blank (h : ∀ c ∈ u, isBlank c = true) (s : Text) :
    normalize (u ++ s) = normalize s :=
  congrArg joinWords (runs_append_left_of_neg (fun c hc => by simp [h c hc]) s)

/-- Normalizing two texts side by side normalizes each and decides whether a space comes between
them. -/
theorem exists_normalize_append (u v : Text) :
    ∃ glue, (glue = [] ∨ glue = [' ']) ∧ normalize (u ++ v) = normalize u ++ glue ++ normalize v := by
  by_cases hBlank : endsBlank u = true ∨ startsBlank v = true
  · have hText : normalize (u ++ v) = joinWords (words u ++ words v) :=
      congrArg joinWords (words_append_of_blank hBlank)
    by_cases hLeft : words u = []
    · exact ⟨[], Or.inl rfl, by rw [hText, normalize, normalize, hLeft]; rfl⟩
    · by_cases hRight : words v = []
      · refine ⟨[], Or.inl rfl, ?_⟩
        rw [hText, normalize, normalize, hRight, List.append_nil, List.append_nil]
        exact (List.append_nil _).symm
      · refine ⟨[' '], Or.inr rfl, ?_⟩
        rw [hText, joinWords_append hLeft hRight, List.append_assoc]
        rfl
  · rw [not_or, Bool.not_eq_true, Bool.not_eq_true] at hBlank
    obtain ⟨hu, hTrimmedLeft⟩ := singleSpaced_normalize u
    obtain ⟨hv, hTrimmedRight⟩ := singleSpaced_normalize v
    have hWords : words (u ++ v) = words (normalize u ++ normalize v) :=
      (words_append_congr_right (words_normalize v).symm hBlank.2 hTrimmedRight.1 u).trans
        (words_append_congr_left (words_normalize u).symm hBlank.1 hTrimmedLeft.2 _)
    refine ⟨[], Or.inl rfl, ?_⟩
    rw [List.append_nil, normalize, hWords, ← normalize]
    exact normalize_eq_self (hu.append hv (Or.inl hTrimmedLeft.2)) (hTrimmedLeft.append hTrimmedRight)

theorem blank_of_glue {glue : Text} (h : glue = [] ∨ glue = [' ']) : ∀ c ∈ glue, isBlank c = true := by
  rcases h with rfl | rfl <;> decide

/-- The last character of a normal text is the last one that is no blank. -/
theorem exists_of_normalize_eq_concat {s front : Text} {c : Char} (hc : isBlank c = false)
    (h : normalize s = front ++ [c]) :
    ∃ stem blanks glue, s = stem ++ c :: blanks ∧ (∀ b ∈ blanks, isBlank b = true) ∧
      (∀ b ∈ glue, isBlank b = true) ∧ front = normalize stem ++ glue := by
  obtain ⟨blanks, hBlanks, hs⟩ := exists_eq_trimEnd_append s
  rw [hs, normalize_append_of_blank hBlanks] at h
  rcases List.eq_nil_or_concat (trimEnd s) with hNil | ⟨stem, d, hStem⟩
  · rw [hNil] at h
    exact absurd h.symm (by simp [normalize, words, runs, joinWords])
  · have hd : isBlank d = false := by
      have hEnd := endsBlank_trimEnd s
      rw [hStem, List.concat_eq_append, endsBlank, List.getLast?_concat] at hEnd
      exact hEnd
    have hOne : normalize [d] = [d] :=
      normalize_eq_self (SingleSpaced.of_forall (List.forall_mem_singleton.mpr hd)) ⟨hd, hd⟩
    obtain ⟨glue, hGlue, hText⟩ := exists_normalize_append stem [d]
    rw [hStem, List.concat_eq_append, hText, hOne] at h
    obtain ⟨hFront, hLast⟩ := List.append_inj' h rfl
    obtain rfl := (List.cons.inj hLast).1
    refine ⟨stem, blanks, glue, ?_, hBlanks, blank_of_glue hGlue, hFront.symm⟩
    rw [hs, hStem]
    simp

end SideBySide

end HeaderDigest.Text
