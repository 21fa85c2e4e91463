import HeaderDigest.Proofs.Text.Words

/-!
# Where words begin and end

Between two texts a word ends unless a word character stands on both sides. Such texts have the
words of the one and the words of the other, and a word that is looked for at the beginning of the
first is found there whatever the second holds.
-/

namespace HeaderDigest.Text

def startsWord (s : Text) : Bool := s.head?.any isWordChar

def endsWord (s : Text) : Bool := s.getLast?.any isWordChar

/-- Whether no word that ends a text goes on in the one behind it. -/
def WordsApart (u v : Text) : Prop := endsWord u = false ∨ startsWord v = false

instance (u v : Text) : Decidable (WordsApart u v) := inferInstanceAs (Decidable (_ ∨ _))

variable {u v w : Text}

theorem endsWord_eq_false_iff : endsWord u = false ↔ ∀ c ∈ u.getLast?, isWordChar c = false := by
  rw [endsWord, Option.any_eq_false]
  simp

theorem startsWord_append_of_blank (hu : ∀ c ∈ u, isBlank c = true) (hv : startsWord v = false) :
    startsWord (u ++ v) = false := by
  cases u with
  | nil => exact hv
  | cons c u => exact isWordChar_eq_false_of_isBlank c (hu c List.mem_cons_self)

theorem endsWord_concat (u : Text) (c : Char) : endsWord (u ++ [c]) = isWordChar c := by
  rw [endsWord, List.getLast?_concat, Option.any_some]

theorem endsWord_of_blank (h : ∀ c ∈ u, isBlank c = true) : endsWord u = false := by
  obtain rfl | ⟨front, c, rfl⟩ := List.eq_nil_or_concat u
  · rfl
  · rw [List.concat_eq_append, endsWord_concat]
    exact isWordChar_eq_false_of_isBlank c (h c (by simp))

theorem endsWord_append (u : Text) (hv : v ≠ []) : endsWord (u ++ v) = endsWord v := by
  rw [endsWord, endsWord, List.getLast?_append, List.getLast?_eq_some_getLast hv, Option.some_or]

theorem endsWord_append_of_blank (hu : endsWord u = false) (hv : ∀ c ∈ v, isBlank c = true) :
    endsWord (u ++ v) = false := by
  by_cases hNil : v = []
  · rw [hNil, List.append_nil, hu]
  · rw [endsWord_append u hNil, endsWord_of_blank hv]

theorem startsWord_dropWhile (s : Text) : startsWord (s.dropWhile isWordChar) = false := by
  have h := List.head?_dropWhile_not isWordChar s
  unfold startsWord
  cases hHead : (s.dropWhile isWordChar).head? with
  | none => rfl
  | some c =>
    rw [hHead] at h
    simpa using h

theorem runs_append_of_bounds (h : WordsApart u v) :
    runs isWordChar (u ++ v) = runs isWordChar u ++ runs isWordChar v := by
  obtain h | h := h
  · obtain rfl | ⟨front, c, rfl⟩ := List.eq_nil_or_concat u
    · rfl
    · rw [List.concat_eq_append, endsWord_concat] at h
      have hFront : runs isWordChar (front ++ [c]) = runs isWordChar front := by
        rw [runs_append_cons_of_neg h]
        exact List.append_nil _
      rw [List.concat_eq_append, hFront, List.append_assoc, List.singleton_append,
        runs_append_cons_of_neg h]
  · cases v with
    | nil => simp [runs]
    | cons c v => rw [runs_append_cons_of_neg h, runs_cons_of_neg h]

theorem mem_runs_of_bounds (hNe : w ≠ []) (hw : ∀ c ∈ w, isWordChar c = true)
    (hu : endsWord u = false) (hv : startsWord v = false) : w ∈ runs isWordChar (u ++ (w ++ v)) := by
  rw [runs_append_of_bounds (Or.inl hu), runs_append_of_bounds (Or.inr hv), runs_of_forall hNe hw]
  simp

theorem takeWhile_append_of_bounds (hv : startsWord v = false) (u : Text) :
    (u ++ v).takeWhile isWordChar = u.takeWhile isWordChar := by
  cases v with
  | nil => rw [List.append_nil]
  | cons c v => exact takeWhile_append_cons_of_neg hv u v

theorem takeWhile_append_of_endsWord (hNe : u ≠ []) (hu : endsWord u = false) (v : Text) :
    (u ++ v).takeWhile isWordChar = u.takeWhile isWordChar := by
  obtain rfl | ⟨front, c, rfl⟩ := List.eq_nil_or_concat u
  · exact absurd rfl hNe
  · rw [List.concat_eq_append, endsWord_concat] at hu
    rw [List.concat_eq_append, List.append_assoc, List.singleton_append, takeWhile_append_cons_of_neg hu,
      takeWhile_append_cons_of_neg hu]

theorem takeWhile_trimStart_append (hNe : trimStart u ≠ []) (h : WordsApart u v) :
    (trimStart (u ++ v)).takeWhile isWordChar = (trimStart u).takeWhile isWordChar := by
  rw [trimStart_append_of_ne_nil hNe]
  obtain hEnd | hStart := h
  · obtain ⟨blanks, -, hText⟩ := exists_eq_append_trimStart u
    rw [hText, endsWord_append _ hNe] at hEnd
    exact takeWhile_append_of_endsWord hNe hEnd v
  · exact takeWhile_append_of_bounds hStart _

/-- A word stands at the beginning of a text or does not, whatever comes behind the text. -/
theorem dropPrefix?_append_of_bounds (hw : ∀ c ∈ w, isWordChar c = true) (hv : startsWord v = false)
    (u : Text) : dropPrefix? w (u ++ v) = (dropPrefix? w u).map (· ++ v) := by
  induction w generalizing u with
  | nil => rfl
  | cons p w ih =>
    obtain ⟨hp, hRest⟩ := List.forall_mem_cons.mp hw
    cases u with
    | cons c u =>
      rw [List.cons_append, dropPrefix?, dropPrefix?]
      split
      · exact ih hRest u
      · rfl
    | nil =>
      cases v with
      | nil => rfl
      | cons c v =>
        have hNe : p ≠ c := by
          rintro rfl
          exact Bool.false_ne_true (hv.symm.trans hp)
        exact if_neg hNe

theorem dropPrefix?_append_of_endsWord (hw : ∀ c ∈ w, isWordChar c = true) (hNe : u ≠ [])
    (hu : endsWord u = false) (v : Text) : dropPrefix? w (u ++ v) = (dropPrefix? w u).map (· ++ v) := by
  induction w generalizing u with
  | nil => rfl
  | cons p w ih =>
    obtain ⟨hp, hRest⟩ := List.forall_mem_cons.mp hw
    obtain ⟨c, u, rfl⟩ := List.exists_cons_of_ne_nil hNe
    rw [List.cons_append, dropPrefix?, dropPrefix?]
    split
    · rename_i hc
      have hMore : u ≠ [] := by
        rintro rfl
        rw [endsWord, List.getLast?_singleton, Option.any_some, ← hc, hp] at hu
        cases hu
      rw [← List.singleton_append, endsWord_append _ hMore] at hu
      exact ih hRest hMore hu
    · rfl

end HeaderDigest.Text
