import HeaderDigest.Proofs.DataType.Naming
import HeaderDigest.Proofs.Text.Brackets
import HeaderDigest.Proofs.Text.WordBounds

/-!
# What is left of a text without its attributes

Taking out attributes leaves the characters between them, as long as each attribute that begins in
the text is a whole one. Such texts are walked through from the left, and they can be put together
where no attribute of the first goes on in the second.
-/

namespace HeaderDigest

open Text

def attributeKeywords : List Text := ["__attribute__".toList, "__declspec".toList]

/-- An attribute as it is written: a keyword, blanks, and arguments in parentheses. -/
def IsAttribute (s : Text) : Prop :=
  ∃ keyword ∈ attributeKeywords, ∃ blanks arguments, (∀ c ∈ blanks, isBlank c = true) ∧
    Balanced '(' ')' arguments ∧ s = keyword ++ (blanks ++ '(' :: (arguments ++ [')']))

theorem isWordChar_of_mem_keyword {keyword : Text} (h : keyword ∈ attributeKeywords) :
    keyword ≠ [] ∧ ∀ c ∈ keyword, isWordChar c = true := by
  revert keyword
  decide

theorem IsAttribute.exists_eq_cons {s : Text} (h : IsAttribute s) :
    ∃ c more, s = c :: more ∧ isWordChar c = true := by
  obtain ⟨keyword, hKeyword, blanks, arguments, -, -, rfl⟩ := h
  obtain ⟨hNe, hWord⟩ := isWordChar_of_mem_keyword hKeyword
  obtain ⟨c, more, rfl⟩ := List.exists_cons_of_ne_nil hNe
  exact ⟨c, _, List.cons_append, hWord c List.mem_cons_self⟩

theorem startsAttribute_eq (s : Text) :
    startsAttribute s = attributeKeywords.any fun keyword =>
      (dropPrefix? keyword s).any fun rest => startsWith ['('] (trimStart rest) := by
  unfold startsAttribute attributeKeywords
  rw [List.any_cons, List.any_cons, List.any_nil, Bool.or_false]
  cases hFirst : dropPrefix? "__attribute__".toList s with
  | none =>
    rw [Option.none_or, Option.any_none, Bool.false_or]
    cases dropPrefix? "__declspec".toList s <;> rfl
  | some rest =>
    have hSecond : dropPrefix? "__declspec".toList s = none := by
      rw [eq_append_of_dropPrefix? hFirst]
      rfl
    rw [hSecond, Option.some_or, Option.any_some, Option.any_none, Bool.or_false]

theorem startsAttribute_iff (s : Text) :
    startsAttribute s = true ↔ ∃ keyword ∈ attributeKeywords, ∃ blanks rest,
      (∀ c ∈ blanks, isBlank c = true) ∧ s = keyword ++ (blanks ++ '(' :: rest) := by
  rw [startsAttribute_eq, List.any_eq_true]
  constructor
  · rintro ⟨keyword, hKeyword, hAny⟩
    cases hRest : dropPrefix? keyword s with
    | none =>
      rw [hRest] at hAny
      cases hAny
    | some rest =>
      rw [hRest, Option.any_some] at hAny
      obtain ⟨blanks, hBlanks, hText⟩ := exists_eq_append_trimStart rest
      obtain ⟨arguments, hArguments⟩ := List.isPrefixOf_iff_prefix.mp hAny
      refine ⟨keyword, hKeyword, blanks, arguments, hBlanks, ?_⟩
      rw [eq_append_of_dropPrefix? hRest, hText, ← hArguments]
      rfl
  · rintro ⟨keyword, hKeyword, blanks, rest, hBlanks, rfl⟩
    refine ⟨keyword, hKeyword, ?_⟩
    rw [dropPrefix?_append, Option.any_some, trimStart_append_of_blank _ hBlanks]
    rfl

/-- Every attribute begins with an underscore. -/
theorem startsAttribute_of_ne {c : Char} (hc : c ≠ '_') (rest : Text) : startsAttribute (c :: rest) = false := by
  have hFirst : ∀ keyword ∈ attributeKeywords, keyword.head? = some '_' := by decide
  rw [Bool.eq_false_iff, Ne, startsAttribute_iff]
  rintro ⟨keyword, hKeyword, blanks, behind, -, hText⟩
  obtain ⟨more, rfl⟩ := List.head?_eq_some_iff.mp (hFirst keyword hKeyword)
  exact hc (List.cons.inj hText).1

/-- An attribute that begins in a text begins there whatever comes behind, unless its keyword goes on there or a
parenthesis comes that could be its own. -/
theorem startsAttribute_append_of_drop {u v : Text}
    (hDrop : ∀ keyword ∈ attributeKeywords, dropPrefix? keyword (u ++ v) = (dropPrefix? keyword u).map (· ++ v))
    (hParenthesis : startsWith ['('] (trimStart v) = false) : startsAttribute (u ++ v) = startsAttribute u := by
  have hBehind (rest : Text) :
      startsWith ['('] (trimStart (rest ++ v)) = startsWith ['('] (trimStart rest) := by
    obtain ⟨blanks, hBlanks, hRest⟩ := exists_eq_append_trimStart rest
    rw [hRest, List.append_assoc, trimStart_append_of_blank _ hBlanks, ← hRest]
    cases hTrim : trimStart rest with
    | nil => exact hParenthesis
    | cons c more =>
      have hc : startsBlank (c :: more) = false := hTrim ▸ startsBlank_trimStart rest
      rw [List.cons_append, trimStart_eq_self (s := c :: (more ++ v)) hc]
      rfl
  rw [startsAttribute_eq, startsAttribute_eq, Bool.eq_iff_iff, List.any_eq_true, List.any_eq_true]
  apply exists_congr
  intro keyword
  apply and_congr_right
  intro hKeyword
  rw [hDrop keyword hKeyword, Option.any_map]
  simp only [hBehind]

theorem startsAttribute_append {v : Text} (hWord : startsWord v = false)
    (hParenthesis : startsWith ['('] (trimStart v) = false) (u : Text) :
    startsAttribute (u ++ v) = startsAttribute u :=
  startsAttribute_append_of_drop
    (fun _ hKeyword => dropPrefix?_append_of_bounds (isWordChar_of_mem_keyword hKeyword).2 hWord u) hParenthesis

theorem startsAttribute_append_of_endsWord {u v : Text} (hNe : u ≠ []) (hEnd : endsWord u = false)
    (hParenthesis : startsWith ['('] (trimStart v) = false) : startsAttribute (u ++ v) = startsAttribute u :=
  startsAttribute_append_of_drop
    (fun _ hKeyword => dropPrefix?_append_of_endsWord (isWordChar_of_mem_keyword hKeyword).2 hNe hEnd v) hParenthesis

theorem withoutAttributesFrom_keyword_append {u : Text} (hu : '(' ∉ u) (s : Text) :
    withoutAttributesFrom .keyword (u ++ s) = withoutAttributesFrom .keyword s := by
  induction u with
  | nil => rfl
  | cons c u ih =>
    obtain ⟨hc, hRest⟩ := List.ne_and_not_mem_of_not_mem_cons hu
    rw [List.cons_append, withoutAttributesFrom, if_neg (Ne.symm hc), ih hRest]

/-- Inside the arguments everything goes up to the parenthesis that closes them, and the whole text if none
does. -/
theorem withoutAttributesFrom_arguments (depth : Nat) (s : Text) :
    withoutAttributesFrom (.arguments depth) s =
      (splitPartner? '(' ')' depth s).elim [] fun parts => withoutAttributesFrom (.outside false) parts.2 := by
  induction s generalizing depth with
  | nil => rfl
  | cons c s ih =>
    rw [withoutAttributesFrom, splitPartner?]
    split
    · rw [ih, Option.elim_map]
      rfl
    · split
      · split
        · rfl
        · rw [ih, Option.elim_map]
          rfl
      · rw [ih, Option.elim_map]
        rfl

theorem withoutAttributesFrom_opening {keyword blanks : Text} (hKeyword : keyword ∈ attributeKeywords)
    (hBlanks : ∀ c ∈ blanks, isBlank c = true) (rest : Text) :
    withoutAttributesFrom (.outside false) (keyword ++ (blanks ++ '(' :: rest)) =
      withoutAttributesFrom (.arguments 0) rest := by
  have hStarts : startsAttribute (keyword ++ (blanks ++ '(' :: rest)) = true :=
    (startsAttribute_iff _).mpr ⟨keyword, hKeyword, blanks, rest, hBlanks, rfl⟩
  have hBehind : withoutAttributesFrom .keyword (blanks ++ '(' :: rest) =
      withoutAttributesFrom (.arguments 0) rest := by
    rw [withoutAttributesFrom_keyword_append (not_mem_of_blank hBlanks (by decide)),
      withoutAttributesFrom, if_pos rfl]
  have hParenthesis : '(' ∉ keyword := by
    intro h
    exact absurd ((isWordChar_of_mem_keyword hKeyword).2 '(' h) (by decide)
  obtain ⟨c, more, rfl⟩ := List.exists_cons_of_ne_nil (isWordChar_of_mem_keyword hKeyword).1
  rw [List.cons_append] at hStarts ⊢
  rw [withoutAttributesFrom, hStarts, Bool.not_false, Bool.true_and, if_pos rfl,
    withoutAttributesFrom_keyword_append (fun h => hParenthesis (List.mem_cons_of_mem c h)), hBehind]

/-- A whole attribute is taken out, and reading goes on as behind a parenthesis. -/
theorem withoutAttributesFrom_attribute {a : Text} (ha : IsAttribute a) (s : Text) :
    withoutAttributesFrom (.outside false) (a ++ s) = withoutAttributesFrom (.outside false) s := by
  obtain ⟨keyword, hKeyword, blanks, arguments, hBlanks, hArguments, rfl⟩ := ha
  have hText : keyword ++ (blanks ++ '(' :: (arguments ++ [')'])) ++ s =
      keyword ++ (blanks ++ '(' :: (arguments ++ ')' :: s)) := by simp
  rw [hText, withoutAttributesFrom_opening hKeyword hBlanks, withoutAttributesFrom_arguments,
    splitPartner?_partner (by decide) hArguments, Option.elim_some]

/-- A text without underscores is kept, and reading goes on as behind a character of no word. -/
theorem withoutAttributesFrom_append_cons {s : Text} (hs : '_' ∉ s) {c : Char} (hc : isWordChar c = false)
    (v : Text) (afterWord : Bool) : withoutAttributesFrom (.outside afterWord) (s ++ c :: v) =
      s ++ c :: withoutAttributesFrom (.outside false) v := by
  induction s generalizing afterWord with
  | nil =>
    have hNe : c ≠ '_' := by
      rintro rfl
      cases hc
    rw [List.nil_append, withoutAttributesFrom, startsAttribute_of_ne hNe, Bool.and_false,
      if_neg Bool.false_ne_true, hc, List.nil_append]
  | cons d s ih =>
    obtain ⟨hd, hRest⟩ := List.ne_and_not_mem_of_not_mem_cons hs
    rw [List.cons_append, withoutAttributesFrom, startsAttribute_of_ne (Ne.symm hd), Bool.and_false,
      if_neg Bool.false_ne_true, ih hRest, List.cons_append]

/-- A text of whole attributes and of characters at which none begins, and these characters.
`afterWord` says whether the text continues a word. -/
inductive Attributed : Bool → Text → Text → Prop
  | nil {afterWord : Bool} : Attributed afterWord [] []
  | char {afterWord : Bool} {c : Char} {s t : Text} :
      (afterWord = false → startsAttribute (c :: s) = false) → Attributed (isWordChar c) s t →
      Attributed afterWord (c :: s) (c :: t)
  | whole {a s t : Text} : IsAttribute a → Attributed false s t → Attributed false (a ++ s) t

namespace Attributed

variable {afterWord : Bool} {s t u v w : Text}

theorem withoutAttributesFrom_eq (h : Attributed afterWord s t) :
    withoutAttributesFrom (.outside afterWord) s = t := by
  induction h with
  | nil => exact withoutAttributesFrom_nil _
  | @char afterWord c s t hStarts _ ih =>
    have hNot : (!afterWord && startsAttribute (c :: s)) = false := by
      cases afterWord with
      | true => rfl
      | false => exact hStarts rfl
    rw [withoutAttributesFrom, hNot, if_neg Bool.false_ne_true, ih]
  | whole ha _ ih => rw [withoutAttributesFrom_attribute ha, ih]

theorem sublist (h : Attributed afterWord s t) : t.Sublist s := by
  induction h with
  | nil => exact .slnil
  | char _ _ ih => exact ih.cons_cons _
  | whole _ _ ih => exact ih.trans (List.sublist_append_right _ _)

theorem of_not_mem (h : '(' ∉ s) (afterWord : Bool) : Attributed afterWord s s := by
  induction s generalizing afterWord with
  | nil => exact nil
  | cons c s ih =>
    refine char ?_ (ih (fun hMem => h (List.mem_cons_of_mem c hMem)) _)
    exact fun _ => Bool.eq_false_iff.mpr fun hStarts => h (mem_of_startsAttribute hStarts)

theorem append (hs : Attributed afterWord s t) (hWord : startsWord v = false)
    (hParenthesis : startsWith ['('] (trimStart v) = false)
    (hv : ∀ afterWord, Attributed afterWord v w) : Attributed afterWord (s ++ v) (t ++ w) := by
  induction hs with
  | nil => exact hv _
  | @char afterWord c s t hStarts _ ih =>
    have hAppend := startsAttribute_append hWord hParenthesis (c :: s)
    exact char (fun hOutside => hAppend.trans (hStarts hOutside)) ih
  | whole ha _ ih =>
    rw [List.append_assoc]
    exact whole ha ih

/-- A text whose words are no keywords has no attribute, and none begins in it that goes on behind
it. -/
theorem append_of_words {before : Text}
    (hs : ∀ keyword ∈ attributeKeywords, keyword ∉ runs isWordChar (before ++ s))
    (hWord : startsWord v = false) (hv : ∀ afterWord, Attributed afterWord v w) :
    Attributed (endsWord before) (s ++ v) (s ++ w) := by
  induction s generalizing before with
  | nil => exact hv _
  | cons c s ih =>
    rw [List.cons_append, List.cons_append]
    refine char ?_ ?_
    · intro hBefore
      rw [Bool.eq_false_iff, Ne, startsAttribute_iff]
      rintro ⟨keyword, hKeyword, blanks, rest, hBlanks, hText⟩
      obtain ⟨hNe, hChars⟩ := isWordChar_of_mem_keyword hKeyword
      have hBehind : startsWord (blanks ++ '(' :: rest) = false := startsWord_append_of_blank hBlanks rfl
      have hDrop := dropPrefix?_append_of_bounds hChars hWord (c :: s)
      rw [List.cons_append] at hDrop
      rw [hText, dropPrefix?_append, eq_comm, Option.map_eq_some_iff] at hDrop
      obtain ⟨more, hMore, hEnd⟩ := hDrop
      have hStops : startsWord more = false := by
        cases more with
        | nil => rfl
        | cons d more => exact (hEnd ▸ hBehind :)
      have hRun := mem_runs_of_bounds hNe hChars hBefore hStops
      rw [← eq_append_of_dropPrefix? hMore] at hRun
      exact hs keyword hKeyword hRun
    · have hNext := @ih (before ++ [c])
      rw [endsWord_concat, List.append_assoc] at hNext
      exact hNext hs

/-- No attribute begins in a text without underscores. -/
theorem behind_of_not_mem (hs : '_' ∉ s) {c : Char} (hc : isWordChar c = false)
    (hv : Attributed false v w) (afterWord : Bool) : Attributed afterWord (s ++ c :: v) (s ++ c :: w) := by
  induction s generalizing afterWord with
  | nil =>
    have hNe : c ≠ '_' := by
      rintro rfl
      cases hc
    exact char (fun _ => startsAttribute_of_ne hNe v) (hc.symm ▸ hv)
  | cons d s ih =>
    obtain ⟨hd, hRest⟩ := List.ne_and_not_mem_of_not_mem_cons hs
    exact char (fun _ => startsAttribute_of_ne (Ne.symm hd) _) (ih hRest _)

/-- If each parenthesis has its partner, the attributes are whole. -/
theorem exists_of_partners
    (h : ∀ u v, s = u ++ '(' :: v → ∃ inner rest, Balanced '(' ')' inner ∧ v = inner ++ ')' :: rest)
    (afterWord : Bool) : ∃ t, Attributed afterWord s t := by
  induction hLength : s.length using Nat.strongRecOn generalizing s afterWord with
  | ind n ih =>
    subst hLength
    have hShorter (front : Text) {back : Text} (hText : s = front ++ back) (hNe : front ≠ [])
        (afterWord : Bool) : ∃ t, Attributed afterWord back t := by
      refine ih back.length ?_ ?_ afterWord rfl
      · have := List.length_pos_iff.mpr hNe
        rw [hText, List.length_append]
        omega
      · rintro u v rfl
        exact h (front ++ u) v (by rw [hText, List.append_assoc])
    cases s with
    | nil => exact ⟨[], nil⟩
    | cons c s =>
      by_cases hStarts : afterWord = false ∧ startsAttribute (c :: s) = true
      · obtain ⟨rfl, hStarts⟩ := hStarts
        obtain ⟨keyword, hKeyword, blanks, rest, hBlanks, hText⟩ := (startsAttribute_iff _).mp hStarts
        obtain ⟨arguments, behind, hArguments, rfl⟩ :=
          h (keyword ++ blanks) rest (by rw [hText, List.append_assoc])
        have hWhole : IsAttribute (keyword ++ (blanks ++ '(' :: (arguments ++ [')']))) :=
          ⟨keyword, hKeyword, blanks, arguments, hBlanks, hArguments, rfl⟩
        have hSplit : c :: s = keyword ++ (blanks ++ '(' :: (arguments ++ [')'])) ++ behind := by
          rw [hText]
          simp
        obtain ⟨t, ht⟩ := hShorter _ hSplit (by simp) false
        exact ⟨t, hSplit ▸ whole hWhole ht⟩
      · obtain ⟨t, ht⟩ := hShorter [c] rfl (by simp) (isWordChar c)
        refine ⟨c :: t, char ?_ ht⟩
        intro hOutside
        rw [Bool.eq_false_iff]
        exact fun hAttribute => hStarts ⟨hOutside, hAttribute⟩

theorem exists_of_balanced (h : Balanced '(' ')' s) (afterWord : Bool) : ∃ t, Attributed afterWord s t :=
  exists_of_partners (h.exists_partner (by decide)) afterWord

end Attributed

end HeaderDigest
