import HeaderDigest.Proofs.Grammar.Parameter

/-!
# Parameters without a name

A parameter may be a type and nothing else. No word of it is taken for a name: before the first word
that is no qualifier a name cannot stand, that word begins the type, and behind it come only words
of built-in types, qualifiers and stars.
-/

namespace HeaderDigest

open Text

/-- Whether a word, its stars aside, can be the name of a parameter. -/
def canName (word : Text) : Bool :=
  isIdentifier (word.dropWhile (· == '*')) && !isTypeWord (word.dropWhile (· == '*'))

theorem dropWhile_star_append {word : Text} (h : isIdentifier word = true) (s : Text) :
    (word ++ s).dropWhile (· == '*') = word ++ s := by
  obtain ⟨c, rest, rfl, hStart, -⟩ := exists_eq_cons_of_isIdentifier h
  have hStar : ¬(c == '*') = true := by
    rw [beq_iff_eq]
    rintro rfl
    cases hStart
  exact List.dropWhile_cons_of_neg hStar

theorem canName_of_isTypeWord {word : Text} (hIdentifier : isIdentifier word = true)
    (h : isTypeWord word = true) : canName word = false := by
  have hBare := dropWhile_star_append hIdentifier []
  rw [List.append_nil] at hBare
  rw [canName, hBare, h, Bool.not_true, Bool.and_false]

theorem canName_append_star {word : Text} (h : isIdentifier word = true) (s : Text) :
    canName (word ++ '*' :: s) = false := by
  have hNot : isIdentifier (word ++ '*' :: s) = false := by
    rw [Bool.eq_false_iff]
    intro hAll
    exact absurd (isNameChar_of_mem hAll '*' (by simp)) (by decide)
  rw [canName, dropWhile_star_append h, hNot, Bool.false_and]

theorem canName_replicate (n : Nat) : canName (List.replicate n '*') = false := by
  have hBare : (List.replicate n '*').dropWhile (· == '*') = [] := by simp
  rw [canName, hBare]
  rfl

namespace Declarator

theorem splitName?_eq_none {words : List Text} (h : ∀ word ∈ words, canName word = false)
    (seenBase : Bool) : splitName? seenBase words = none := by
  induction words generalizing seenBase with
  | nil => rfl
  | cons word rest ih =>
    obtain ⟨hWord, hRest⟩ := List.forall_mem_cons.mp h
    rw [canName] at hWord
    simp only [splitName?, ih hRest, Option.map_none, hWord, Bool.false_eq_true, if_false, ite_self]

/-- The first word that is no qualifier is the beginning of the type. -/
theorem splitName?_qualifiers {before rest : List Text} (hBefore : ∀ word ∈ before, isQualifier word = true)
    (word : Text) (hRest : ∀ word ∈ rest, canName word = false) :
    splitName? false (before ++ word :: rest) = none := by
  induction before with
  | nil =>
    simp only [List.nil_append, splitName?, splitName?_eq_none hRest, Option.map_none, Bool.not_false,
      if_true, ite_self]
  | cons qualifier before ih =>
    obtain ⟨hQualifier, hMore⟩ := List.forall_mem_cons.mp hBefore
    simp only [List.cons_append, splitName?, hQualifier, Bool.true_or, if_true, ih hMore, Option.map_none]

theorem ofLastWord?_eq_none {type name : Text} (hName : isIdentifier name = true)
    (h : isTypeWord name = true ∨
      (runs (fun d => !isBlank d && d != '*') (type ++ [' '])).any (!isQualifier ·) = false) :
    ofLastWord? (type ++ ' ' :: name) = none := by
  have hSplit : splitEnding isWordChar (type ++ ' ' :: name) = (type ++ [' '], name) :=
    splitEnding_append_cons type (by decide) fun d hd => isWordChar_of_isNameChar (isNameChar_of_mem hName d hd)
  unfold ofLastWord?
  simp only [hSplit, List.reverse_append, List.reverse_singleton, List.singleton_append]
  apply if_neg
  obtain h | h := h
  · simp [h]
  · simp [h]

end Declarator

namespace WrittenType

variable (type : WrittenType)

theorem words_append_starsText {word : Text} (h : isIdentifier word = true) (gap : Bool) (stars : Nat) :
    ∃ first more, Text.words (word ++ starsText gap stars) = first :: more ∧
      (first = word ∨ canName first = false) ∧ ∀ w ∈ more, canName w = false := by
  have hWord := isWord_of_isIdentifier h
  have hSingle {w : Text} (hw : IsWord w) : Text.words w = [w] :=
    runs_of_forall hw.1 fun c hc => by rw [hw.2 c hc]; rfl
  cases stars with
  | zero =>
    refine ⟨word, [], ?_, Or.inl rfl, by simp⟩
    rw [starsText, if_pos rfl, List.append_nil, hSingle hWord]
  | succ n =>
    have hStars : ∀ c ∈ List.replicate (n + 1) '*', isBlank c = false := by
      intro c hc
      rw [List.eq_of_mem_replicate hc]
      rfl
    rw [starsText, if_neg (Nat.succ_ne_zero n)]
    cases gap with
    | true =>
      refine ⟨word, [List.replicate (n + 1) '*'], ?_, Or.inl rfl, ?_⟩
      · rw [if_pos rfl, List.singleton_append, Text.words, runs_append_cons_of_neg (by decide)]
        exact congrArg₂ (· ++ ·) (hSingle hWord) (hSingle ⟨by simp, hStars⟩)
      · simp [canName_replicate]
    | false =>
      refine ⟨word ++ List.replicate (n + 1) '*', [], ?_, Or.inr ?_, by simp⟩
      · rw [if_neg Bool.false_ne_true, List.nil_append]
        refine hSingle ⟨by simp, List.forall_mem_append.mpr ⟨hWord.2, hStars⟩⟩
      · exact canName_append_star h _

theorem words_joinWords_concat {init : List Text} (hInit : ∀ w ∈ init, IsWord w) (last s : Text) :
    Text.words (joinWords (init ++ [last]) ++ s) = init ++ Text.words (last ++ s) := by
  by_cases hNe : init = []
  · rw [hNe, List.nil_append, List.nil_append, joinWords_singleton]
  · rw [joinWords_concat hNe, List.append_assoc, List.cons_append, Text.words,
      runs_append_cons_of_neg (by decide)]
    exact congrArg (· ++ _) (words_joinWords hInit)

theorem exists_words_text : ∃ word rest, Text.words type.text = type.before ++ word :: rest ∧
    ∀ w ∈ rest, canName w = false := by
  obtain ⟨word, rest, hWords, hWord, -, hRest⟩ := type.exists_words_eq
  have hIdentifiers : ∀ w ∈ type.before ++ word :: rest, isIdentifier w = true :=
    fun w hw => type.isIdentifier_of_mem (hWords ▸ hw)
  rw [text, hWords]
  -- The stars go with the last word or stand behind it.
  rcases List.eq_nil_or_concat rest with rfl | ⟨more, last, rfl⟩
  · obtain ⟨first, tail, hText, -, hTail⟩ := words_append_starsText hWord type.gap type.stars
    refine ⟨first, tail, ?_, hTail⟩
    rw [words_joinWords_concat (fun w hw => isWord_of_isIdentifier (hIdentifiers w (by simp [hw]))), hText]
  · rw [List.concat_eq_append] at hIdentifiers hRest ⊢
    have hLast : isIdentifier last = true := hIdentifiers last (by simp)
    have hTypeWord : isTypeWord last = true := hRest last (by simp)
    obtain ⟨first, tail, hText, hFirst, hTail⟩ := words_append_starsText hLast type.gap type.stars
    have hInit : ∀ w ∈ type.before ++ word :: more, IsWord w := by
      intro w hw
      apply isWord_of_isIdentifier
      apply hIdentifiers
      rw [← List.cons_append, ← List.append_assoc]
      exact List.mem_append_left [last] hw
    refine ⟨word, more ++ first :: tail, ?_, ?_⟩
    · rw [← List.cons_append, ← List.append_assoc, words_joinWords_concat hInit, hText]
      simp
    · refine List.forall_mem_append.mpr ⟨?_, List.forall_mem_cons.mpr ⟨?_, hTail⟩⟩
      · intro w hw
        exact canName_of_isTypeWord (hIdentifiers w (by simp [hw])) (hRest w (by simp [hw]))
      · obtain rfl | hFirst := hFirst
        · exact canName_of_isTypeWord hLast hTypeWord
        · exact hFirst

theorem ofLastWord?_text : Declarator.ofLastWord? type.text = none := by
  obtain ⟨word, rest, hWords, hWord, -, hRest⟩ := type.exists_words_eq
  have hIdentifiers : ∀ w ∈ type.before ++ word :: rest, isIdentifier w = true :=
    fun w hw => type.isIdentifier_of_mem (hWords ▸ hw)
  cases hStars : type.stars with
  | succ n =>
    obtain ⟨front, hFront⟩ : ∃ front, type.text = front ++ ['*'] := by
      refine ⟨joinWords type.words ++ ((if type.gap then [' '] else []) ++ List.replicate n '*'), ?_⟩
      rw [text, hStars, starsText, if_neg (Nat.succ_ne_zero n), List.replicate_succ']
      simp
    have hSplit : splitEnding isWordChar (front ++ ['*']) = (front ++ ['*'], []) :=
      splitEnding_append_cons front (by decide) (by simp)
    rw [hFront, Declarator.ofLastWord?, hSplit]
    simp [isWordName]
  | zero =>
    have hText : type.text = joinWords (type.before ++ word :: rest) := by
      rw [text, hStars, hWords]
      exact List.append_nil _
    rw [hText]
    rcases List.eq_nil_or_concat rest with rfl | ⟨more, last, rfl⟩
    · by_cases hBefore : type.before = []
      · have hSplit : splitEnding isWordChar ([] ++ word) = ([], word) :=
          splitEnding_append (fun c hc => isWordChar_of_isNameChar (isNameChar_of_mem hWord c hc)) (by simp)
        rw [hBefore, List.nil_append, joinWords_singleton, Declarator.ofLastWord?]
        rw [List.nil_append] at hSplit
        rw [hSplit]
        rfl
      · rw [joinWords_concat hBefore]
        refine Declarator.ofLastWord?_eq_none hWord (Or.inr ?_)
        have hQualifiers : ∀ w ∈ type.before, isIdentifier w = true := fun w hw => hIdentifiers w (by simp [hw])
        rw [runs_joinWords_append hQualifiers (by simp), List.any_eq_false]
        exact fun w hw => by simp [type.qualifiers_before w hw]
    · rw [List.concat_eq_append] at hIdentifiers hRest ⊢
      rw [← List.cons_append, ← List.append_assoc, joinWords_concat (by simp)]
      exact Declarator.ofLastWord?_eq_none (hIdentifiers last (by simp)) (Or.inl (hRest last (by simp)))

end WrittenType

/-- A type alone is read as a type without a name. -/
theorem Declarator.read_type (type : WrittenType) : Declarator.read type.text = ⟨type.text, []⟩ := by
  obtain ⟨word, rest, hWords, hRest⟩ := type.exists_words_text
  have hNone : splitName? false (Text.words type.text) = none := by
    rw [hWords]
    exact splitName?_qualifiers type.qualifiers_before word hRest
  rw [type.isTypeText.read, type.ofLastWord?_text, Option.getD_none, ofWords, hNone]

end HeaderDigest
