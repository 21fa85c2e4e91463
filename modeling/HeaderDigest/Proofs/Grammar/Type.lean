import HeaderDigest.Proofs.Declarator.Identifier
import HeaderDigest.Proofs.Text.Spacing

/-!
# Types as they are written

A type is written as qualifiers, the words of built-in types or the name of another type, more
qualifiers, and stars. The words have one space between them, and the stars may have one before
them.
-/

namespace HeaderDigest

open Text

theorem not_mem_of_typeChars {s : Text} {c : Char}
    (h : ∀ d ∈ s, isNameChar d = true ∨ d = ' ' ∨ d = '*')
    (hc : ¬(isNameChar c = true ∨ c = ' ' ∨ c = '*')) : c ∉ s :=
  fun hMem => hc (h c hMem)

/-- What is true of the text of a type, and of one with a name behind it. -/
structure IsTypeText (s : Text) : Prop where
  chars : ∀ c ∈ s, isNameChar c = true ∨ c = ' ' ∨ c = '*'
  singleSpaced : SingleSpaced s
  endsBlank : endsBlank s = false
  starts : ∃ c rest, s = c :: rest ∧ isNameStart c = true

namespace IsTypeText

variable {s ending : Text}

theorem ne_nil (h : IsTypeText s) : s ≠ [] := by
  obtain ⟨c, rest, rfl, -⟩ := h.starts
  exact List.cons_ne_nil c rest

theorem trimmed (h : IsTypeText s) : Trimmed s := ⟨startsBlank_of_isNameStart h.starts, h.endsBlank⟩

theorem not_mem (h : IsTypeText s) {c : Char} (hc : ¬(isNameChar c = true ∨ c = ' ' ∨ c = '*')) : c ∉ s :=
  not_mem_of_typeChars h.chars hc

theorem of_joinWords {ws : List Text} (hNe : ws ≠ []) (hWords : ∀ w ∈ ws, isIdentifier w = true) :
    IsTypeText (joinWords ws) := by
  obtain ⟨hSpaced, hTrimmed, -⟩ := singleSpaced_joinWords fun w hw => isWord_of_isIdentifier (hWords w hw)
  refine ⟨?_, hSpaced, hTrimmed.2, exists_joinWords_eq_cons hNe hWords⟩
  intro c hc
  obtain h | ⟨word, hWord, hc⟩ := mem_joinWords hc
  · exact Or.inr (Or.inl h)
  · exact Or.inl (isNameChar_of_mem (hWords word hWord) c hc)

/-- Stars and names may come behind such a text, with a space before them or without one. -/
theorem append (h : IsTypeText s) (hNe : ending ≠ [])
    (hEnding : ∀ c ∈ ending, isNameChar c = true ∨ c = '*') :
    IsTypeText (s ++ ending) ∧ IsTypeText (s ++ ' ' :: ending) := by
  have hBlank : ∀ c ∈ ending, isBlank c = false := by
    intro c hc
    obtain h | rfl := hEnding c hc
    · exact isBlank_of_isNameChar h
    · decide
  have hWord : Trimmed ending := IsWord.trimmed ⟨hNe, hBlank⟩
  have hChars : ∀ c ∈ ending, isNameChar c = true ∨ c = ' ' ∨ c = '*' :=
    fun c hc => (hEnding c hc).imp_right Or.inr
  obtain ⟨c, rest, hText, hStart⟩ := h.starts
  constructor
  · refine ⟨List.forall_mem_append.mpr ⟨h.chars, hChars⟩, ?_, ?_,
      c, rest ++ ending, by rw [hText]; rfl, hStart⟩
    · exact h.singleSpaced.append (SingleSpaced.of_forall hBlank) (Or.inl h.endsBlank)
    · rw [endsBlank_append _ hNe]
      exact hWord.2
  · refine ⟨?_, ?_, ?_, c, rest ++ ' ' :: ending, by rw [hText]; rfl, hStart⟩
    · exact List.forall_mem_append.mpr ⟨h.chars, List.forall_mem_cons.mpr ⟨Or.inr (Or.inl rfl), hChars⟩⟩
    · exact h.singleSpaced.append_space (SingleSpaced.of_forall hBlank) h.endsBlank hWord.1
    · rw [← List.singleton_append, ← List.append_assoc, endsBlank_append _ hNe]
      exact hWord.2

end IsTypeText

/-- Whether words name a type: words of built-in types, or another identifier alone. -/
def isTypeName (base : List Text) : Bool :=
  (!base.isEmpty && base.all builtinTypeWords.contains) ||
    match base with
    | [word] => isIdentifier word && !isTypeWord word
    | _ => false

structure WrittenType where
  before : List Text
  base : List Text
  after : List Text
  /-- Whether a space stands before the stars. -/
  gap : Bool
  stars : Nat
  qualifiers_before : ∀ word ∈ before, isQualifier word = true
  base_names : isTypeName base = true
  qualifiers_after : ∀ word ∈ after, isQualifier word = true

def starsText (gap : Bool) (stars : Nat) : Text :=
  if stars = 0 then [] else (if gap then [' '] else []) ++ List.replicate stars '*'

theorem mem_starsText {gap : Bool} {stars : Nat} {c : Char} (h : c ∈ starsText gap stars) :
    c = ' ' ∨ c = '*' := by
  unfold starsText at h
  split at h
  · cases h
  · cases gap <;> simp_all

/-- Neither blanks nor stars behind words count among them. -/
theorem runs_joinWords_append {ws : List Text} (hWords : ∀ w ∈ ws, isIdentifier w = true) {tail : Text}
    (hTail : ∀ c ∈ tail, c = ' ' ∨ c = '*') :
    runs (fun c => !isBlank c && c != '*') (joinWords ws ++ tail) = ws := by
  rw [runs_append_right_of_neg]
  · apply runs_joinWords (by decide)
    intro word hWord
    have hIdentifier := hWords word hWord
    obtain ⟨hNe, hBlank⟩ := isWord_of_isIdentifier hIdentifier
    refine ⟨hNe, ?_⟩
    intro c hc
    have hStar : c ≠ '*' := by
      rintro rfl
      exact absurd (isNameChar_of_mem hIdentifier _ hc) (by decide)
    simp [hBlank c hc, hStar]
  · intro c hc
    rcases hTail c hc with rfl | rfl <;> decide

namespace WrittenType

def words (type : WrittenType) : List Text := type.before ++ type.base ++ type.after

def text (type : WrittenType) : Text := joinWords type.words ++ starsText type.gap type.stars

variable (type : WrittenType)

/-- Behind the first word that is no qualifier only words stand that name no parameter. -/
theorem exists_words_eq : ∃ word rest, type.words = type.before ++ word :: rest ∧
    isIdentifier word = true ∧ isQualifier word = false ∧ ∀ w ∈ rest, isTypeWord w = true := by
  have hAfter : ∀ w ∈ type.after, isTypeWord w = true := by
    intro w hw
    rw [isTypeWord, type.qualifiers_after w hw, Bool.or_true]
  have hNames := type.base_names
  unfold isTypeName at hNames
  obtain hNames | hNames := Bool.or_eq_true_iff.mp hNames
  · rw [Bool.and_eq_true, Bool.not_eq_true', List.isEmpty_eq_false_iff, List.all_eq_true] at hNames
    obtain ⟨word, more, hBase⟩ := List.exists_cons_of_ne_nil hNames.1
    have hBuiltin : ∀ w ∈ word :: more, builtinTypeWords.contains w = true := hBase ▸ hNames.2
    obtain ⟨hIdentifier, hQualifier⟩ := isIdentifier_of_builtin (hBuiltin word List.mem_cons_self)
    refine ⟨word, more ++ type.after, by rw [words, hBase]; simp, hIdentifier, hQualifier, ?_⟩
    refine List.forall_mem_append.mpr ⟨fun w hw => ?_, hAfter⟩
    rw [isTypeWord, hBuiltin w (List.mem_cons_of_mem word hw), Bool.true_or]
  · split at hNames
    · rename_i word hBase
      simp only [Bool.and_eq_true, Bool.not_eq_true', isTypeWord, Bool.or_eq_false_iff] at hNames
      exact ⟨word, type.after, by rw [words, hBase]; simp, hNames.1, hNames.2.2, hAfter⟩
    · cases hNames

theorem words_ne_nil : type.words ≠ [] := by
  obtain ⟨word, rest, hWords, -⟩ := type.exists_words_eq
  simp [hWords]

theorem isIdentifier_of_mem {word : Text} (h : word ∈ type.words) : isIdentifier word = true := by
  obtain ⟨first, rest, hWords, hFirst, -, hRest⟩ := type.exists_words_eq
  rw [hWords, List.mem_append, List.mem_cons] at h
  rcases h with h | rfl | h
  · exact isIdentifier_of_isQualifier (type.qualifiers_before word h)
  · exact hFirst
  · obtain h | h := Bool.or_eq_true_iff.mp (hRest word h)
    · exact (isIdentifier_of_builtin h).1
    · exact isIdentifier_of_isQualifier h

theorem any_not_isQualifier : type.words.any (fun word => !isQualifier word) = true := by
  obtain ⟨word, rest, hWords, -, hQualifier, -⟩ := type.exists_words_eq
  rw [List.any_eq_true]
  exact ⟨word, by simp [hWords], by rw [hQualifier]; rfl⟩

theorem isTypeText : IsTypeText type.text := by
  have hWords := IsTypeText.of_joinWords type.words_ne_nil fun _ => type.isIdentifier_of_mem
  unfold text starsText
  split
  · rwa [List.append_nil]
  · rename_i hStars
    have hNe : List.replicate type.stars '*' ≠ [] := by simpa using hStars
    have hAppend := hWords.append hNe fun c hc => Or.inr (List.eq_of_mem_replicate hc)
    cases type.gap with
    | false => exact hAppend.1
    | true => exact hAppend.2

theorem runs_text (tail : Text) (h : ∀ c ∈ tail, c = ' ' ∨ c = '*') :
    runs (fun c => !isBlank c && c != '*') (type.text ++ tail) = type.words := by
  rw [text, List.append_assoc]
  apply runs_joinWords_append fun _ => type.isIdentifier_of_mem
  exact List.forall_mem_append.mpr ⟨fun c hc => mem_starsText hc, h⟩

end WrittenType

/-- Whether words name a type and a declaration may begin with them. -/
def isTypeBase (base : List Text) : Bool :=
  (!base.isEmpty && base.all builtinTypeWords.contains) ||
    match base with
    | [word] => isIdentifier word && !isTypeWord word && word != "typedef".toList
    | _ => false

structure CType where
  before : List Text
  base : List Text
  after : List Text
  /-- Whether a space stands before the stars. -/
  gap : Bool
  stars : Nat
  qualifiers_before : ∀ word ∈ before, isQualifier word = true
  base_names : isTypeBase base = true
  qualifiers_after : ∀ word ∈ after, isQualifier word = true

def CType.words (type : CType) : List Text := type.before ++ type.base ++ type.after

def CType.text (type : CType) : Text := joinWords type.words ++ starsText type.gap type.stars

theorem isTypeBase_eq (base : List Text) :
    isTypeBase base = (isTypeName base && base != ["typedef".toList]) := by
  match base with
  | [] => rfl
  | [word] =>
    by_cases h : word = "typedef".toList
    · rw [h]
      decide
    · have hNe : (word != "typedef".toList) = true := bne_iff_ne.mpr h
      have hBase : ([word] != ["typedef".toList]) = true := bne_iff_ne.mpr fun hEq => h (List.cons.inj hEq).1
      rw [isTypeBase, isTypeName, hBase, Bool.and_true, hNe, Bool.and_true]
  | first :: second :: rest =>
    have hBase : ((first :: second :: rest) != ["typedef".toList]) = true :=
      bne_iff_ne.mpr fun hEq => List.cons_ne_nil _ _ (List.cons.inj hEq).2
    rw [hBase, Bool.and_true]
    rfl

namespace CType

variable (type : CType)

def written : WrittenType :=
  { type with
    base_names := by
      have h := type.base_names
      rw [isTypeBase_eq, Bool.and_eq_true] at h
      exact h.1 }

theorem isTypeText : IsTypeText type.text := type.written.isTypeText

theorem ne_typedef {word : Text} (h : word ∈ type.words) : word ≠ "typedef".toList := by
  have hNot : isTypeWord "typedef".toList = false := by decide
  have hOther (hWord : isTypeWord word = true) : word ≠ "typedef".toList := by
    rintro rfl
    exact Bool.false_ne_true (hNot.symm.trans hWord)
  have hQualifier (hWord : isQualifier word = true) : word ≠ "typedef".toList :=
    hOther (by rw [isTypeWord, hWord, Bool.or_true])
  rw [words, List.mem_append, List.mem_append] at h
  rcases h with (h | h) | h
  · exact hQualifier (type.qualifiers_before word h)
  · have hBase := type.base_names
    unfold isTypeBase at hBase
    obtain hBase | hBase := Bool.or_eq_true_iff.mp hBase
    · have hBuiltin := List.all_eq_true.mp (Bool.and_eq_true_iff.mp hBase).2 word h
      exact hOther (by rw [isTypeWord, hBuiltin, Bool.true_or])
    · split at hBase
      · rename_i name hName
        rw [hName, List.mem_singleton] at h
        rw [h]
        exact bne_iff_ne.mp (Bool.and_eq_true_iff.mp hBase).2
      · cases hBase
  · exact hQualifier (type.qualifiers_after word h)

/-- A type does not begin with the word `typedef`, whatever comes behind the type. -/
theorem takeWhile_text_ne (rest : Text) :
    (type.text ++ ' ' :: rest).takeWhile isWordChar ≠ "typedef".toList := by
  obtain ⟨word, more, hWords⟩ : ∃ word more, type.words = word :: more :=
    List.exists_cons_of_ne_nil type.written.words_ne_nil
  have hMem : word ∈ type.words := hWords ▸ List.mem_cons_self
  have hIdentifier : isIdentifier word = true := type.written.isIdentifier_of_mem hMem
  have hSplit : ∃ c tail, isWordChar c = false ∧ type.text ++ ' ' :: rest = word ++ c :: tail := by
    rw [text, hWords]
    cases more with
    | cons v more =>
      refine ⟨' ', joinWords (v :: more) ++ starsText type.gap type.stars ++ ' ' :: rest, by decide, ?_⟩
      rw [joinWords_cons_cons]
      simp
    | nil =>
      rw [joinWords_singleton]
      cases hStars : starsText type.gap type.stars with
      | nil => exact ⟨' ', rest, by decide, by simp⟩
      | cons c stars =>
        refine ⟨c, stars ++ ' ' :: rest, ?_, by simp⟩
        rcases mem_starsText (hStars ▸ List.mem_cons_self) with rfl | rfl <;> decide
  obtain ⟨c, tail, hc, hText⟩ := hSplit
  have hTake : word.takeWhile isWordChar = word :=
    List.takeWhile_eq_self_iff.mpr fun d hd => isWordChar_of_isNameChar (isNameChar_of_mem hIdentifier d hd)
  rw [hText, takeWhile_append_cons_of_neg hc, hTake]
  exact type.ne_typedef hMem

end CType

end HeaderDigest
