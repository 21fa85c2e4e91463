import HeaderDigest.Proofs.Declarator.FunctionPointer
import HeaderDigest.Proofs.Declarator.Sizes

/-!
# Type and name make up the declarator

Reading a declarator on one line loses nothing. A function pointer is cut behind its arguments; any other
declarator is told apart into a type and a name that together have all its characters but blanks, in the
same order and each once, the sizes at its end excepted.
-/

namespace HeaderDigest

open Text

namespace Text

theorem filter_joinWords (ws : List Text) :
    (joinWords ws).filter (!isBlank ·) = ws.flatten.filter (!isBlank ·) := by
  induction ws with
  | nil => rfl
  | cons w ws ih =>
    cases ws with
    | nil => rw [joinWords_singleton, List.flatten_singleton]
    | cons v ws =>
      rw [joinWords_cons_cons, List.filter_append, List.filter_cons_of_neg (by decide), ih,
        ← List.filter_append, ← List.flatten_cons]

theorem filter_flatten_words (s : Text) :
    (words s).flatten.filter (!isBlank ·) = s.filter (!isBlank ·) := by
  rw [words, flatten_runs, List.filter_filter]
  simp only [Bool.and_self]

theorem mem_of_mem_words {s w : Text} (hw : w ∈ words s) {c : Char} (hc : c ∈ w) : c ∈ s := by
  have hMem : c ∈ (words s).flatten := List.mem_flatten_of_mem hw hc
  rw [words, flatten_runs] at hMem
  exact (List.mem_filter.mp hMem).1

end Text

namespace Declarator

/-- The name begins at a word that, its stars aside, is an identifier and no word of a built-in type. -/
theorem exists_of_splitName? {ws type name : List Text} {seenBase : Bool}
    (h : splitName? seenBase ws = some (type, name)) : ∃ before word rest, ws = before ++ word :: rest ∧
      type = before ++ (if (word.takeWhile (· == '*')).isEmpty then [] else [word.takeWhile (· == '*')]) ∧
      name = word.dropWhile (· == '*') :: rest ∧ isIdentifier (word.dropWhile (· == '*')) = true ∧
      isTypeWord (word.dropWhile (· == '*')) = false := by
  induction ws generalizing seenBase type name with
  | nil => cases h
  | cons first ws ih =>
    have hNext {seen : Bool} {f : List Text × List Text → List Text × List Text}
        (hf : ∀ parts, f parts = (first :: parts.1, parts.2))
        (h : (splitName? seen ws).map f = some (type, name)) :
        ∃ before word rest, first :: ws = before ++ word :: rest ∧
          type = before ++ (if (word.takeWhile (· == '*')).isEmpty then [] else [word.takeWhile (· == '*')]) ∧
          name = word.dropWhile (· == '*') :: rest ∧ isIdentifier (word.dropWhile (· == '*')) = true ∧
          isTypeWord (word.dropWhile (· == '*')) = false := by
      obtain ⟨parts, hRest, hParts⟩ := Option.map_eq_some_iff.mp h
      obtain ⟨rfl, rfl⟩ := Prod.mk.inj ((hf parts).symm.trans hParts)
      obtain ⟨before, word, rest, rfl, hType, hName⟩ := ih hRest
      exact ⟨first :: before, word, rest, rfl, congrArg (first :: ·) hType, hName⟩
    rw [splitName?] at h
    split at h
    · exact hNext (fun _ => rfl) h
    split at h
    · exact hNext (fun _ => rfl) h
    split at h
    · rename_i hWord
      obtain ⟨rfl, rfl⟩ := Prod.mk.inj (Option.some.inj h)
      obtain ⟨hIdentifier, hTypeWord⟩ := Bool.and_eq_true_iff.mp hWord
      exact ⟨[], first, ws, rfl, rfl, rfl, hIdentifier, by simpa using hTypeWord⟩
    · exact hNext (fun _ => rfl) h

theorem flatten_splitName? {ws type name : List Text} {seenBase : Bool}
    (h : splitName? seenBase ws = some (type, name)) : type.flatten ++ name.flatten = ws.flatten := by
  obtain ⟨before, word, rest, rfl, rfl, rfl, -⟩ := exists_of_splitName? h
  have hWord := List.takeWhile_append_dropWhile (p := (· == '*')) (l := word)
  have hStars : (if (word.takeWhile (· == '*')).isEmpty then [] else [word.takeWhile (· == '*')]).flatten =
      word.takeWhile (· == '*') := by
    split
    · rename_i hNone
      rw [List.isEmpty_iff.mp hNone]
      rfl
    · simp
  rw [List.flatten_append, hStars, List.flatten_append, List.flatten_cons, List.flatten_cons]
  conv => rhs; rw [← hWord]
  simp only [List.append_assoc]

variable (s : Text)

theorem filter_ofWords :
    ((ofWords s).type ++ (ofWords s).name).filter (!isBlank ·) = s.filter (!isBlank ·) := by
  unfold ofWords
  split
  · rename_i type name hSplit
    rw [List.filter_append, filter_joinWords, filter_joinWords, ← List.filter_append, flatten_splitName? hSplit,
      filter_flatten_words]
  · rw [List.append_nil]

theorem filter_ofAngled :
    ((ofAngled s).type ++ (ofAngled s).name).filter (!isBlank ·) = s.filter (!isBlank ·) := by
  unfold ofAngled
  split
  · rename_i last type hWords
    split
    · have hText : type.reverse.flatten ++ last = (words s).flatten := by
        rw [← List.reverse_reverse (words s), hWords, List.reverse_cons, List.flatten_concat]
      rw [List.filter_append, filter_joinWords, ← List.filter_append, hText, filter_flatten_words]
    · rw [List.append_nil]
  · rw [List.append_nil]

theorem isIdentifier_name_ofAngled : (ofAngled s).name = [] ∨ isIdentifier (ofAngled s).name = true := by
  unfold ofAngled
  split
  · split
    · rename_i hGuard
      exact Or.inr (Bool.and_eq_true_iff.mp hGuard).2
    · exact Or.inl rfl
  · exact Or.inl rfl

variable {s}

theorem filter_ofLastWord? {declarator : Declarator} (h : ofLastWord? s = some declarator) :
    (declarator.type ++ declarator.name).filter (!isBlank ·) = s.filter (!isBlank ·) := by
  have hText := fst_append_snd_splitEnding isWordChar s
  unfold ofLastWord? at h
  simp only at h
  split at h
  · cases h
  · split at h
    · cases h
      rw [List.filter_append, filter_trim, ← List.filter_append, hText]
    · cases h

theorem exists_ofPlain (hLine : '\n' ∉ s) : ∃ base sizes, EndsInSizes s base sizes ∧
    ((ofPlain s).type ++ (ofPlain s).name).filter (!isBlank ·) = base.filter (!isBlank ·) := by
  obtain ⟨base, sizes, hEnds, hBase⟩ := exists_endsInSizes hLine
  refine ⟨base, sizes, hEnds, ?_⟩
  rw [← filter_trim base, ← hBase]
  unfold ofPlain
  cases hLast : ofLastWord? (trim ((beforeSizes? s).getD s)) with
  | some declarator => simp only [hLast, Option.getD_some, filter_ofLastWord? hLast]
  | none => simp only [hLast, Option.getD_none, filter_ofWords]

theorem read_of_not_functionPointer
    (h : ¬∃ front opening arguments after, IsFunctionPointer s front opening arguments after) :
    read s = if '<' ∈ s ∧ '>' ∈ s then ofAngled (trim s) else ofPlain (trim s) := by
  have hNone : ofFunctionPointer? (trim s) = none := by
    rw [Option.eq_none_iff_forall_ne_some]
    intro declarator hSome
    obtain ⟨front, opening, arguments, after, hPointer, -⟩ := isFunctionPointer_of_eq_some hSome
    obtain ⟨front', after', hPointer'⟩ := hPointer.of_trim
    exact h ⟨front', opening, arguments, after', hPointer'⟩
  have hAngles : ((trim s).contains '<' && (trim s).contains '>') = true ↔ '<' ∈ s ∧ '>' ∈ s := by
    rw [contains_trim rfl, contains_trim rfl, Bool.and_eq_true, List.contains_iff_mem, List.contains_iff_mem]
  unfold read
  simp only [hNone, hAngles]
  split
  · rename_i hEmpty
    have hNil : trim s = [] := List.isEmpty_iff.mp hEmpty
    have hIf : ¬('<' ∈ s ∧ '>' ∈ s) := by
      rw [← hAngles, hNil]
      decide
    rw [if_neg hIf, hNil]
    rfl
  · rfl

/-- A function pointer is cut behind the parenthesis that closes its arguments. Of any other declarator
nothing is lost but blanks and the sizes at its end, and these only if no angle brackets stand in it. -/
theorem read_lossless (hLine : '\n' ∉ s) :
    (∀ front opening arguments after, IsFunctionPointer s front opening arguments after →
      read s = ⟨trim (front ++ opening ++ arguments ++ [')']),
        if isIdentifier (trim after) then trim after else []⟩) ∧
    ((¬∃ front opening arguments after, IsFunctionPointer s front opening arguments after) →
      ∃ base sizes, EndsInSizes s base sizes ∧ ((read s).type ++ (read s).name).filter (!isBlank ·) =
        (if '<' ∈ s ∧ '>' ∈ s then s else base).filter (!isBlank ·)) := by
  refine ⟨fun front opening arguments after h => read_functionPointer h (h.not_mem_front hLine), fun hNot => ?_⟩
  have hTrimLine : '\n' ∉ trim s := fun hFeed => hLine (mem_of_mem_trim hFeed)
  obtain ⟨base', sizes', hEnds', hPlain⟩ := exists_ofPlain hTrimLine
  obtain ⟨base, sizes, hEnds, hBase⟩ := hEnds'.exists_of_trim
  refine ⟨base, sizes, hEnds, ?_⟩
  rw [read_of_not_functionPointer hNot]
  split
  · rw [filter_ofAngled, filter_trim]
  · rw [hBase, hPlain]

/-- The arguments of a function pointer may hold another one, and the sizes of an array an opening bracket. -/
theorem read_lossless_nested :
    ('\n' ∉ "void (*map)(int (*f)(int), long *) visit".toList ∧
      ∃ front opening arguments after,
        IsFunctionPointer "void (*map)(int (*f)(int), long *) visit".toList front opening arguments after ∧
        read "void (*map)(int (*f)(int), long *) visit".toList =
          ⟨trim (front ++ opening ++ arguments ++ [')']), if isIdentifier (trim after) then trim after else []⟩) ∧
    '\n' ∉ "long *rows [4] [a[0] ".toList ∧
      (¬∃ front opening arguments after,
        IsFunctionPointer "long *rows [4] [a[0] ".toList front opening arguments after) ∧
      ∃ base sizes, EndsInSizes "long *rows [4] [a[0] ".toList base sizes ∧
        "long*rows".toList = base.filter (!isBlank ·) := by
  have hLine : '\n' ∉ "void (*map)(int (*f)(int), long *) visit".toList := by decide
  have hLine' : '\n' ∉ "long *rows [4] [a[0] ".toList := by decide
  have hRead : ofFunctionPointer? "void (*map)(int (*f)(int), long *) visit".toList =
      some ⟨"void (*map)(int (*f)(int), long *)".toList, "visit".toList⟩ := by decide
  obtain ⟨front, opening, arguments, after, hPointer, -⟩ := isFunctionPointer_of_eq_some hRead
  have hNot : ¬∃ front opening arguments after,
      IsFunctionPointer "long *rows [4] [a[0] ".toList front opening arguments after := by
    rintro ⟨front, opening, arguments, after, h⟩
    have hNone : ofFunctionPointer? "long *rows [4] [a[0] ".toList = none := by decide
    rw [h.ofFunctionPointer? (h.not_mem_front hLine')] at hNone
    cases hNone
  obtain ⟨base, sizes, hEnds, hText⟩ := (read_lossless hLine').2 hNot
  refine ⟨⟨hLine, front, opening, arguments, after, hPointer, ?_⟩, hLine', hNot, base, sizes, hEnds, ?_⟩
  · exact (read_lossless hLine).1 front opening arguments after hPointer
  · rw [if_neg (by decide)] at hText
    exact Eq.trans (by decide) hText

variable {c : Char}

theorem mem_of_mem_ofWords (h : c ∈ (ofWords s).type ++ (ofWords s).name) : c = ' ' ∨ c ∈ s := by
  unfold ofWords at h
  split at h
  · rename_i type name hSplit
    have hText : c ∈ type.flatten ++ name.flatten → c ∈ s := by
      rw [flatten_splitName? hSplit]
      intro hMem
      obtain ⟨w, hw, hc⟩ := List.mem_flatten.mp hMem
      exact mem_of_mem_words hw hc
    obtain hType | hName := List.mem_append.mp h
    · obtain hSpace | ⟨w, hw, hc⟩ := mem_joinWords hType
      · exact Or.inl hSpace
      · exact Or.inr (hText (List.mem_append_left _ (List.mem_flatten_of_mem hw hc)))
    · obtain hSpace | ⟨w, hw, hc⟩ := mem_joinWords hName
      · exact Or.inl hSpace
      · exact Or.inr (hText (List.mem_append_right _ (List.mem_flatten_of_mem hw hc)))
  · rw [List.append_nil] at h
    exact Or.inr h

theorem mem_of_mem_ofAngled (h : c ∈ (ofAngled s).type ++ (ofAngled s).name) : c = ' ' ∨ c ∈ s := by
  unfold ofAngled at h
  split at h
  · rename_i last type hWords
    have hWord {w : Text} (hw : w ∈ last :: type) (hc : c ∈ w) : c ∈ s :=
      mem_of_mem_words (List.mem_reverse.mp (hWords ▸ hw)) hc
    split at h
    · obtain hType | hName := List.mem_append.mp h
      · refine (mem_joinWords hType).imp_right ?_
        rintro ⟨w, hw, hc⟩
        exact hWord (List.mem_cons_of_mem last (List.mem_reverse.mp hw)) hc
      · exact Or.inr (hWord List.mem_cons_self hName)
    · rw [List.append_nil] at h
      exact Or.inr h
  · rw [List.append_nil] at h
    exact Or.inr h

theorem mem_of_mem_ofLastWord? {declarator : Declarator} (hRead : ofLastWord? s = some declarator)
    (h : c ∈ declarator.type ++ declarator.name) : c ∈ s := by
  rw [← fst_append_snd_splitEnding isWordChar s]
  unfold ofLastWord? at hRead
  simp only at hRead
  split at hRead
  · cases hRead
  · split at hRead
    · cases hRead
      exact List.mem_append.mpr ((List.mem_append.mp h).imp_left mem_of_mem_trim)
    · cases hRead

theorem mem_of_mem_ofPlain (h : c ∈ (ofPlain s).type ++ (ofPlain s).name) : c = ' ' ∨ c ∈ s := by
  have hBase (hc : c ∈ trim ((beforeSizes? s).getD s)) : c ∈ s := by
    cases hBefore : beforeSizes? s with
    | none =>
      rw [hBefore, Option.getD_none] at hc
      exact mem_of_mem_trim hc
    | some base =>
      rw [hBefore, Option.getD_some] at hc
      obtain ⟨sizes, hEnds, -⟩ := endsInSizes_of_beforeSizes? hBefore
      rw [hEnds.text]
      exact List.mem_append_left sizes (mem_of_mem_trim hc)
  unfold ofPlain at h
  cases hLast : ofLastWord? (trim ((beforeSizes? s).getD s)) with
  | none =>
    simp only [hLast, Option.getD_none] at h
    exact (mem_of_mem_ofWords h).imp_right hBase
  | some declarator =>
    simp only [hLast, Option.getD_some] at h
    exact Or.inr (hBase (mem_of_mem_ofLastWord? hLast h))

theorem mem_of_mem_ofFunctionPointer? {declarator : Declarator} (hRead : ofFunctionPointer? s = some declarator)
    (h : c ∈ declarator.type ++ declarator.name) : c ∈ s := by
  obtain ⟨front, opening, arguments, after, hPointer, rfl⟩ := isFunctionPointer_of_eq_some hRead
  have hText : s = front ++ opening ++ arguments ++ [')'] ++ after := by
    rw [hPointer.opensFirst.text]
    simp
  rw [hText]
  obtain hType | hName := List.mem_append.mp h
  · exact List.mem_append_left after (mem_of_mem_trim hType)
  · refine List.mem_append_right _ (mem_of_mem_trim (s := after) ?_)
    simp only at hName
    split at hName
    · exact hName
    · cases hName

/-- The characters of the type and of the name stand in the declarator, the spaces between words excepted. -/
theorem mem_of_mem_read (h : c ∈ (read s).type ++ (read s).name) : c = ' ' ∨ c ∈ s := by
  have hTrim : c ∈ trim s → c ∈ s := mem_of_mem_trim
  unfold read at h
  simp only at h
  split at h
  · cases h
  · split at h
    · rename_i hPointer
      exact Or.inr (hTrim (mem_of_mem_ofFunctionPointer? hPointer h))
    · split at h
      · exact (mem_of_mem_ofAngled h).imp_right hTrim
      · exact (mem_of_mem_ofPlain h).imp_right hTrim

end Declarator

end HeaderDigest
