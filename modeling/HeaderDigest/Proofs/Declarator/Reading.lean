import HeaderDigest.Proofs.Declarator.FunctionPointer
import HeaderDigest.Proofs.Declarator.Identifier

/-!
# Reading declarators of known form

What is read from a text that ends in a name of its own, and from one that is a function pointer.
-/

namespace HeaderDigest

open Text

theorem splitEnding_append {p : Char → Bool} {u v : Text} (hv : ∀ c ∈ v, p c = true)
    (hu : ∀ c ∈ u.getLast?, p c = false) : splitEnding p (u ++ v) = (u, v) := by
  have hStop : u.reverse.dropWhile p = u.reverse ∧ u.reverse.takeWhile p = [] := by
    cases hReverse : u.reverse with
    | nil => exact ⟨rfl, rfl⟩
    | cons c back =>
      have hc : ¬p c = true := by
        rw [hu c (by rw [← List.head?_reverse, hReverse]; rfl)]
        decide
      exact ⟨List.dropWhile_cons_of_neg hc, List.takeWhile_cons_of_neg hc⟩
  have hAll : ∀ c ∈ v.reverse, p c = true := fun c hc => hv c (List.mem_reverse.mp hc)
  rw [splitEnding, List.reverse_append, List.dropWhile_append_of_pos hAll,
    List.takeWhile_append_of_pos hAll, hStop.1, hStop.2, List.append_nil, List.reverse_reverse,
    List.reverse_reverse]

theorem splitEnding_append_cons {p : Char → Bool} (u : Text) {c : Char} (hc : p c = false) {v : Text}
    (hv : ∀ d ∈ v, p d = true) : splitEnding p (u ++ c :: v) = (u ++ [c], v) := by
  rw [← List.singleton_append, ← List.append_assoc]
  refine splitEnding_append hv ?_
  rw [List.getLast?_concat]
  rintro d ⟨⟩
  exact hc

theorem getLast?_fst_splitEnding (p : Char → Bool) (s : Text) :
    ∀ c ∈ (splitEnding p s).1.getLast?, p c = false := by
  intro c hc
  rw [splitEnding, List.getLast?_reverse] at hc
  have h := List.head?_dropWhile_not p s.reverse
  rw [hc] at h
  simpa using h

theorem snd_splitEnding (p : Char → Bool) (s : Text) : ∀ c ∈ (splitEnding p s).2, p c = true := by
  intro c hc
  exact List.mem_takeWhile_imp (List.mem_reverse.mp hc)

/-- A group of one star and a name, with the parenthesis of the arguments right behind it. -/
theorem isGroupText_of_isIdentifier {name : Text} (h : isIdentifier name = true) :
    IsGroupText ['*'] name ('(' :: '*' :: name ++ [')', '(']) where
  stars_ne_nil := List.cons_ne_nil _ _
  stars_only := fun _ hc => List.mem_singleton.mp hc
  word := fun c hc => isWordChar_of_isNameChar (isNameChar_of_mem h c hc)
  written := ⟨[], [], [], [], by simp, by simp⟩

theorem PointerGroup.read?_group {name : Text} (h : isIdentifier name = true) (arguments : Text) :
    PointerGroup.read? ('(' :: '*' :: name ++ ')' :: '(' :: arguments) =
      some ⟨['*'], name, arguments⟩ := by
  have hRead := PointerGroup.read?_of_isGroupText (isGroupText_of_isIdentifier h) arguments
  rw [List.append_assoc] at hRead
  exact hRead

namespace Declarator

theorem read_pointer {returned name arguments : Text}
    (hReturned : ∀ c ∈ returned, c ≠ '(' ∧ c ≠ '\n') (hName : isIdentifier name = true)
    (hArguments : Balanced '(' ')' arguments)
    (hStart : startsBlank (returned ++ '(' :: '*' :: name ++ ')' :: '(' :: arguments ++ [')']) = false) :
    read (returned ++ '(' :: '*' :: name ++ ')' :: '(' :: arguments ++ [')']) =
      ⟨returned ++ '(' :: '*' :: name ++ ')' :: '(' :: arguments ++ [')'], []⟩ := by
  let opening := '(' :: '*' :: name ++ [')', '(']
  have hOpens : OpensArguments opening := ⟨_, _, isGroupText_of_isIdentifier hName⟩
  have hFirst := hOpens.opensFirst (fun hMem => (hReturned _ hMem).1 rfl) (arguments ++ [')'])
  have hPartner := splitPartner?_partner (by decide) hArguments []
  have hCloses := ((splitPartner?_eq_some_iff (by decide) 0 _ arguments []).mp hPartner).2
  have hText : returned ++ '(' :: '*' :: name ++ ')' :: '(' :: arguments ++ [')'] =
      returned ++ opening ++ (arguments ++ [')']) := by simp [opening]
  have hEnd : endsBlank (returned ++ opening ++ (arguments ++ [')'])) = false := by
    rw [← List.append_assoc, endsBlank, List.getLast?_concat]
    rfl
  rw [hText] at hStart ⊢
  rw [read_functionPointer ⟨hFirst, hCloses⟩ fun hMem => (hReturned _ hMem).2 rfl, List.append_assoc _ arguments,
    trim_eq_self ⟨hStart, hEnd⟩]
  rfl

theorem splitArguments?_eq_none {s : Text} (h : '(' ∉ s) : splitArguments? s = none := by
  induction s with
  | nil => rfl
  | cons c s ih =>
    obtain ⟨hc, hs⟩ := List.ne_and_not_mem_of_not_mem_cons h
    rw [splitArguments?, PointerGroup.read?_eq_none (Ne.symm hc)]
    simp only [ih hs, Option.map_none, ite_self]

theorem isGroups_of_not_mem {s : Text} (h : '[' ∉ s) (hGroups : isGroups false s = true) :
    ∀ c ∈ s, isBlank c = true := by
  induction s with
  | nil => simp
  | cons c s ih =>
    obtain ⟨hc, hs⟩ := List.ne_and_not_mem_of_not_mem_cons h
    have hNot : (c == '[') = false := beq_eq_false_iff_ne.mpr (Ne.symm hc)
    rw [isGroups] at hGroups
    simp only [Bool.false_eq_true, if_false, hNot, Bool.false_and] at hGroups
    split at hGroups
    · rename_i hBlank
      intro d hd
      obtain rfl | hd := List.mem_cons.mp hd
      · exact hBlank
      · exact ih hs hGroups d hd
    · cases hGroups

theorem beforeSizes?_eq_none {s : Text} (h : '[' ∉ s) : beforeSizes? s = none := by
  induction s with
  | nil => rfl
  | cons c s ih =>
    have hNot : ¬(isGroups false (c :: s) && (c :: s).any (!isBlank ·)) = true := by
      rw [Bool.and_eq_true, not_and, List.any_eq_true]
      rintro hGroups ⟨d, hd, hBlank⟩
      rw [isGroups_of_not_mem h hGroups d hd] at hBlank
      cases hBlank
    rw [beforeSizes?, if_neg hNot, ih fun hMem => h (List.mem_cons_of_mem c hMem)]
    simp

theorem ofLastWord?_append {type name : Text} {c : Char} (hc : isBlank c = true ∨ c = '*') (hType : '\n' ∉ type)
    (hName : isIdentifier name = true) (hWord : isTypeWord name = false)
    (hBase : (runs (fun d => !isBlank d && d != '*') (type ++ [c])).any (!isQualifier ·) = true) :
    ofLastWord? (type ++ [c] ++ name) = some ⟨trim (type ++ [c]), name⟩ := by
  have hSplit : splitEnding isWordChar (type ++ [c] ++ name) = (type ++ [c], name) := by
    rw [List.append_assoc]
    apply splitEnding_append_cons
    · obtain hc | rfl := hc
      · exact isWordChar_eq_false_of_isBlank c hc
      · rfl
    · exact fun d hd => isWordChar_of_isNameChar (isNameChar_of_mem hName d hd)
  have hFeed : type.reverse.contains '\n' = false := by
    rw [Bool.eq_false_iff]
    intro hMem
    exact hType (List.mem_reverse.mp (List.contains_iff_mem.mp hMem))
  have hSet : (isBlank c || c == '*') = true := by
    rw [Bool.or_eq_true, beq_iff_eq]
    exact hc
  unfold ofLastWord?
  simp only [hSplit, List.reverse_append, List.reverse_singleton, List.singleton_append, hSet, hFeed,
    isWordName_of_isIdentifier hName, hBase, hWord, Bool.not_false, Bool.and_self, if_true]

/-- What is read from a text without brackets. -/
theorem read_eq_of_plain {s : Text} (hTrimmed : Trimmed s) (hNe : s ≠ []) (hParen : '(' ∉ s)
    (hAngle : '<' ∉ s) (hSquare : '[' ∉ s) : read s = (ofLastWord? s).getD (ofWords s) := by
  have hTrim := trim_eq_self hTrimmed
  have hPointer : ofFunctionPointer? s = none := by
    simp [ofFunctionPointer?, splitArguments?_eq_none hParen]
  have hContains : s.contains '<' = false := by
    rw [Bool.eq_false_iff]
    exact fun hMem => hAngle (List.contains_iff_mem.mp hMem)
  have hEmpty : s.isEmpty = false := by simpa using hNe
  unfold read
  simp only [hTrim, hEmpty, hPointer, hContains, Bool.false_eq_true, if_false, Bool.false_and]
  rw [ofPlain, beforeSizes?_eq_none hSquare, Option.getD_none, hTrim]

end Declarator

end HeaderDigest
