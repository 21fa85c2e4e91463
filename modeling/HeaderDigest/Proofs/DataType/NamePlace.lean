import HeaderDigest.Proofs.DataType.Naming
import HeaderDigest.Proofs.DataType.Tag

/-!
# Where the name of a type stands

Three rules take the name of a type from the code of its declaration: behind the last brace, before
the final semicolon, or in the first pointer group. Each finds a name exactly where the code has that
form, and finds no other name there.
-/

namespace HeaderDigest

open Text

variable {code name : Text}

theorem IsWordRun.not_mem (h : IsWordRun name) {c : Char} (hc : isWordChar c = false) : c ∉ name :=
  fun hMem => Bool.false_ne_true (hc.symm.trans (h.2 c hMem))

/-- Blanks, a word and what follows it, as a search for a word at the beginning of a text finds them. -/
theorem exists_word_of_takeWhile {s : Text} (h : (trimStart s).takeWhile isWordChar = name) :
    ∃ blanks rest, (∀ c ∈ blanks, isBlank c = true) ∧ startsWord rest = false ∧
      rest = (trimStart s).dropWhile isWordChar ∧ s = blanks ++ (name ++ rest) := by
  obtain ⟨blanks, hBlanks, hText⟩ := exists_eq_append_trimStart s
  refine ⟨blanks, _, hBlanks, startsWord_dropWhile _, rfl, ?_⟩
  rw [← h, List.takeWhile_append_dropWhile, ← hText]

/-- The name is the word behind the last brace, which is a closing one, and a semicolon ends the code. -/
def NamedBehindBrace (code name : Text) : Prop :=
  IsWordRun name ∧ ∃ before blanks rest, (∀ c ∈ blanks, isBlank c = true) ∧ startsWord rest = false ∧
    (∀ c ∈ rest, isNoBrace c = true) ∧ (trimEnd rest).getLast? = some ';' ∧
    code = before ++ '}' :: (blanks ++ (name ++ rest))

/-- A semicolon behind a word is one behind what follows the word. -/
theorem getLast?_trimEnd_word {blanks rest : Text} (hBlanks : ∀ c ∈ blanks, isBlank c = true)
    (hName : IsWordRun name) :
    (trimEnd (blanks ++ (name ++ rest))).getLast? = some ';' ↔ (trimEnd rest).getLast? = some ';' := by
  rw [← List.append_assoc, trimEnd_append]
  split
  · rename_i hNil
    rw [hNil]
    refine iff_of_false (fun hLast => ?_) (by simp)
    obtain ⟨v, -, hText⟩ := exists_eq_trimEnd_append (blanks ++ name)
    have hMem : ';' ∈ blanks ++ name := hText ▸ List.mem_append_left v (List.mem_of_getLast? hLast)
    obtain hBlank | hWord := List.mem_append.mp hMem
    · exact absurd (hBlanks _ hBlank) (by decide)
    · exact hName.not_mem (by decide) hWord
  · rename_i hNe
    rw [List.getLast?_append, List.getLast?_eq_some_getLast hNe, Option.some_or]

theorem IsWordRun.isNoBrace (h : IsWordRun name) {c : Char} (hc : c ∈ name) : isNoBrace c = true := by
  have hWord := h.2 c hc
  rw [HeaderDigest.isNoBrace, Bool.not_eq_true', Bool.or_eq_false_iff, beq_eq_false_iff_ne, beq_eq_false_iff_ne]
  constructor <;> (rintro rfl; revert hWord; decide)

theorem nameAfterBrace?_eq_some_iff : nameAfterBrace? code = some name ↔ NamedBehindBrace code name := by
  constructor
  · intro h
    obtain ⟨front, tail, hSplit⟩ : ∃ front tail, splitEnding isNoBrace code = (front, tail) := ⟨_, _, rfl⟩
    have hCode := fst_append_snd_splitEnding isNoBrace code
    have hTail := snd_splitEnding isNoBrace code
    rw [nameAfterBrace?_of_splitEnding hSplit] at h
    rw [hSplit] at hCode hTail
    split at h
    · rename_i hEnds
      obtain ⟨hBrace, hSemicolon⟩ := Bool.and_eq_true_iff.mp hEnds
      obtain ⟨hNe, hName⟩ := nonEmpty?_eq_some h
      have hRun : IsWordRun name := hName ▸ isWordRun_takeWhile hNe
      obtain ⟨blanks, rest, hBlanks, hRest, -, rfl⟩ := exists_word_of_takeWhile hName.symm
      obtain ⟨before, rfl⟩ := List.getLast?_eq_some_iff.mp (endsWith_singleton_iff.mp hBrace)
      refine ⟨hRun, before, blanks, rest, hBlanks, hRest, fun c hc => hTail c ?_, ?_, ?_⟩
      · exact List.mem_append_right _ (List.mem_append_right _ hc)
      · exact (getLast?_trimEnd_word hBlanks hRun).mp (endsWith_singleton_iff.mp hSemicolon)
      · rw [← hCode, List.append_assoc]
        rfl
    · cases h
  · rintro ⟨hRun, before, blanks, rest, hBlanks, hRest, hNoBrace, hSemicolon, rfl⟩
    have hTail : ∀ c ∈ blanks ++ (name ++ rest), isNoBrace c = true := by
      simp only [List.forall_mem_append]
      exact ⟨fun c hc => isNoBrace_of_isBlank c (hBlanks c hc), fun c hc => hRun.isNoBrace hc, hNoBrace⟩
    rw [nameAfterBrace?_of_splitEnding (splitEnding_append_cons before rfl hTail), endsWith_concat,
      endsWith_singleton_iff.mpr ((getLast?_trimEnd_word hBlanks hRun).mpr hSemicolon),
      trimStart_append_of_blank _ hBlanks, hRun.takeWhile_append hRest, hRun.nonEmpty?]
    rfl

/-- The name is the word before the semicolon that ends the code. -/
def NamedBeforeSemicolon (code name : Text) : Prop :=
  IsWordRun name ∧ ∃ before blanks after, (∀ c ∈ blanks, isBlank c = true) ∧
    (∀ c ∈ after, isBlank c = true) ∧ endsWord before = false ∧
      code = before ++ (name ++ (blanks ++ ';' :: after))

theorem nameBeforeSemicolon?_eq_some_iff :
    nameBeforeSemicolon? code = some name ↔ NamedBeforeSemicolon code name := by
  constructor
  · intro h
    rw [nameBeforeSemicolon?] at h
    split at h
    · rename_i front hFront
      obtain ⟨hNe, rfl⟩ := nonEmpty?_eq_some h
      obtain ⟨after, hAfter, hCode⟩ := exists_eq_trimEnd_append code
      obtain ⟨blanks, hBlanks, hBehind⟩ := exists_eq_trimEnd_append front
      refine ⟨⟨hNe, snd_splitEnding isWordChar _⟩, (splitEnding isWordChar (trimEnd front)).1, blanks, after,
        hBlanks, hAfter, endsWord_eq_false_iff.mpr (getLast?_fst_splitEnding isWordChar _), ?_⟩
      rw [← List.append_assoc, fst_append_snd_splitEnding, ← List.append_assoc, ← hBehind, hCode,
        dropSuffix?_eq_some_iff.mp hFront, List.append_assoc]
      rfl
    · cases h
  · rintro ⟨hRun, before, blanks, after, hBlanks, hAfter, hBefore, rfl⟩
    have hText : before ++ (name ++ (blanks ++ ';' :: after)) = (before ++ name ++ blanks) ++ ';' :: after := by
      simp
    have hEnd : trimEnd (before ++ (name ++ (blanks ++ ';' :: after))) = (before ++ name ++ blanks) ++ [';'] := by
      rw [hText, trimEnd_append_cons (by decide), trimEnd_eq_nil_iff.mpr hAfter]
    have hFront : trimEnd (before ++ name ++ blanks) = before ++ name := by
      have hEnds : endsBlank (before ++ name) = false := by rw [endsBlank_append _ hRun.1, hRun.endsBlank]
      rw [trimEnd_append_of_blank _ hBlanks, trimEnd_eq_self hEnds]
    have hSplit : splitEnding isWordChar (before ++ name) = (before, name) :=
      splitEnding_append hRun.2 (endsWord_eq_false_iff.mp hBefore)
    rw [nameBeforeSemicolon?, hEnd, dropSuffix?_append]
    simp only [hFront, hSplit, hRun.nonEmpty?]

/-- Whether a text begins with a parenthesis, one star and a name in it, and another parenthesis behind
it. Blanks may stand between any two of these. -/
def BeginsPointer (name s : Text) : Prop :=
  IsWordRun name ∧ ∃ b₁ b₂ b₃ b₄ arguments, (∀ c ∈ b₁ ++ b₂ ++ b₃ ++ b₄, isBlank c = true) ∧
    s = '(' :: (b₁ ++ '*' :: (b₂ ++ (name ++ (b₃ ++ ')' :: (b₄ ++ '(' :: arguments)))))

/-- The name is that of the first such group. -/
def NamedInPointerGroup (code name : Text) : Prop :=
  ∃ before behind, BeginsPointer name behind ∧ code = before ++ behind ∧
    ∀ before' behind' name', BeginsPointer name' behind' → code = before' ++ behind' →
      before.length ≤ before'.length

/-- The name of a group of one star that a text begins with. -/
def pointerName? (s : Text) : Option Text :=
  match (PointerGroup.read? s).map PointerGroup.parts with
  | some (stars, name) => if stars = ['*'] && !name.isEmpty then some name else none
  | none => none

theorem nameInPointerGroup?_cons_eq_or (c : Char) (s : Text) :
    nameInPointerGroup? (c :: s) = (pointerName? (c :: s)).or (nameInPointerGroup? s) := by
  rw [nameInPointerGroup?_cons, pointerName?]
  cases (PointerGroup.read? (c :: s)).map PointerGroup.parts with
  | none => rfl
  | some parts =>
    obtain ⟨stars, name⟩ := parts
    dsimp only
    split <;> rfl

/-- A text begins so exactly if a group of one star is read from it, and a name with the group. -/
theorem beginsPointer_iff {s : Text} :
    BeginsPointer name s ↔
      name ≠ [] ∧ ∃ arguments, PointerGroup.read? s = some ⟨['*'], name, arguments⟩ := by
  simp only [PointerGroup.read?_eq_some_iff]
  constructor
  · rintro ⟨hRun, b₁, b₂, b₃, b₄, arguments, hBlanks, rfl⟩
    refine ⟨hRun.1, arguments, _,
      ⟨List.cons_ne_nil _ _, ?_, hRun.2, b₁, b₂, b₃, b₄, hBlanks, rfl⟩, by simp⟩
    exact fun c hc => List.mem_singleton.mp hc
  · rintro ⟨hNe, arguments, text, hGroup, rfl⟩
    obtain ⟨b₁, b₂, b₃, b₄, hBlanks, rfl⟩ := hGroup.written
    exact ⟨⟨hNe, hGroup.word⟩, b₁, b₂, b₃, b₄, arguments, hBlanks, by simp⟩

theorem pointerName?_eq_some_iff {s : Text} : pointerName? s = some name ↔ BeginsPointer name s := by
  rw [beginsPointer_iff, pointerName?]
  cases hRead : PointerGroup.read? s with
  | none => exact iff_of_false (fun h => by cases h) (by simp)
  | some group =>
    obtain ⟨stars, word, arguments⟩ := group
    simp only [Option.map_some, PointerGroup.parts]
    constructor
    · intro h
      split at h
      · rename_i hNamed
        cases h
        obtain ⟨rfl, hNe⟩ : stars = ['*'] ∧ name ≠ [] := by simpa using hNamed
        exact ⟨hNe, arguments, rfl⟩
      · cases h
    · rintro ⟨hNe, arguments', hGroup⟩
      cases hGroup
      have hNamed : name.isEmpty = false := by simpa using hNe
      simp [hNamed]

theorem namedInPointerGroup_cons {c : Char} {s : Text} (h : ∀ name', ¬BeginsPointer name' (c :: s)) :
    NamedInPointerGroup (c :: s) name ↔ NamedInPointerGroup s name := by
  constructor
  · rintro ⟨before, behind, hBegins, hText, hFirst⟩
    cases before with
    | nil => exact absurd (hText ▸ hBegins) (h name)
    | cons d before =>
      obtain ⟨rfl, hRest⟩ := List.cons.inj hText
      refine ⟨before, behind, hBegins, hRest, fun before' behind' name' hBegins' hText' => ?_⟩
      exact Nat.le_of_succ_le_succ (hFirst (c :: before') behind' name' hBegins' (congrArg (c :: ·) hText'))
  · rintro ⟨before, behind, hBegins, rfl, hFirst⟩
    refine ⟨c :: before, behind, hBegins, rfl, fun before' behind' name' hBegins' hText' => ?_⟩
    cases before' with
    | nil => exact absurd (hText' ▸ hBegins') (h name')
    | cons d before' =>
      exact Nat.succ_le_succ (hFirst before' behind' name' hBegins' (List.cons.inj hText').2)

theorem nameInPointerGroup?_eq_some_iff :
    nameInPointerGroup? code = some name ↔ NamedInPointerGroup code name := by
  induction code with
  | nil =>
    refine iff_of_false (fun h => by cases h) ?_
    rintro ⟨before, behind, ⟨-, _, _, _, _, _, -, rfl⟩, hText, -⟩
    simp at hText
  | cons c s ih =>
    rw [nameInPointerGroup?_cons_eq_or]
    cases hHere : pointerName? (c :: s) with
    | none =>
      have hNone (name' : Text) : ¬BeginsPointer name' (c :: s) := by
        rw [← pointerName?_eq_some_iff, hHere]
        exact fun h => nomatch h
      rw [Option.none_or, ih, namedInPointerGroup_cons hNone]
    | some found =>
      have hFound := pointerName?_eq_some_iff.mp hHere
      rw [Option.some_or, Option.some_inj]
      constructor
      · rintro rfl
        exact ⟨[], c :: s, hFound, rfl, fun before' _ _ _ _ => Nat.zero_le before'.length⟩
      · rintro ⟨before, behind, hBegins, hText, hFirst⟩
        have hNil : before = [] := List.length_eq_zero_iff.mp (Nat.le_zero.mp (hFirst [] _ found hFound rfl))
        subst hNil
        have hSame := pointerName?_eq_some_iff.mpr hBegins
        rw [← hText.trans (List.nil_append behind), hHere] at hSame
        exact Option.some.inj hSame

end HeaderDigest
