import HeaderDigest.DataType.Naming
import HeaderDigest.Proofs.Declarator.Reading
import HeaderDigest.Proofs.Source.InlineComment
import HeaderDigest.Proofs.Text.Parts
import HeaderDigest.Proofs.Text.Respaced

/-!
# The name of a type and the blanks around it

Attributes are taken out and a type is named word by word, so the blanks between the words of a
declaration do not count, however many there are.
-/

namespace HeaderDigest

open Text

variable {gap : Bool} {s t : Text}

theorem dropPrefix?_of_blank {w : Text} (hNe : w ≠ []) (hw : ∀ c ∈ w, isBlank c = false) {b : Char}
    (hb : isBlank b = true) (s : Text) : dropPrefix? w (b :: s) = none := by
  cases w with
  | nil => exact absurd rfl hNe
  | cons p w =>
    have hp : p ≠ b := (ne_of_isBlank hb (hw p List.mem_cons_self)).symm
    rw [dropPrefix?, if_neg hp]

theorem dropPrefix?_respaced {w : Text} (hw : ∀ c ∈ w, isBlank c = false) (h : Respaced false s t) :
    dropPrefix? w s = none ∧ dropPrefix? w t = none ∨
      ∃ s' t', dropPrefix? w s = some s' ∧ dropPrefix? w t = some t' ∧ Respaced false s' t' := by
  induction w generalizing s t with
  | nil => exact Or.inr ⟨s, t, rfl, rfl, h⟩
  | cons p w ih =>
    have hNone {b : Char} (hb : isBlank b = true) (s : Text) : dropPrefix? (p :: w) (b :: s) = none :=
      dropPrefix?_of_blank (List.cons_ne_nil p w) hw hb s
    cases h with
    | nil => exact Or.inl ⟨rfl, rfl⟩
    | @char _ c s t _ hRest =>
      by_cases hp : p = c
      · rw [dropPrefix?, if_pos hp, dropPrefix?, if_pos hp]
        exact ih (List.forall_mem_cons.mp hw).2 hRest
      · rw [dropPrefix?, if_neg hp, dropPrefix?, if_neg hp]
        exact Or.inl ⟨rfl, rfl⟩
    | both hb hc _ => exact Or.inl ⟨hNone hb _, hNone hc _⟩
    | left hb hEnd _ =>
      obtain rfl := hEnd.resolve_left (by simp)
      exact Or.inl ⟨hNone hb _, rfl⟩
    | right hc hEnd _ =>
      obtain rfl := hEnd.resolve_left (by simp)
      exact Or.inl ⟨rfl, hNone hc _⟩

theorem takeWhile_trimStart_respaced (h : Respaced gap s t) :
    (trimStart s).takeWhile isWordChar = (trimStart t).takeWhile isWordChar :=
  ((h.trimStart false).takeWhile_eq isWordChar_eq_false_of_isBlank rfl).1

theorem startsWith_trimStart_respaced (c : Char) (h : Respaced gap s t) :
    startsWith [c] (trimStart s) = startsWith [c] (trimStart t) := by
  obtain ⟨hs, ht⟩ | ⟨d, s', t', hs, ht, -, -⟩ := h.trimStart_eq_nil_or_cons
  · rw [hs, ht]
  · rw [hs, ht, startsWith, startsWith, List.isPrefixOf_cons_cons, List.isPrefixOf_cons_cons]
    rfl

theorem startsAttribute_of_blank {b : Char} (hb : isBlank b = true) (s : Text) :
    startsAttribute (b :: s) = false := by
  rw [startsAttribute, dropPrefix?_of_blank (by decide) (by decide) hb,
    dropPrefix?_of_blank (by decide) (by decide) hb]
  rfl

theorem startsAttribute_respaced (h : Respaced false s t) : startsAttribute s = startsAttribute t := by
  unfold startsAttribute
  obtain ⟨hs, ht⟩ | ⟨s', t', hs, ht, hRest⟩ :=
    dropPrefix?_respaced (w := "__attribute__".toList) (by decide) h
  · rw [hs, ht, Option.none_or, Option.none_or]
    obtain ⟨hs, ht⟩ | ⟨s', t', hs, ht, hRest⟩ :=
      dropPrefix?_respaced (w := "__declspec".toList) (by decide) h
    · rw [hs, ht]
    · rw [hs, ht]
      exact startsWith_trimStart_respaced '(' hRest
  · rw [hs, ht, Option.some_or, Option.some_or]
    exact startsWith_trimStart_respaced '(' hRest

theorem withoutAttributesFrom_nil (state : AttributeState) : withoutAttributesFrom state [] = [] := by
  cases state <;> rfl

/-- A blank is kept outside attributes and dropped inside, and reading goes on as it was. -/
theorem withoutAttributesFrom_of_blank {b : Char} (hb : isBlank b = true) (s : Text) :
    (∀ afterWord, withoutAttributesFrom (.outside afterWord) (b :: s) =
      b :: withoutAttributesFrom (.outside false) s) ∧
    withoutAttributesFrom .keyword (b :: s) = withoutAttributesFrom .keyword s ∧
    ∀ depth, withoutAttributesFrom (.arguments depth) (b :: s) =
      withoutAttributesFrom (.arguments depth) s := by
  have hOpening : b ≠ '(' := ne_of_isBlank hb (by decide)
  have hClosing : b ≠ ')' := ne_of_isBlank hb (by decide)
  refine ⟨?_, ?_, ?_⟩
  · intro afterWord
    rw [withoutAttributesFrom, startsAttribute_of_blank hb, isWordChar_eq_false_of_isBlank b hb,
      Bool.and_false, if_neg Bool.false_ne_true]
  · rw [withoutAttributesFrom, if_neg hOpening]
  · intro depth
    rw [withoutAttributesFrom, if_neg hOpening, if_neg hClosing]

/-- `out` says whether nothing or a blank stands before what is left of both texts. -/
theorem withoutAttributesFrom_respaced (h : Respaced gap s t) (state : AttributeState) (out : Bool)
    (hState : ∀ afterWord, state = .outside afterWord → gap = true → afterWord = false ∧ out = true) :
    Respaced out (withoutAttributesFrom state s) (withoutAttributesFrom state t) := by
  induction h generalizing state out with
  | nil =>
    rw [withoutAttributesFrom_nil]
    exact .nil
  | @char _ c s t hc hRest ih =>
    have inside (state : AttributeState) (out : Bool) :
        Respaced out (withoutAttributesFrom state s) (withoutAttributesFrom state t) :=
      ih state out (by simp)
    cases state with
    | outside afterWord =>
      rw [withoutAttributesFrom, withoutAttributesFrom, startsAttribute_respaced (.char hc hRest)]
      split
      · exact inside .keyword out
      · exact .char hc (inside _ false)
    | keyword =>
      rw [withoutAttributesFrom, withoutAttributesFrom]
      exact inside _ out
    | arguments depth =>
      rw [withoutAttributesFrom, withoutAttributesFrom]
      split
      · exact inside _ out
      · split <;> exact inside _ out
  | @both _ b c s t hb hc _ ih =>
    obtain ⟨hOutside, hKeyword, hArguments⟩ := withoutAttributesFrom_of_blank hb s
    obtain ⟨hOutside', hKeyword', hArguments'⟩ := withoutAttributesFrom_of_blank hc t
    cases state with
    | outside afterWord =>
      rw [hOutside, hOutside']
      refine .both hb hc (ih _ true ?_)
      rintro _ ⟨⟩ -
      exact ⟨rfl, rfl⟩
    | keyword =>
      rw [hKeyword, hKeyword']
      exact ih _ out (by simp)
    | arguments depth =>
      rw [hArguments, hArguments']
      exact ih _ out (by simp)
  | @left gap b s t hb hEnd _ ih =>
    obtain ⟨hOutside, hKeyword, hArguments⟩ := withoutAttributesFrom_of_blank hb s
    cases state with
    | outside afterWord =>
      have hRest := ih (.outside false) true (by rintro _ ⟨⟩ -; exact ⟨rfl, rfl⟩)
      rw [hOutside]
      rcases hEnd with hGap | rfl
      · obtain ⟨rfl, rfl⟩ := hState afterWord rfl hGap
        exact .left hb (Or.inl rfl) hRest
      · rw [withoutAttributesFrom_nil] at hRest ⊢
        exact .left hb (Or.inr rfl) hRest
    | keyword =>
      rw [hKeyword]
      exact ih _ out (by simp)
    | arguments depth =>
      rw [hArguments]
      exact ih _ out (by simp)
  | @right gap c s t hc hEnd _ ih =>
    obtain ⟨hOutside, hKeyword, hArguments⟩ := withoutAttributesFrom_of_blank hc t
    cases state with
    | outside afterWord =>
      have hRest := ih (.outside false) true (by rintro _ ⟨⟩ -; exact ⟨rfl, rfl⟩)
      rw [hOutside]
      rcases hEnd with hGap | rfl
      · obtain ⟨rfl, rfl⟩ := hState afterWord rfl hGap
        exact .right hc (Or.inl rfl) hRest
      · rw [withoutAttributesFrom_nil] at hRest ⊢
        exact .right hc (Or.inr rfl) hRest
    | keyword =>
      rw [hKeyword]
      exact ih _ out (by simp)
    | arguments depth =>
      rw [hArguments]
      exact ih _ out (by simp)

theorem withoutAttributes_respaced (h : Respaced true s t) :
    Respaced true (withoutAttributes s) (withoutAttributes t) := by
  refine withoutAttributesFrom_respaced h _ true ?_
  rintro _ ⟨⟩ -
  exact ⟨rfl, rfl⟩

theorem mem_of_startsAttribute {s : Text} (h : startsAttribute s = true) : '(' ∈ s := by
  unfold startsAttribute at h
  split at h
  · rename_i rest hRest
    have hText : rest <:+ s := by
      obtain hPrefix | ⟨-, hPrefix⟩ := Option.or_eq_some_iff.mp hRest
      · exact ⟨_, (eq_append_of_dropPrefix? hPrefix).symm⟩
      · exact ⟨_, (eq_append_of_dropPrefix? hPrefix).symm⟩
    have hHead : '(' ∈ trimStart rest :=
      (List.isPrefixOf_iff_prefix.mp h).subset List.mem_cons_self
    exact hText.subset ((List.dropWhile_suffix isBlank).subset hHead)
  · cases h

/-- An attribute has parentheses. -/
theorem withoutAttributes_of_not_mem {s : Text} (h : '(' ∉ s) : withoutAttributes s = s := by
  have hFrom (afterWord : Bool) : withoutAttributesFrom (.outside afterWord) s = s := by
    induction s generalizing afterWord with
    | nil => rfl
    | cons c s ih =>
      have hStarts : startsAttribute (c :: s) = false :=
        Bool.eq_false_iff.mpr fun hAttribute => h (mem_of_startsAttribute hAttribute)
      have hRest := ih fun hMem => h (List.mem_cons_of_mem c hMem)
      rw [withoutAttributesFrom, hStarts, Bool.and_false, if_neg Bool.false_ne_true, hRest]
  exact hFrom false

theorem wordAfter?_of_blank {keyword : Text} (hNe : keyword ≠ [])
    (hKeyword : ∀ c ∈ keyword, isBlank c = false) {b : Char} (hb : isBlank b = true) (s : Text) :
    wordAfter? keyword (b :: s) = none := by
  rw [wordAfter?, dropPrefix?_of_blank hNe hKeyword hb]

theorem wordAfter?_respaced {keyword : Text} (hKeyword : ∀ c ∈ keyword, isBlank c = false)
    (h : Respaced false s t) : wordAfter? keyword s = wordAfter? keyword t := by
  have hAtEnd {b : Char} {s' : Text} (hRest : Respaced true s' []) :
      (if isBlank b then nonEmpty? ((trimStart s').takeWhile isWordChar) else none) = none := by
    rw [takeWhile_trimStart_respaced hRest]
    split <;> rfl
  unfold wordAfter?
  obtain ⟨hs, ht⟩ | ⟨s', t', hs, ht, hRest⟩ := dropPrefix?_respaced hKeyword h
  · rw [hs, ht]
  · rw [hs, ht]
    cases hRest with
    | nil => rfl
    | char hc _ => simp [hc]
    | both hb hc hRest => simp [hb, hc, takeWhile_trimStart_respaced hRest]
    | left hb hEnd hRest =>
      obtain rfl := hEnd.resolve_left (by simp)
      exact hAtEnd hRest
    | right hc hEnd hRest =>
      obtain rfl := hEnd.resolve_left (by simp)
      exact (hAtEnd hRest.symm).symm

theorem findWordAfter?_of_blank {keyword : Text} (hNe : keyword ≠ [])
    (hKeyword : ∀ c ∈ keyword, isBlank c = false) {b : Char} (hb : isBlank b = true)
    (afterWord : Bool) (s : Text) :
    findWordAfter? keyword afterWord (b :: s) = findWordAfter? keyword false s := by
  rw [findWordAfter?, wordAfter?_of_blank hNe hKeyword hb, isWordChar_eq_false_of_isBlank b hb]
  cases afterWord <;> rfl

theorem findWordAfter?_respaced {keyword : Text} (hNe : keyword ≠ [])
    (hKeyword : ∀ c ∈ keyword, isBlank c = false) (h : Respaced gap s t) (afterWord : Bool)
    (hGap : gap = true → afterWord = false) :
    findWordAfter? keyword afterWord s = findWordAfter? keyword afterWord t := by
  induction h generalizing afterWord with
  | nil => rfl
  | @char _ c s t hc hRest ih =>
    rw [findWordAfter?, findWordAfter?, wordAfter?_respaced hKeyword (.char hc hRest),
      ih (isWordChar c) (by simp)]
  | both hb hc _ ih =>
    rw [findWordAfter?_of_blank hNe hKeyword hb, findWordAfter?_of_blank hNe hKeyword hc]
    exact ih false fun _ => rfl
  | @left _ b s t hb hEnd _ ih =>
    rw [findWordAfter?_of_blank hNe hKeyword hb, ih false fun _ => rfl]
    rcases hEnd with hTrue | rfl
    · rw [hGap hTrue]
    · rfl
  | @right _ c s t hc hEnd _ ih =>
    rw [findWordAfter?_of_blank hNe hKeyword hc, ← ih false fun _ => rfl]
    rcases hEnd with hTrue | rfl
    · rw [hGap hTrue]
    · rfl

theorem startsTypedefOf_respaced (keyword : Text) (h : Respaced gap s t) :
    startsTypedefOf keyword s = startsTypedefOf keyword t := by
  rw [startsTypedefOf, wordAfter?_respaced (by decide) (h.trimStart false), startsTypedefOf]

theorem startsWithTypedef_respaced (h : Respaced gap s t) :
    startsWithTypedef s = startsWithTypedef t := by
  rw [startsWithTypedef, takeWhile_trimStart_respaced h, startsWithTypedef]

def isNoBrace (c : Char) : Bool := !(c == '{' || c == '}')

theorem isNoBrace_of_isBlank (c : Char) (hc : isBlank c = true) : isNoBrace c = true := by
  have hOpening : c ≠ '{' := ne_of_isBlank hc (by decide)
  have hClosing : c ≠ '}' := ne_of_isBlank hc (by decide)
  simp [isNoBrace, hOpening, hClosing]

theorem nameAfterBrace?_eq (code : Text) :
    nameAfterBrace? code =
      if startsWith ['}'] (code.reverse.dropWhile isNoBrace) &&
          startsWith [';'] (trimStart (code.reverse.takeWhile isNoBrace)) then
        nonEmpty? ((trimStart (code.reverse.takeWhile isNoBrace).reverse).takeWhile isWordChar)
      else none := by
  rw [← endsWith_reverse '}', ← endsWith_reverse ';']
  have hEnd : (trimStart (code.reverse.takeWhile isNoBrace)).reverse =
      trimEnd (code.reverse.takeWhile isNoBrace).reverse := by
    rw [trimEnd_eq_reverse, List.reverse_reverse]
  rw [hEnd]
  rfl

theorem nameAfterBrace?_of_splitEnding {code front tail : Text}
    (h : splitEnding isNoBrace code = (front, tail)) :
    nameAfterBrace? code =
      if endsWith ['}'] front && endsWith [';'] (trimEnd tail) then
        nonEmpty? ((trimStart tail).takeWhile isWordChar)
      else none := by
  change splitEnding (fun c => !(c == '{' || c == '}')) code = (front, tail) at h
  simp only [nameAfterBrace?, h]

theorem nameAfterBrace?_respaced (h : Respaced true s t) : nameAfterBrace? s = nameAfterBrace? t := by
  obtain ⟨hTake, hDrop⟩ := h.reverse.takeWhile_blank isNoBrace_of_isBlank
  rw [nameAfterBrace?_eq, nameAfterBrace?_eq, startsWith_eq_of_head? '}' hDrop,
    startsWith_trimStart_respaced ';' hTake, takeWhile_trimStart_respaced hTake.reverse]

theorem nameBeforeSemicolon?_eq (code : Text) :
    nameBeforeSemicolon? code = (dropPrefix? [';'] (trimStart code.reverse)).bind fun back =>
      nonEmpty? ((trimStart back).takeWhile isWordChar).reverse := by
  have hSemicolon : [';'].reverse = [';'] := rfl
  rw [nameBeforeSemicolon?, trimEnd_eq_reverse, dropSuffix?, List.reverse_reverse, hSemicolon]
  cases dropPrefix? [';'] (trimStart code.reverse) with
  | none => rfl
  | some back => simp [splitEnding, trimEnd_eq_reverse]

theorem nameBeforeSemicolon?_respaced (h : Respaced true s t) :
    nameBeforeSemicolon? s = nameBeforeSemicolon? t := by
  rw [nameBeforeSemicolon?_eq, nameBeforeSemicolon?_eq]
  obtain ⟨hs, ht⟩ | ⟨s', t', hs, ht, hRest⟩ :=
    dropPrefix?_respaced (w := [';']) (by decide) (h.reverse.trimStart false)
  · rw [hs, ht]
  · rw [hs, ht, Option.bind_some, Option.bind_some, takeWhile_trimStart_respaced hRest]

/-- The stars and the name of a pointer group. -/
def PointerGroup.parts (group : PointerGroup) : Text × Text := (group.stars, group.name)

/-- A pointer group from the end of its name on. -/
def PointerGroup.close? (stars name s : Text) : Option PointerGroup :=
  match trimStart s with
  | ')' :: s =>
    match trimStart s with
    | '(' :: arguments => if stars.isEmpty then none else some ⟨stars, name, arguments⟩
    | _ => none
  | _ => none

theorem PointerGroup.read?_paren (s : Text) :
    PointerGroup.read? ('(' :: s) =
      PointerGroup.close? ((trimStart s).takeWhile (· == '*'))
        ((trimStart ((trimStart s).dropWhile (· == '*'))).takeWhile isWordChar)
        ((trimStart ((trimStart s).dropWhile (· == '*'))).dropWhile isWordChar) := rfl

theorem PointerGroup.close?_respaced (stars name : Text) (h : Respaced gap s t) :
    (PointerGroup.close? stars name s).map PointerGroup.parts =
      (PointerGroup.close? stars name t).map PointerGroup.parts := by
  unfold PointerGroup.close?
  obtain ⟨hs, ht⟩ | ⟨c, s', t', hs, ht, -, hRest⟩ := h.trimStart_eq_nil_or_cons
  · rw [hs, ht]
  · rw [hs, ht]
    by_cases hClosing : c = ')'
    · subst hClosing
      obtain ⟨hs, ht⟩ | ⟨d, s'', t'', hs, ht, -, -⟩ := hRest.trimStart_eq_nil_or_cons
      · simp only [hs, ht]
      · simp only [hs, ht]
        by_cases hOpening : d = '('
        · subst hOpening
          cases stars <;> rfl
        · simp [hOpening]
    · simp [hClosing]

theorem PointerGroup.read?_respaced (h : Respaced false s t) :
    (PointerGroup.read? s).map PointerGroup.parts = (PointerGroup.read? t).map PointerGroup.parts := by
  have hStar (c : Char) (hc : isBlank c = true) : (c == '*') = false :=
    beq_false_of_ne (ne_of_isBlank hc (by decide))
  have hOpening {c : Char} (hc : isBlank c = true) : c ≠ '(' := ne_of_isBlank hc (by decide)
  cases h with
  | nil => rfl
  | @char _ c s t _ hRest =>
    by_cases hc : c = '('
    · subst hc
      obtain ⟨hStars, hBehindStars⟩ := (hRest.trimStart false).takeWhile_eq hStar rfl
      obtain ⟨hName, hBehindName⟩ :=
        (hBehindStars.trimStart false).takeWhile_eq isWordChar_eq_false_of_isBlank rfl
      rw [PointerGroup.read?_paren, PointerGroup.read?_paren, hStars, hName]
      exact PointerGroup.close?_respaced _ _ hBehindName
    · rw [PointerGroup.read?_eq_none hc, PointerGroup.read?_eq_none hc]
  | both hb hc _ => rw [PointerGroup.read?_eq_none (hOpening hb), PointerGroup.read?_eq_none (hOpening hc)]
  | left hb hEnd _ =>
    obtain rfl := hEnd.resolve_left (by simp)
    rw [PointerGroup.read?_eq_none (hOpening hb)]
    rfl
  | right hc hEnd _ =>
    obtain rfl := hEnd.resolve_left (by simp)
    rw [PointerGroup.read?_eq_none (hOpening hc)]
    rfl

theorem nameInPointerGroup?_of_blank {b : Char} (hb : isBlank b = true) (s : Text) :
    nameInPointerGroup? (b :: s) = nameInPointerGroup? s := by
  rw [nameInPointerGroup?, PointerGroup.read?_eq_none (ne_of_isBlank hb (by decide))]

theorem nameInPointerGroup?_cons (c : Char) (s : Text) :
    nameInPointerGroup? (c :: s) =
      match (PointerGroup.read? (c :: s)).map PointerGroup.parts with
      | some (stars, name) =>
        if stars = ['*'] && !name.isEmpty then some name else nameInPointerGroup? s
      | none => nameInPointerGroup? s := by
  rw [nameInPointerGroup?]
  cases PointerGroup.read? (c :: s) <;> rfl

theorem nameInPointerGroup?_respaced (h : Respaced gap s t) :
    nameInPointerGroup? s = nameInPointerGroup? t := by
  induction h with
  | nil => rfl
  | char hc hRest ih =>
    rw [nameInPointerGroup?_cons, nameInPointerGroup?_cons,
      PointerGroup.read?_respaced (.char hc hRest), ih]
  | both hb hc _ ih => rwa [nameInPointerGroup?_of_blank hb, nameInPointerGroup?_of_blank hc]
  | left hb _ _ ih => rwa [nameInPointerGroup?_of_blank hb]
  | right hc _ _ ih => rwa [nameInPointerGroup?_of_blank hc]

theorem nameType?_respaced {seedLine seedLine' code code' : Text}
    (hSeed : Respaced true seedLine seedLine') (hCode : Respaced true code code') :
    nameType? seedLine code = nameType? seedLine' code' := by
  have hRule (kind : TypeKind) (rule : NameRule) :
      rule.name? kind seedLine code = rule.name? kind seedLine' code' := by
    cases rule with
    | afterKeyword =>
      have hKeyword : kind.keyword ≠ [] ∧ ∀ c ∈ kind.keyword, isBlank c = false := by
        cases kind <;> decide
      exact findWordAfter?_respaced hKeyword.1 hKeyword.2 hSeed false fun _ => rfl
    | afterClosingBrace =>
      rw [NameRule.name?, startsTypedefOf_respaced kind.keyword hSeed, nameAfterBrace?_respaced hCode]
      rfl
    | beforeSemicolon =>
      rw [NameRule.name?, startsWithTypedef_respaced hSeed, nameBeforeSemicolon?_respaced hCode]
      rfl
    | inPointerGroup =>
      rw [NameRule.name?, startsWithTypedef_respaced hSeed, nameInPointerGroup?_respaced hCode]
      rfl
  simp only [nameType?, hRule]

end HeaderDigest
