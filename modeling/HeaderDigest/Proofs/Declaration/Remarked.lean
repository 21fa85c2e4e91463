import HeaderDigest.Proofs.Declaration.Lookahead
import HeaderDigest.Proofs.Source.Remarked
import HeaderDigest.Proofs.Text.Parts
import Mathlib.Data.List.Infix

/-!
# Comments and the search for a declaration

The tests on a line read its comments along with its code. Where these say nothing a test looks for,
the search finds the declaration that it finds in the code alone.
-/

namespace HeaderDigest

open Text

/-- Whether a comment says nothing that a test on a line looks for. -/
def IsQuiet (said : Text) : Prop :=
  (∀ c ∈ ['=', '(', ')', ';', '{'], c ∉ said) ∧ ∀ keyword ∈ typeKeywords, keyword ∉ runs isWordChar said

instance (said : Text) : Decidable (IsQuiet said) := inferInstanceAs (Decidable (_ ∧ _))

/-- A line whose comments the search for a declaration does not notice. Unless it is a comment as a
whole, it begins with code, and if it has no semicolon its last character tells whether its code
ends in a parenthesis. -/
structure IsQuietLine (line : Text) : Prop where
  opens : opensBlock line = false
  continued : endsWith ['\\'] (trim (withoutComments line)) = endsWith ['\\'] (trim line)
  code : trim (withoutComments line) = [] ∨
    startsWith ['/'] (trimStart line) = false ∧ Remarked IsQuiet WordsApart line (withoutComments line) ∧
      (';' ∈ withoutComments line ∨
        endsWith [')'] (trim (withoutComments line)) = endsWith [')'] (trim line))

section Tests

variable {line code : Text} (h : Remarked IsQuiet WordsApart line code)
  (hStart : startsWith ['/'] (trimStart line) = false)

include h

theorem contains_remarked {c : Char} (hc : c ∈ ['=', '(', ')', ';', '{']) :
    line.contains c = code.contains c := by
  have hNe : c ≠ '/' ∧ c ≠ '*' := by
    revert c
    decide
  rw [Bool.eq_iff_iff, List.contains_iff_mem, List.contains_iff_mem]
  exact h.mem_iff hNe.1 hNe.2 fun said hSaid => hSaid.1 c hc

theorem mentionsTypeKeyword_remarked : mentionsTypeKeyword line = mentionsTypeKeyword code := by
  have hWord {word : Text} (hKeyword : word ∈ typeKeywords) :
      word ∈ runs isWordChar line ↔ word ∈ runs isWordChar code :=
    h.mem_runs_iff (fun _ _ hApart => hApart) fun said hSaid => hSaid.2 word hKeyword
  rw [Bool.eq_iff_iff, mentionsTypeKeyword, mentionsTypeKeyword, List.any_eq_true, List.any_eq_true]
  refine exists_congr fun word => and_congr_left fun hKeyword => hWord ?_
  exact List.contains_iff_mem.mp hKeyword

include hStart

theorem startsWithTypedef_remarked : startsWithTypedef line = startsWithTypedef code := by
  rw [startsWithTypedef, h.takeWhile_trimStart (fun _ _ hApart => hApart) hStart, startsWithTypedef]

/-- The first character of a line that does not begin with a comment is that of its code. -/
theorem startsWith_trim_remarked (c : Char) : startsWith [c] (trim line) = startsWith [c] (trim code) :=
  startsWith_eq_of_head? c (h.head?_trim hStart)

theorem isEmpty_trim_remarked : (trim line).isEmpty = (trim code).isEmpty := by
  rw [Bool.eq_iff_iff, List.isEmpty_iff, List.isEmpty_iff, ← List.head?_eq_none_iff, h.head?_trim hStart,
    List.head?_eq_none_iff]

omit h in
theorem startsWith_slash (s : Text) : startsWith ('/' :: s) (trim line) = false := by
  have hFirst : startsWith ['/'] (trim line) = startsWith ['/'] (trimStart line) :=
    startsWith_eq_of_head? '/' (Text.head?_trim line)
  rw [hStart] at hFirst
  rw [Bool.eq_false_iff] at hFirst ⊢
  exact fun hText => hFirst (List.isPrefixOf_iff_prefix.mpr
    ((List.prefix_append ['/'] s).trans (List.isPrefixOf_iff_prefix.mp hText)))

theorem startsWith_slash_code : startsWith ['/'] (trimStart code) = false := by
  rw [← hStart, ← startsWith_eq_of_head? '/' (Text.head?_trim line),
    ← startsWith_eq_of_head? '/' (Text.head?_trim code), startsWith_trim_remarked h hStart]

theorem isPassedOver_remarked : isPassedOver (trim line) = isPassedOver (trim code) := by
  have hCode := startsWith_slash_code h hStart
  rw [isPassedOver, isPassedOver, isEmpty_trim_remarked h hStart, startsWith_slash hStart, startsWith_slash hStart,
    startsWith_slash hCode, startsWith_slash hCode, startsWith_trim_remarked h hStart,
    startsWith_trim_remarked h hStart]

theorem looksLikeFunctionStart_remarked
    (hEnd : ';' ∈ code ∨ endsWith [')'] (trim code) = endsWith [')'] (trim line)) :
    looksLikeFunctionStart line = looksLikeFunctionStart code := by
  have hContains {c : Char} (hc : c ∈ ['=', '(', ')', ';', '{']) :
      (trim line).contains c = (trim code).contains c := by
    have hBlank : isBlank c = false := by
      revert c
      decide
    rw [contains_trim hBlank, contains_trim hBlank, contains_remarked h hc]
  have hClosed : ((trim line).contains ';' || endsWith [')'] (trim line)) =
      ((trim code).contains ';' || endsWith [')'] (trim code)) := by
    obtain hSemicolon | hEnd := hEnd
    · have hCode : (trim code).contains ';' = true := by
        rwa [contains_trim (by decide), List.contains_iff_mem]
      rw [hContains (by decide), hCode, Bool.true_or, Bool.true_or]
    · rw [hContains (by decide), hEnd]
  have hBalance : balance '(' ')' (trim line) = balance '(' ')' (trim code) := by
    rw [balance_trim (by decide) (by decide) (by decide), balance_trim (by decide) (by decide) (by decide),
      h.balance_eq fun said hSaid => ⟨hSaid.1 '(' (by simp), hSaid.1 ')' (by simp)⟩]
  simp only [looksLikeFunctionStart, isPassedOver_remarked h hStart, hClosed, hBalance,
    hContains (c := '=') (by decide), hContains (c := '(') (by decide), hContains (c := ')') (by decide)]

theorem isTypeSeed_remarked
    (hEnd : ';' ∈ code ∨ endsWith [')'] (trim code) = endsWith [')'] (trim line)) :
    isTypeSeed line = isTypeSeed code := by
  rw [isTypeSeed, mentionsTypeKeyword_remarked h, looksLikeFunctionStart_remarked h hStart hEnd,
    contains_remarked h (by decide), startsWithTypedef_remarked h hStart, isTypeSeed]

end Tests

theorem opensBlock_of_start {line : Text} (h : startsWith ['/'] (trimStart line) = false) :
    opensBlock line = false := by
  rw [← opensBlock_trim, opensBlock, trimStart_trim, startsWith_slash h, Bool.false_and]

/-- A text keeps its first character unless it begins with a comment. -/
theorem mem_withoutComments_cons {c : Char} {rest : Text}
    (hLine : startsWith ['/', '/'] (c :: rest) = false)
    (hBlock : startsWith ['/', '*'] (c :: rest) = true → closesBlock ((c :: rest).drop 2) = false) :
    c ∈ withoutComments (c :: rest) := by
  by_cases hSlash : c = '/'
  · subst hSlash
    cases rest with
    | nil => decide
    | cons d rest =>
      have hd : d ≠ '/' := by
        rintro rfl
        cases hLine
      have hNot : ('/' = '/' && d = '*' && closesBlock rest) = false := by
        by_cases hStar : d = '*'
        · subst hStar
          have hOpen : closesBlock rest = false := hBlock rfl
          rw [hOpen, Bool.and_false]
        · simp [hStar]
      have hStarts : startsWith ['/', '/'] ('/' :: d :: withoutBlocks false rest) = false := by
        rw [startsWith, List.isPrefixOf_cons_cons, List.isPrefixOf_cons_cons, beq_false_of_ne (Ne.symm hd)]
        rfl
      rw [withoutComments, withoutBlocks_outside, hNot, if_neg Bool.false_ne_true, withoutBlocks_cons hd,
        beforeLineComment, hStarts, if_neg Bool.false_ne_true]
      exact List.mem_cons_self
  · have hAppend : withoutComments ([c] ++ rest) = [c] ++ withoutComments rest :=
      withoutComments_append (by simpa using Ne.symm hSlash) rest
    rw [← List.singleton_append, hAppend]
    exact List.mem_cons_self

/-- A line without code is blank or a comment that closes. -/
theorem of_code_eq_nil {line : Text} (h : trim (withoutComments line) = []) :
    trim line = [] ∨ startsWith ['/', '/'] (trim line) = true ∨
      startsWith ['/', '*'] (trim line) = true ∧ hasPart ['*', '/'] ((trim line).drop 2) = true := by
  have hCode {c : Char} (hc : isBlank c = false) : c ∉ withoutComments (trim line) := by
    rw [← mem_trim hc, trim_withoutComments, h]
    exact List.not_mem_nil
  have hFirst := (trimmed_trim line).1
  cases hText : trim line with
  | nil => exact Or.inl rfl
  | cons c rest =>
    rw [hText] at hFirst hCode
    refine Or.inr ?_
    by_contra hNot
    rw [not_or, not_and, Bool.not_eq_true] at hNot
    refine hCode hFirst (mem_withoutComments_cons hNot.1 fun hBlock => ?_)
    rw [Bool.eq_false_iff]
    exact fun hCloses => hNot.2 hBlock (hasPart_of_closesBlock hCloses)

theorem role_of_code_eq_nil {line : Text} (hOpens : opensBlock line = false)
    (h : trim (withoutComments line) = []) : LineRole.of (trim line) = .pass .nothing := by
  have hOpensNone : opensBlock (trim line) = false := (opensBlock_trim line).trans hOpens
  unfold LineRole.of
  rw [hOpensNone, if_neg Bool.false_ne_true]
  obtain hText | hLine | ⟨hBlock, hCloses⟩ := of_code_eq_nil h
  · rw [hText]
    rfl
  · obtain ⟨rest, hText⟩ := List.isPrefixOf_iff_prefix.mp hLine
    rw [← hText]
    rfl
  · rw [hBlock, hCloses]
    obtain ⟨rest, hText⟩ := List.isPrefixOf_iff_prefix.mp hBlock
    rw [← hText]
    rfl

theorem role_remarked {line code : Text} (h : Remarked IsQuiet WordsApart line code)
    (hStart : startsWith ['/'] (trimStart line) = false)
    (hContinued : endsWith ['\\'] (trim code) = endsWith ['\\'] (trim line))
    (hEnd : ';' ∈ code ∨ endsWith [')'] (trim code) = endsWith [')'] (trim line)) :
    LineRole.of (trim code) = LineRole.of (trim line) := by
  have hCode := startsWith_slash_code h hStart
  unfold LineRole.of
  rw [opensBlock_trim, opensBlock_trim, opensBlock_of_start hStart, opensBlock_of_start hCode,
    startsWith_trim_remarked h hStart '#', hContinued, startsWith_slash hStart, startsWith_slash hStart,
    startsWith_slash hCode, startsWith_slash hCode, isEmpty_trim_remarked h hStart,
    startsWith_trim_remarked h hStart '*', isTypeSeed_trim, isTypeSeed_trim, looksLikeFunctionStart_trim,
    looksLikeFunctionStart_trim, isTypeSeed_remarked h hStart hEnd, looksLikeFunctionStart_remarked h hStart hEnd]
  simp only [Bool.false_eq_true, if_false]

theorem LineRole.of_withoutComments {line : Text} (h : IsQuietLine line) :
    LineRole.of (trim (withoutComments line)) = LineRole.of (trim line) ∧
      LineRole.of (trim line) ≠ .pass .comment := by
  obtain hBlank | ⟨hStart, hRemarked, hEnd⟩ := h.code
  · rw [hBlank, role_of_code_eq_nil h.opens hBlank]
    exact ⟨rfl, by decide⟩
  · refine ⟨role_remarked hRemarked hStart h.continued hEnd, fun hRole => ?_⟩
    rw [role_eq_pass_iff line .comment (by decide)] at hRole
    exact absurd (hRole.1.symm.trans (startsWith_slash hStart ['*'])) (by decide)

theorem Seed.search_withoutComments {ls : List Text} (h : ∀ line ∈ ls, IsQuietLine line) (position : Nat)
    {pending : Pending} (hPending : pending ≠ .comment) :
    Seed.search position pending (ls.map withoutComments) = Seed.search position pending ls := by
  induction ls generalizing position pending with
  | nil => rfl
  | cons line ls ih =>
    obtain ⟨hLine, hRest⟩ := List.forall_mem_cons.mp h
    obtain ⟨hRole, hComment⟩ := LineRole.of_withoutComments hLine
    rw [List.map_cons]
    cases pending with
    | comment => exact absurd rfl hPending
    | directive =>
      rw [Seed.search, Seed.search, hLine.continued]
      refine ih hRest (position + 1) ?_
      split <;> decide
    | nothing =>
      rw [Seed.search, Seed.search, hRole]
      cases hLineRole : LineRole.of (trim line) with
      | stop => rfl
      | seed kind => rfl
      | pass pending =>
        refine ih hRest (position + 1) ?_
        rintro rfl
        exact hComment hLineRole

/-- Quiet comments do not decide which declaration is found. -/
theorem Seed.locate_withoutComments {ls : List Text} {start : Nat}
    (h : ∀ line ∈ (ls.drop start).take lookaheadLines, IsQuietLine line) :
    Seed.locate (ls.map withoutComments) start = Seed.locate ls start := by
  rw [Seed.locate, ← List.map_drop, ← List.map_take, Seed.search_withoutComments h start (by decide),
    Seed.locate]

def remarkedLines : List Text :=
  ["int size; /* in items */".toList, "// int find(struct node *at = 0);".toList,
    "int add(int a, /* left */ int b); // sum".toList]

theorem isQuietLine_remarkedLines : ∀ line ∈ remarkedLines, IsQuietLine line := by
  have hSize : Remarked IsQuiet WordsApart "int size; /* in items */".toList "int size; ".toList :=
    .block "int size; ".toList " in items ".toList (by decide) (by decide) (by decide) (by decide) (by decide)
      (by decide) (.code (by decide : IsCommentless []))
  have hAdd : Remarked IsQuiet WordsApart "int add(int a, /* left */ int b); // sum".toList
      "int add(int a,  int b); ".toList :=
    .block "int add(int a, ".toList " left ".toList (by decide) (by decide) (by decide) (by decide) (by decide)
      (by decide) (.line " int b); ".toList " sum".toList (by decide) (by decide) (by decide) (by decide))
  simp only [remarkedLines, List.forall_mem_cons]
  refine ⟨⟨by decide, by decide, Or.inr ⟨by decide, ?_, Or.inl (by decide)⟩⟩,
    ⟨by decide, by decide, Or.inl (by decide)⟩,
    ⟨by decide, by decide, Or.inr ⟨by decide, ?_, Or.inl (by decide)⟩⟩, by simp⟩
  · rw [hSize.withoutComments_eq]
    exact hSize
  · rw [hAdd.withoutComments_eq]
    exact hAdd

theorem Seed.locate_remarkedLines :
    Seed.locate ["int size; /* in items */".toList, "// int find(struct node *at = 0);".toList,
      "int add(int a, /* left */ int b); // sum".toList] 0 = some ⟨.function, 2⟩ :=
  (@Seed.locate_withoutComments remarkedLines 0 isQuietLine_remarkedLines).symm.trans (by decide)

/-- Whether each comment that opens in a line closes in it. -/
def ClosesComments (line : Text) : Prop :=
  ∀ rest ∈ line.tails, startsWith ['/', '*'] rest = true → hasPart ['*', '/'] (rest.drop 2) = true

instance (line : Text) : Decidable (ClosesComments line) :=
  inferInstanceAs (Decidable (∀ rest ∈ line.tails, _ → _))

/-- A comment with parentheses makes a function of the variable before it. -/
theorem Seed.not_forall_locate_withoutComments :
    ¬∀ ls start, (∀ line ∈ ls, opensBlock line = false ∧ ClosesComments line) →
      Seed.locate (ls.map withoutComments) start = Seed.locate ls start := by
  intro h
  have hLines : ∀ line ∈ ["int size; /* set by resize(n) */".toList, "int add(int a);".toList],
      opensBlock line = false ∧ ClosesComments line := by decide
  exact absurd (h _ 0 hLines) (by decide)

end HeaderDigest
