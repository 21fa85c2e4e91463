import HeaderDigest.Proofs.Source.InlineComment
import HeaderDigest.Proofs.Text.Brackets
import HeaderDigest.Proofs.Text.WordBounds

/-!
# Code with comments in it

A line with comments is told from its code by where the comments stand and what they say. What is
asked of both depends on who reads the line, so it is a parameter here.
-/

namespace HeaderDigest

open Text

def blockComment (said : Text) : Text := '/' :: '*' :: (said ++ ['*', '/'])

def lineComment (said : Text) : Text := '/' :: '/' :: said

/-- A line and its code. `Quiet` holds of what each comment says, and `Apart` of the code before a
block and all code behind it. -/
inductive Remarked (Quiet : Text → Prop) (Apart : Text → Text → Prop) : Text → Text → Prop
  | code {s : Text} : IsCommentless s → Remarked Quiet Apart s s
  | line (s said : Text) : IsCommentless s → s.getLast? ≠ some '/' → said.head? ≠ some '*' → Quiet said →
      Remarked Quiet Apart (s ++ lineComment said) s
  | block (s said : Text) {rest code : Text} : IsCommentless s → s.getLast? ≠ some '/' → '\n' ∉ said →
      hasPart ['*', '/'] said = false → Quiet said → Apart s code → Remarked Quiet Apart rest code →
      Remarked Quiet Apart (s ++ (blockComment said ++ rest)) (s ++ code)

theorem withoutBlocks_lineComment {said : Text} (h : said.head? ≠ some '*') :
    withoutBlocks false (lineComment said) = lineComment (withoutBlocks false said) :=
  withoutBlocks_append_of_noBlock (u := ['/', '/']) (by decide) h

theorem withoutBlocks_blockComment {said : Text} (hFeed : '\n' ∉ said)
    (hCloser : hasPart ['*', '/'] said = false) (rest : Text) :
    withoutBlocks false (blockComment said ++ rest) = withoutBlocks false rest := by
  rw [blockComment, List.cons_append, List.cons_append, List.append_assoc]
  exact withoutBlocks_block hFeed hCloser rest

theorem runs_lineComment (said : Text) : runs isWordChar (lineComment said) = runs isWordChar said :=
  runs_append_left_of_neg (u := ['/', '/']) (by decide) said

theorem getLast?_blockComment (said : Text) : (blockComment said).getLast? = some '/' := by
  rw [blockComment, List.getLast?_cons_cons, List.getLast?_cons_of_ne_nil (by simp), List.getLast?_append]
  rfl

theorem endsWord_blockComment (said : Text) : endsWord (blockComment said) = false := by
  rw [endsWord, getLast?_blockComment]
  rfl

theorem runs_blockComment_append (said rest : Text) :
    runs isWordChar (blockComment said ++ rest) = runs isWordChar said ++ runs isWordChar rest := by
  have hStart : runs isWordChar (blockComment said) = runs isWordChar (said ++ ['*', '/']) :=
    runs_append_left_of_neg (u := ['/', '*']) (by decide) _
  rw [runs_append_of_bounds (Or.inl (endsWord_blockComment said)), hStart, runs_append_right_of_neg (by decide)]

namespace Remarked

variable {Quiet : Text → Prop} {Apart : Text → Text → Prop} {line code : Text}

theorem withoutComments_eq (h : Remarked Quiet Apart line code) : withoutComments line = code := by
  induction h with
  | code hCode => exact withoutComments_of_isCommentless hCode
  | line s said hCode hLast hSaid _ =>
    rw [withoutComments, withoutBlocks_append_of_noBlock hCode.noBlock (by simp [lineComment]),
      withoutBlocks_lineComment hSaid, beforeLineComment_append_of_noLine hCode.noLine (Or.inl hLast)]
    exact List.append_nil _
  | @block s said rest code hCode hLast hFeed hCloser _ _ _ ih =>
    rw [withoutComments, withoutBlocks_append_of_noBlock hCode.noBlock (by simp [blockComment]),
      withoutBlocks_blockComment hFeed hCloser, beforeLineComment_append_of_noLine hCode.noLine (Or.inl hLast)]
    exact congrArg (s ++ ·) ih

theorem mem_iff (h : Remarked Quiet Apart line code) {c : Char} (hSlash : c ≠ '/') (hStar : c ≠ '*')
    (hQuiet : ∀ said, Quiet said → c ∉ said) : c ∈ line ↔ c ∈ code := by
  induction h with
  | code => rfl
  | line _ said _ _ _ hSaid => simp [lineComment, hSlash, hQuiet _ hSaid]
  | block _ said _ _ _ _ hSaid _ _ ih => simp [blockComment, hSlash, hStar, hQuiet _ hSaid, ih]

theorem balance_eq (h : Remarked Quiet Apart line code)
    (hQuiet : ∀ said, Quiet said → '(' ∉ said ∧ ')' ∉ said) :
    balance '(' ')' line = balance '(' ')' code := by
  have hZero {s : Text} (hOpening : '(' ∉ s) (hClosing : ')' ∉ s) : balance '(' ')' s = 0 :=
    balance_eq_zero (by decide) (.of_not_mem hOpening hClosing)
  induction h with
  | code => rfl
  | @line s said _ _ _ hSaid =>
    obtain ⟨hOpening, hClosing⟩ := hQuiet said hSaid
    have hComment : balance '(' ')' (lineComment said) = 0 :=
      hZero (by simp [lineComment, hOpening]) (by simp [lineComment, hClosing])
    rw [balance_append, hComment, Int.add_zero]
  | @block s said rest code _ _ _ _ hSaid _ _ ih =>
    obtain ⟨hOpening, hClosing⟩ := hQuiet said hSaid
    have hComment : balance '(' ')' (blockComment said) = 0 :=
      hZero (by simp [blockComment, hOpening]) (by simp [blockComment, hClosing])
    rw [balance_append, balance_append, hComment, Int.zero_add, ih, balance_append]

/-- A word that no comment says stands in the line just when it stands in the code. -/
theorem mem_runs_iff (h : Remarked Quiet Apart line code) {word : Text}
    (hApart : ∀ s t, Apart s t → WordsApart s t)
    (hQuiet : ∀ said, Quiet said → word ∉ runs isWordChar said) :
    word ∈ runs isWordChar line ↔ word ∈ runs isWordChar code := by
  induction h with
  | code => rfl
  | line s said _ _ _ hSaid =>
    rw [runs_append_of_bounds (Or.inr rfl), runs_lineComment, List.mem_append,
      or_iff_left (hQuiet _ hSaid)]
  | block s said _ _ _ _ hSaid hBounds _ ih =>
    rw [runs_append_of_bounds (Or.inr rfl), runs_blockComment_append, List.mem_append, List.mem_append,
      or_iff_right (hQuiet _ hSaid), ih, runs_append_of_bounds (hApart _ _ hBounds), List.mem_append]

/-- A line that does not begin with a comment begins with code, which goes on behind the first
comment. -/
theorem exists_first (h : Remarked Quiet Apart line code) (hStart : startsWith ['/'] (trimStart line) = false) :
    line = code ∨ ∃ s comment behind, trimStart s ≠ [] ∧ comment.head? = some '/' ∧
      line = s ++ comment ∧ code = s ++ behind ∧ (behind = [] ∨ Apart s behind) := by
  have hFirst {s t : Text} (h : startsWith ['/'] (trimStart (s ++ '/' :: t)) = false) : trimStart s ≠ [] := by
    intro hNil
    have hBlank : ∀ c ∈ s, isBlank c = true := List.dropWhile_eq_nil_iff.mp hNil
    rw [trimStart_append_of_blank _ hBlank] at h
    cases h
  induction h with
  | code => exact Or.inl rfl
  | @line s said => exact Or.inr ⟨s, _, [], hFirst hStart, rfl, rfl, (List.append_nil s).symm, Or.inl rfl⟩
  | @block s said rest code _ _ _ _ _ hApart =>
    exact Or.inr ⟨s, _, code, hFirst hStart, rfl, rfl, rfl, Or.inr hApart⟩

theorem head?_trim (h : Remarked Quiet Apart line code)
    (hStart : startsWith ['/'] (trimStart line) = false) : (trim line).head? = (trim code).head? := by
  obtain rfl | ⟨s, comment, behind, hFirst, -, rfl, rfl, -⟩ := h.exists_first hStart
  · rfl
  · obtain ⟨c, rest, hText⟩ := List.exists_cons_of_ne_nil hFirst
    rw [Text.head?_trim, Text.head?_trim, trimStart_append_of_ne_nil hFirst,
      trimStart_append_of_ne_nil hFirst, hText, List.cons_append, List.cons_append, List.head?_cons,
      List.head?_cons]

/-- The first word stands in front of all comments. -/
theorem takeWhile_trimStart (h : Remarked Quiet Apart line code) (hApart : ∀ s t, Apart s t → WordsApart s t)
    (hStart : startsWith ['/'] (trimStart line) = false) :
    (trimStart line).takeWhile isWordChar = (trimStart code).takeWhile isWordChar := by
  obtain rfl | ⟨s, comment, behind, hFirst, hComment, rfl, rfl, hBehind⟩ := h.exists_first hStart
  · rfl
  · have hSlash : startsWord comment = false := by
      rw [startsWord, hComment]
      rfl
    have hBounds : WordsApart s behind := by
      obtain rfl | hApart' := hBehind
      · exact Or.inr rfl
      · exact hApart _ _ hApart'
    rw [takeWhile_trimStart_append hFirst (Or.inr hSlash), takeWhile_trimStart_append hFirst hBounds]

end Remarked

end HeaderDigest
