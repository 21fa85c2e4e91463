import HeaderDigest.Declaration.Line
import HeaderDigest.Proofs.Text.Words

/-!
# The tests on a line

What a line can begin does not depend on the blanks at its ends.
-/

namespace HeaderDigest

open Text

theorem mentionsTypeKeyword_trim (line : Text) :
    mentionsTypeKeyword (trim line) = mentionsTypeKeyword line := by
  rw [mentionsTypeKeyword, runs_trim isWordChar_eq_false_of_isBlank, mentionsTypeKeyword]

theorem startsWithTypedef_trim (line : Text) :
    startsWithTypedef (trim line) = startsWithTypedef line := by
  obtain ⟨u, v, -, hv, hStart, -⟩ := exists_eq_append_trim line
  have hTake : (trim line ++ v).takeWhile isWordChar = (trim line).takeWhile isWordChar := by
    cases v with
    | nil => rw [List.append_nil]
    | cons c v =>
      exact takeWhile_append_cons_of_neg
        (isWordChar_eq_false_of_isBlank c (hv c List.mem_cons_self)) _ v
  rw [startsWithTypedef, startsWithTypedef, trimStart_trim, hStart, hTake]

theorem looksLikeFunctionStart_trim (line : Text) :
    looksLikeFunctionStart (trim line) = looksLikeFunctionStart line := by
  simp only [looksLikeFunctionStart, trim_trim]

theorem isTypeSeed_trim (line : Text) : isTypeSeed (trim line) = isTypeSeed line := by
  have hBrace : (trim line).contains '{' = line.contains '{' := by
    rw [Bool.eq_iff_iff, List.contains_iff_mem, List.contains_iff_mem]
    exact mem_trim (by decide)
  rw [isTypeSeed, isTypeSeed, mentionsTypeKeyword_trim, looksLikeFunctionStart_trim, hBrace,
    startsWithTypedef_trim]

end HeaderDigest
