import HeaderDigest.Declaration.Seed
import HeaderDigest.Declaration.Span
import HeaderDigest.Doc.Reader
import HeaderDigest.Proofs.Source.InlineComment
import HeaderDigest.Proofs.Survey.Extent
import HeaderDigest.Proofs.Text.Reindented

/-!
# Blocks, seeds and spans in reindented lines

Every test that the survey makes on a line is blind to the blanks at its ends, and a blank line
passes all of them by. So blocks open and close at the same lines, they say the same, and seeds
and spans lie at the same places.
-/

namespace HeaderDigest

open Text

variable {ls ms : List Text}

theorem opensBlock_trim (line : Text) : opensBlock (trim line) = opensBlock line := by
  obtain ⟨u, v, -, hv, hStart, -⟩ := exists_eq_append_trim line
  simp only [opensBlock, trimStart_trim, hStart]
  rw [startsWith_append_of_blank (by decide) hv, startsWith_append_of_blank (by decide) hv]

theorem closesItself_trim (line : Text) : closesItself (trim line) = closesItself line := by
  obtain ⟨u, v, -, hv, hStart, -⟩ := exists_eq_append_trim line
  have hRest : ∀ c ∈ v.drop (2 - (trim line).length), isBlank c = true :=
    fun c hc => hv c (List.mem_of_mem_drop hc)
  rw [closesItself, closesItself, trimStart_trim, hStart, List.drop_append,
    hasPart_append_of_blank (by decide) hRest]

theorem opensBlock_of_blank {line : Text} (h : trim line = []) : opensBlock line = false := by
  rw [← opensBlock_trim, h]
  rfl

theorem hasCloser_congr {line line' : Text} (h : trim line = trim line') :
    hasPart ['*', '/'] line = hasPart ['*', '/'] line' := by
  have hCloser : ∀ c ∈ ['*', '/'], isBlank c = false := by decide
  rw [← hasPart_trim (by simp) hCloser, h, hasPart_trim (by simp) hCloser]

theorem linesToCloser?_of_blank {line : Text} (h : trim line = []) (rest : List Text) :
    linesToCloser? (line :: rest) = (linesToCloser? rest).map (· + 1) := by
  have hNil : trim line = trim [] := h
  have hOpen : hasPart ['*', '/'] line = false := hasCloser_congr hNil
  rw [linesToCloser?, hOpen, if_neg Bool.false_ne_true]

theorem linesToCloser?_reindented (h : Reindented ls ms) : linesToCloser? ls = linesToCloser? ms := by
  induction h with
  | nil => rfl
  | cons hLine _ ih => rw [linesToCloser?, linesToCloser?, hasCloser_congr hLine, ih]
  | left hLine _ ih => rw [linesToCloser?_of_blank hLine, ih]; rfl
  | right hLine _ ih => rw [linesToCloser?_of_blank hLine, ← ih]; rfl

theorem blockLength?_reindented (h : Reindented ls ms) : blockLength? ls = blockLength? ms := by
  cases h with
  | nil => rfl
  | @cons line line' ls ms hLine hRest =>
    have hOpens : opensBlock line = opensBlock line' := by
      rw [← opensBlock_trim, hLine, opensBlock_trim]
    have hCloses : closesItself line = closesItself line' := by
      rw [← closesItself_trim, hLine, closesItself_trim]
    rw [blockLength?, blockLength?, hOpens, hCloses, linesToCloser?_reindented hRest]
  | left hLine _ => exact blockLength?_eq_none_of_not_opensBlock _ (opensBlock_of_blank hLine)
  | right hLine _ => exact (blockLength?_eq_none_of_not_opensBlock _ (opensBlock_of_blank hLine)).symm

theorem Doc.prose_reindented {raw raw' : Text} (h : Reindented (lines raw) (lines raw')) :
    prose raw = prose raw' := by
  have hProse (s : Text) : prose s = joinWords ((lines s).flatMap fun line =>
      if (proseLine line).isEmpty then [] else [proseLine line]) := by
    rw [prose]
    congr 1
    induction lines s with
    | nil => rfl
    | cons line ls ih =>
      rw [List.map_cons, List.filter_cons, List.flatMap_cons, ih]
      cases (proseLine line).isEmpty <;> rfl
  have hTrim (line : Text) : proseLine line = proseLine (trim line) := by
    rw [proseLine, proseLine, trim_trim]
  rw [hProse, hProse]
  exact congrArg joinWords (h.flatMap_eq (fun line => by rw [hTrim]) rfl)

theorem Doc.read_of_reindented {raw raw' : Text} (h : Reindented (lines raw) (lines raw')) :
    Doc.read raw = Doc.read raw' := by
  rw [Doc.read, Doc.read, prose_reindented h]

theorem Doc.read_joinLines (h : Reindented ls ms) (hls : ∀ l ∈ ls, '\n' ∉ l) (hms : ∀ l ∈ ms, '\n' ∉ l) :
    Doc.read (joinLines ls) = Doc.read (joinLines ms) :=
  Doc.read_of_reindented
    ((reindented_lines_joinLines hls).trans (h.trans (reindented_lines_joinLines hms).symm))

theorem Seed.search_of_blank {line : Text} (h : trim line = []) (position : Nat) (pending : Pending)
    (rest : List Text) :
    ∃ pending', Seed.search position pending (line :: rest) = Seed.search (position + 1) pending' rest := by
  cases pending with
  | comment => exact ⟨_, rfl⟩
  | directive => exact ⟨_, rfl⟩
  | nothing =>
    rw [Seed.search, h]
    exact ⟨.nothing, rfl⟩

theorem Seed.search_nil (position : Nat) (pending : Pending) : Seed.search position pending [] = none := by
  cases pending <;> rfl

theorem Seed.search_reindented (h : Reindented ls ms) (position : Nat) (pending : Pending) :
    Seed.search position pending ls = Seed.search position pending ms := by
  induction h generalizing position pending with
  | nil => rfl
  | cons hLine _ ih => cases pending <;> simp only [Seed.search, hLine, ih]
  | left hLine _ ih =>
    obtain ⟨pending', hStep⟩ := search_of_blank hLine position pending _
    rw [hStep, ih, search_nil, search_nil]
  | right hLine _ ih =>
    obtain ⟨pending', hStep⟩ := search_of_blank hLine position pending _
    rw [hStep, ← ih, search_nil, search_nil]

theorem Seed.locate_reindented (h : Reindented ls ms) (start : Nat) :
    Seed.locate ls start = Seed.locate ms start :=
  search_reindented ((h.drop start).take lookaheadLines) start .nothing

theorem functionLength?_of_blank {line : Text} (h : trim line = []) (depth : Int) (rest : List Text) :
    functionLength? depth (line :: rest) = (functionLength? depth rest).map (· + 1) := by
  have hSemicolon : (withoutComments line).contains ';' = false := contains_code_of_blank h (by decide)
  have hBalance : balance '(' ')' (withoutComments line) = 0 :=
    balance_code_of_blank h (by decide) (by decide) (by decide)
  simp only [functionLength?, hSemicolon, hBalance, Int.add_zero, Bool.false_and, Bool.false_eq_true,
    if_false]

theorem functionLength?_reindented (h : Reindented ls ms) (depth : Int) :
    functionLength? depth ls = functionLength? depth ms := by
  induction h generalizing depth with
  | nil => rfl
  | @cons line line' ls ms hLine _ ih =>
    have hSemicolon : (withoutComments line).contains ';' = (withoutComments line').contains ';' :=
      contains_code_congr hLine (by decide)
    have hBalance : balance '(' ')' (withoutComments line) = balance '(' ')' (withoutComments line') :=
      balance_code_congr hLine (by decide) (by decide) (by decide)
    simp only [functionLength?, hSemicolon, hBalance, ih]
  | left hLine _ ih => rw [functionLength?_of_blank hLine, ih]; rfl
  | right hLine _ ih => rw [functionLength?_of_blank hLine, ← ih]; rfl

theorem typeLength?_of_blank {line : Text} (h : trim line = []) (opened : Bool) (depth : Int)
    (rest : List Text) :
    typeLength? opened depth (line :: rest) = (typeLength? opened depth rest).map (· + 1) := by
  have hSemicolon : (withoutComments line).contains ';' = false := contains_code_of_blank h (by decide)
  have hBrace : (withoutComments line).contains '{' = false := contains_code_of_blank h (by decide)
  have hBalance : balance '{' '}' (withoutComments line) = 0 :=
    balance_code_of_blank h (by decide) (by decide) (by decide)
  simp only [typeLength?, hSemicolon, hBrace, hBalance, Int.add_zero, Bool.or_false, Bool.false_and,
    Bool.false_eq_true, if_false]

theorem typeLength?_reindented (h : Reindented ls ms) (opened : Bool) (depth : Int) :
    typeLength? opened depth ls = typeLength? opened depth ms := by
  induction h generalizing opened depth with
  | nil => rfl
  | @cons line line' ls ms hLine _ ih =>
    have hSemicolon : (withoutComments line).contains ';' = (withoutComments line').contains ';' :=
      contains_code_congr hLine (by decide)
    have hBrace : (withoutComments line).contains '{' = (withoutComments line').contains '{' :=
      contains_code_congr hLine (by decide)
    have hBalance : balance '{' '}' (withoutComments line) = balance '{' '}' (withoutComments line') :=
      balance_code_congr hLine (by decide) (by decide) (by decide)
    simp only [typeLength?, hSemicolon, hBrace, hBalance, ih]
  | left hLine _ ih => rw [typeLength?_of_blank hLine, ih]; rfl
  | right hLine _ ih => rw [typeLength?_of_blank hLine, ← ih]; rfl

/-- A span without the blanks that do not matter to a reader of its words. -/
def Span.normalized (span : Span) : Span := { span with text := normalize span.text }

theorem Span.functionAt?_reindented (h : Reindented ls ms) (seed : Nat) :
    (Span.functionAt? ls seed).map Span.normalized = (Span.functionAt? ms seed).map Span.normalized := by
  have hDrop := h.drop seed
  rw [Span.functionAt?, Span.functionAt?, Span.function?, Span.function?,
    functionLength?_reindented (hDrop.take spanLimit), Option.map_map, Option.map_map]
  congr 1
  funext n
  have hWords : words (joinLines (((ls.drop seed).take n).map withoutComments)) =
      words (joinLines (((ms.drop seed).take n).map withoutComments)) := by
    rw [words_joinLines, words_joinLines]
    exact ((hDrop.take n).map (fun _ _ => trim_withoutComments_congr) rfl).flatMap_eq
      (fun line => (words_trim line).symm) rfl
  simp only [Function.comp_apply, Span.normalized, Text.normalize, hWords]

/-- Two spans of one type declaration take the same number of lines, or both take the rest of the
lines that are not blank. -/
theorem Span.dataType_reindented (h : Reindented ls ms) (position : Nat) :
    (∃ n, (Span.dataType position ls).text = joinLines (ls.take n) ∧
      (Span.dataType position ms).text = joinLines (ms.take n)) ∧
    ∃ i j, (Span.dataType position ls).stop = position + i ∧
      (Span.dataType position ms).stop = position + j ∧
        (i = j ∨ Reindented (ls.drop i) [] ∧ Reindented (ms.drop j) []) := by
  unfold Span.dataType
  rw [typeLength?_reindented (h.take spanLimit)]
  split
  · rename_i n hn
    exact ⟨⟨n, rfl, rfl⟩, n, n, rfl, rfl, Or.inl rfl⟩
  · refine ⟨⟨spanLimit, rfl, rfl⟩, _, _, rfl, rfl, ?_⟩
    rw [List.length_take, List.length_take]
    exact h.drop_min spanLimit

end HeaderDigest
