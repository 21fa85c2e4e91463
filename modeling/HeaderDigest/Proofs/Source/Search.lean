import HeaderDigest.Proofs.Source.Block

/-!
# The search for a block, line by line

A cursor finds its next block by taking one line after the other. Behind an opener it takes lines
through the first that holds a closer. Where none comes it goes back to the line after the opener.
-/

namespace HeaderDigest.Cursor

open Text

variable {cursor next : Cursor} {line : Text}

theorem ahead_eq_cons_of_advance (h : cursor.advance = (some line, next)) :
    next.lines = cursor.lines ∧ next.position = cursor.position + 1 ∧ cursor.ahead = line :: next.ahead := by
  unfold advance peek? at h
  split at h
  · rename_i found hFound
    obtain ⟨hFirst, rfl⟩ := Prod.mk.inj h
    obtain rfl := Option.some.inj hFirst
    obtain ⟨hPosition, hLine⟩ := List.getElem?_eq_some_iff.mp hFound
    have hNext : (atLine cursor.lines (cursor.position + 1)).position = cursor.position + 1 :=
      Nat.min_eq_left hPosition
    refine ⟨rfl, hNext, ?_⟩
    rw [ahead, ahead, hNext, List.drop_eq_getElem_cons hPosition, hLine]
    rfl
  · cases h

theorem ahead_eq_nil_of_advance (h : cursor.advance = (none, next)) : next = cursor ∧ cursor.ahead = [] := by
  unfold advance peek? at h
  split at h
  · cases h
  · rename_i hNone
    exact ⟨(Prod.mk.inj h).2.symm, List.drop_eq_nil_of_le (List.getElem?_eq_none_iff.mp hNone)⟩

theorem length_ahead_of_advance (h : cursor.advance = (some line, next)) :
    next.ahead.length < cursor.ahead.length := by
  rw [(ahead_eq_cons_of_advance h).2.2]
  exact Nat.lt_succ_self _

theorem atLine_length (h : cursor.ahead = []) : atLine cursor.lines cursor.lines.length = cursor := by
  have hEnd : cursor.position = cursor.lines.length :=
    Nat.le_antisymm cursor.position_le (List.drop_eq_nil_iff.mp h)
  rw [← hEnd, atLine_position]

/-- The lines through the first that holds a closer, or all lines, and whether there was one. -/
def takeThroughCloser (cursor : Cursor) : List Text × Bool × Cursor :=
  match _h : cursor.advance with
  | (none, next) => ([], false, next)
  | (some line, next) =>
    if hasPart ['*', '/'] line then ([line], true, next)
    else
      let (lines, isClosed, last) := next.takeThroughCloser
      (line :: lines, isClosed, last)
termination_by cursor.ahead.length
decreasing_by exact length_ahead_of_advance _h

theorem takeThroughCloser_eq (cursor : Cursor) :
    cursor.takeThroughCloser =
      match linesToCloser? cursor.ahead with
      | some n => (cursor.ahead.take n, true, atLine cursor.lines (cursor.position + n))
      | none => (cursor.ahead, false, atLine cursor.lines cursor.lines.length) := by
  fun_induction takeThroughCloser cursor with
  | case1 cursor next h =>
    obtain ⟨rfl, hNil⟩ := ahead_eq_nil_of_advance h
    rw [hNil, linesToCloser?, atLine_length hNil]
  | case2 cursor line next h hCloser =>
    obtain ⟨hLines, hPosition, hAhead⟩ := ahead_eq_cons_of_advance h
    rw [hAhead, linesToCloser?, if_pos hCloser]
    simp only [← hLines, ← hPosition, atLine_position, List.take_succ_cons, List.take_zero]
  | case3 cursor line next h hCloser lines isClosed last hTake ih =>
    obtain ⟨hLines, hPosition, hAhead⟩ := ahead_eq_cons_of_advance h
    rw [ih] at hTake
    rw [hAhead, linesToCloser?, if_neg hCloser, ← hLines]
    cases hRest : linesToCloser? next.ahead with
    | none =>
      rw [hRest] at hTake
      cases hTake
      rfl
    | some n =>
      rw [hRest] at hTake
      cases hTake
      rw [hPosition, Nat.add_right_comm]
      rfl

theorem position_add_le {n : Nat} (h : linesToCloser? cursor.ahead = some n) :
    cursor.position + n ≤ cursor.lines.length := by
  obtain ⟨m, rfl, ⟨_, hLine, -⟩, -⟩ := linesToCloser?_eq_some_iff.mp h
  obtain ⟨hLength, -⟩ := List.getElem?_eq_some_iff.mp hLine
  rw [ahead, List.length_drop] at hLength
  omega

theorem lines_takeThroughCloser (cursor : Cursor) : cursor.takeThroughCloser.2.2.lines = cursor.lines := by
  rw [takeThroughCloser_eq]
  split <;> rfl

/-- The search for the next block. An opener without a closer is left by the mark behind it. -/
def search (cursor : Cursor) : Option Block × Cursor :=
  match _h : cursor.advance with
  | (none, next) => (none, next)
  | (some line, next) =>
    if opensBlock line then
      let start := next.position - 1
      if closesItself line then (some ⟨line, start, next.position⟩, next)
      else
        match _hTake : next.takeThroughCloser with
        | (lines, true, last) => (some ⟨joinLines (line :: lines), start, last.position⟩, last)
        | (_, false, last) => (last.reset next.mark).search
    else next.search
termination_by cursor.ahead.length
decreasing_by
  · have hLines := lines_takeThroughCloser next
    rw [_hTake] at hLines
    rw [reset_mark hLines]
    exact length_ahead_of_advance _h
  · exact length_ahead_of_advance _h

theorem nextBlock_of_blockLength?_eq_none (h : cursor.advance = (some line, next))
    (hNone : blockLength? (line :: next.ahead) = none) : cursor.nextBlock = next.nextBlock := by
  obtain ⟨hLines, hPosition, hAhead⟩ := ahead_eq_cons_of_advance h
  rw [nextBlock, nextBlock, hAhead, Block.first?, hNone, hPosition, hLines]

theorem nextBlock_of_blockLength?_eq_some {n : Nat} (h : cursor.advance = (some line, next))
    (hSome : blockLength? (line :: next.ahead) = some (n + 1)) :
    cursor.nextBlock =
      (some ⟨joinLines (line :: next.ahead.take n), next.position - 1, next.position + n⟩,
        atLine next.lines (next.position + n)) := by
  obtain ⟨hLines, hPosition, hAhead⟩ := ahead_eq_cons_of_advance h
  rw [nextBlock, hAhead, Block.first?, hSome, hPosition, hLines, Nat.add_sub_cancel, Nat.add_right_comm]
  rfl

/-- The next block is the one that the search finds, and leaves the cursor where the search does. -/
theorem nextBlock_eq_search (cursor : Cursor) : cursor.nextBlock = cursor.search := by
  fun_induction search cursor with
  | case1 cursor next h =>
    obtain ⟨rfl, hNil⟩ := ahead_eq_nil_of_advance h
    rw [nextBlock, hNil, Block.first?, atLine_length hNil]
  | case2 cursor line next h hOpens start hCloses =>
    have hLength : blockLength? (line :: next.ahead) = some 1 := by
      rw [blockLength?, hOpens, hCloses]
      rfl
    rw [nextBlock_of_blockLength?_eq_some h hLength, Nat.add_zero, atLine_position, List.take_zero,
      joinLines, List.intercalate_singleton]
  | case3 cursor line next h hOpens start hCloses lines last hTake =>
    rw [takeThroughCloser_eq] at hTake
    cases hCloser : linesToCloser? next.ahead with
    | none =>
      rw [hCloser] at hTake
      cases hTake
    | some n =>
      rw [hCloser] at hTake
      cases hTake
      have hLength : blockLength? (line :: next.ahead) = some (n + 1) := by
        rw [blockLength?, hOpens, Bool.eq_false_iff.mpr hCloses, hCloser]
        rfl
      have hPlace : (atLine next.lines (next.position + n)).position = next.position + n :=
        Nat.min_eq_left (position_add_le hCloser)
      rw [nextBlock_of_blockLength?_eq_some h hLength, hPlace]
  | case4 cursor line next h hOpens hCloses lines last hTake ih =>
    rw [takeThroughCloser_eq] at hTake
    cases hCloser : linesToCloser? next.ahead with
    | none =>
      rw [hCloser] at hTake
      cases hTake
      have hLength : blockLength? (line :: next.ahead) = none := by
        rw [blockLength?, hOpens, Bool.eq_false_iff.mpr hCloses, hCloser]
        rfl
      have hBack : (atLine next.lines next.lines.length).reset next.mark = next := reset_mark rfl
      rw [nextBlock_of_blockLength?_eq_none h hLength, ← ih, hBack]
    | some n =>
      rw [hCloser] at hTake
      cases hTake
  | case5 cursor line next h hOpens ih =>
    have hLength : blockLength? (line :: next.ahead) = none := by
      rw [blockLength?, Bool.eq_false_iff.mpr hOpens]
      rfl
    rw [nextBlock_of_blockLength?_eq_none h hLength, ih]

end HeaderDigest.Cursor
