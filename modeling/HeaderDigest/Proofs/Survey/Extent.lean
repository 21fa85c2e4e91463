import HeaderDigest.Declaration.Seed
import HeaderDigest.Declaration.Span

/-!
# Where blocks, seeds and spans lie

A block, the seed behind it and the span of the declaration follow one another among the lines of
a file, and none of them is empty or reaches behind the last line.
-/

namespace HeaderDigest

open Text

theorem linesToCloser?_bounds {ls : List Text} {n : Nat} (h : linesToCloser? ls = some n) :
    0 < n ∧ n ≤ ls.length := by
  induction ls generalizing n with
  | nil => cases h
  | cons line rest ih =>
    rw [linesToCloser?] at h
    split at h
    · cases h
      simp
    · obtain ⟨m, hm, rfl⟩ := Option.map_eq_some_iff.mp h
      have := ih hm
      simp only [List.length_cons]
      omega

theorem blockLength?_bounds {ls : List Text} {n : Nat} (h : blockLength? ls = some n) :
    0 < n ∧ n ≤ ls.length := by
  cases ls with
  | nil => cases h
  | cons line rest =>
    rw [blockLength?] at h
    split at h
    · cases h
    · split at h
      · cases h
        simp
      · obtain ⟨m, hm, rfl⟩ := Option.map_eq_some_iff.mp h
        have := linesToCloser?_bounds hm
        simp only [List.length_cons]
        omega

theorem linesToCloser?_append {ls : List Text} {n : Nat} (h : linesToCloser? ls = some n)
    (more : List Text) : linesToCloser? (ls ++ more) = some n := by
  induction ls generalizing n with
  | nil => cases h
  | cons line rest ih =>
    rw [linesToCloser?] at h
    rw [List.cons_append, linesToCloser?]
    split at h
    · rename_i hCloser
      rwa [if_pos hCloser]
    · rename_i hCloser
      obtain ⟨m, hm, rfl⟩ := Option.map_eq_some_iff.mp h
      rw [if_neg hCloser, ih hm, Option.map_some]

theorem blockLength?_append {ls : List Text} {n : Nat} (h : blockLength? ls = some n)
    (more : List Text) : blockLength? (ls ++ more) = some n := by
  cases ls with
  | nil => cases h
  | cons line rest =>
    rw [blockLength?] at h
    rw [List.cons_append, blockLength?]
    split at h
    · cases h
    · rename_i hOpens
      rw [if_neg hOpens]
      split at h
      · rename_i hSelf
        rwa [if_pos hSelf]
      · rename_i hSelf
        obtain ⟨m, hm, rfl⟩ := Option.map_eq_some_iff.mp h
        rw [if_neg hSelf, linesToCloser?_append hm, Option.map_some]

theorem blockLength?_eq_none_of_not_opensBlock {line : Text} (rest : List Text)
    (h : opensBlock line = false) : blockLength? (line :: rest) = none := by
  simp [blockLength?, h]

theorem Seed.search_eq_some {position : Nat} {pending : Pending} {ls : List Text} {seed : Seed}
    (h : Seed.search position pending ls = some seed) :
    ∃ i line, seed.line = position + i ∧ ls[i]? = some line ∧
      LineRole.of (trim line) = .seed seed.kind := by
  induction ls generalizing position pending with
  | nil => cases pending <;> cases h
  | cons line rest ih =>
    have later {pending : Pending} (h : Seed.search (position + 1) pending rest = some seed) :
        ∃ i l, seed.line = position + i ∧ (line :: rest)[i]? = some l ∧
          LineRole.of (trim l) = .seed seed.kind := by
      obtain ⟨i, l, hLine, hl, hRole⟩ := ih h
      exact ⟨i + 1, l, by omega, by simpa using hl, hRole⟩
    cases pending with
    | comment => exact later h
    | directive => exact later h
    | nothing =>
      rw [Seed.search] at h
      split at h
      · cases h
      · exact later h
      · rename_i kind hRole
        cases h
        exact ⟨0, line, rfl, rfl, hRole⟩

theorem Seed.locate_eq_some {lines : List Text} {start : Nat} {seed : Seed}
    (h : Seed.locate lines start = some seed) :
    start ≤ seed.line ∧ seed.line < lines.length ∧
      ∃ line, lines[seed.line]? = some line ∧ LineRole.of (trim line) = .seed seed.kind := by
  obtain ⟨i, line, hLine, hl, hRole⟩ := Seed.search_eq_some h
  rw [List.getElem?_take] at hl
  split at hl
  · rw [List.getElem?_drop, ← hLine] at hl
    exact ⟨by omega, (List.getElem?_eq_some_iff.mp hl).1, line, hl, hRole⟩
  · cases hl

theorem isTypeSeed_of_role {line : Text} (h : LineRole.of line = .seed .dataType) :
    isTypeSeed line = true := by
  unfold LineRole.of at h
  repeat' split at h
  all_goals first | assumption | cases h

theorem looksLikeFunctionStart_of_role {line : Text} (h : LineRole.of line = .seed .function) :
    looksLikeFunctionStart line = true ∧ isTypeSeed line = false := by
  unfold LineRole.of at h
  repeat' split at h
  all_goals first | (cases h; done) | skip
  rename_i hType hFunction
  exact ⟨hFunction, Bool.eq_false_iff.mpr hType⟩

theorem functionLength?_bounds {depth : Int} {ls : List Text} {n : Nat}
    (h : functionLength? depth ls = some n) : 0 < n ∧ n ≤ ls.length := by
  induction ls generalizing depth n with
  | nil => cases h
  | cons line rest ih =>
    rw [functionLength?] at h
    split at h
    · cases h
      simp
    · obtain ⟨m, hm, rfl⟩ := Option.map_eq_some_iff.mp h
      have := ih hm
      simp only [List.length_cons]
      omega

theorem typeLength?_bounds {opened : Bool} {depth : Int} {ls : List Text} {n : Nat}
    (h : typeLength? opened depth ls = some n) : 0 < n ∧ n ≤ ls.length := by
  induction ls generalizing opened depth n with
  | nil => cases h
  | cons line rest ih =>
    rw [typeLength?] at h
    split at h
    · cases h
      simp
    · obtain ⟨m, hm, rfl⟩ := Option.map_eq_some_iff.mp h
      have := ih hm
      simp only [List.length_cons]
      omega

theorem typeLength?_append {opened : Bool} {depth : Int} {ls : List Text} {n : Nat}
    (h : typeLength? opened depth ls = some n) (more : List Text) :
    typeLength? opened depth (ls ++ more) = some n := by
  induction ls generalizing opened depth n with
  | nil => cases h
  | cons line rest ih =>
    rw [typeLength?] at h
    rw [List.cons_append, typeLength?]
    split at h
    · rename_i hEnd
      rwa [if_pos hEnd]
    · rename_i hEnd
      obtain ⟨m, hm, rfl⟩ := Option.map_eq_some_iff.mp h
      rw [if_neg hEnd, ih hm, Option.map_some]

/-- The lines of a type declaration alone have the same length. -/
theorem typeLength?_take {opened : Bool} {depth : Int} {ls : List Text} {n : Nat}
    (h : typeLength? opened depth ls = some n) : typeLength? opened depth (ls.take n) = some n := by
  induction ls generalizing opened depth n with
  | nil => cases h
  | cons line rest ih =>
    rw [typeLength?] at h
    split at h
    · rename_i hEnd
      cases h
      rw [List.take_succ_cons, typeLength?, if_pos hEnd]
    · rename_i hEnd
      obtain ⟨m, hm, rfl⟩ := Option.map_eq_some_iff.mp h
      rw [List.take_succ_cons, typeLength?, if_neg hEnd, ih hm, Option.map_some]

theorem Span.functionAt?_eq_some {lines : List Text} {seed : Nat} {span : Span}
    (h : Span.functionAt? lines seed = some span) :
    span.start = seed ∧ seed < span.stop ∧ span.stop ≤ lines.length := by
  obtain ⟨n, hn, rfl⟩ := Option.map_eq_some_iff.mp h
  have := functionLength?_bounds hn
  simp only [List.length_take, List.length_drop] at this
  exact ⟨rfl, by simp only; omega, by simp only; omega⟩

theorem Span.dataTypeAt_bounds {lines : List Text} {seed : Nat} (h : seed < lines.length) :
    (Span.dataTypeAt lines seed).start = seed ∧ seed < (Span.dataTypeAt lines seed).stop ∧
      (Span.dataTypeAt lines seed).stop ≤ lines.length := by
  have key : (Span.dataType seed (lines.drop seed)).start = seed ∧
      seed < (Span.dataType seed (lines.drop seed)).stop := by
    unfold Span.dataType
    split
    · rename_i n hn
      exact ⟨rfl, by have := typeLength?_bounds hn; simp only; omega⟩
    · refine ⟨rfl, ?_⟩
      simp only [List.length_take, List.length_drop, spanLimit]
      omega
  refine ⟨key.1, ?_, Nat.min_le_right _ _⟩
  exact Nat.lt_min.mpr ⟨key.2, h⟩

/-- Before the last line, the span of a type declaration needs no cutting at the end of the file. -/
theorem Span.dataType_drop {lines : List Text} {seed : Nat} (h : seed < lines.length) :
    Span.dataType seed (lines.drop seed) = Span.dataTypeAt lines seed := by
  have hStop : (Span.dataType seed (lines.drop seed)).stop ≤ lines.length := by
    unfold Span.dataType
    split
    · rename_i n hn
      have := typeLength?_bounds hn
      simp only [List.length_take, List.length_drop] at this ⊢
      omega
    · simp only [List.length_take, List.length_drop, spanLimit]
      omega
  simp only [Span.dataTypeAt, Nat.min_eq_left hStop]

theorem Span.text_dataTypeAt (lines : List Text) (seed : Nat) (h : seed < lines.length) :
    (Span.dataTypeAt lines seed).text =
      joinLines ((lines.drop seed).take ((Span.dataTypeAt lines seed).stop - seed)) := by
  rw [← Span.dataType_drop h]
  unfold Span.dataType
  split
  · simp
  · rw [List.take_eq_take_min, List.length_drop]
    simp

/-- A type declaration cut out of its lines is its own span, and the first line is still there. -/
theorem Span.exists_dataType_eq (position : Nat) (line : Text) (rest : List Text) :
    ∃ more, (Span.dataType position (line :: rest)).text = joinLines (line :: more) ∧
      (∀ l ∈ more, l ∈ rest) ∧
      ∀ position', Span.dataType position' (line :: more) =
        ⟨position', position' + (line :: more).length, joinLines (line :: more),
          (Span.dataType position (line :: rest)).terminated⟩ := by
  have hLimit (n : Nat) (hn : 0 < n) : (line :: rest).take n = line :: rest.take (n - 1) := by
    cases n with
    | zero => cases hn
    | succ n => rfl
  unfold Span.dataType
  cases h : typeLength? false 0 ((line :: rest).take spanLimit) with
  | some n =>
    have hBounds := typeLength?_bounds h
    rw [List.length_take] at hBounds
    have hTaken : (((line :: rest).take spanLimit).take n) = line :: rest.take (n - 1) := by
      rw [List.take_take, Nat.min_eq_left (by omega), hLimit n hBounds.1]
    have hLength : (line :: rest.take (n - 1)).length = n := by
      rw [← hTaken, List.length_take, List.length_take]
      omega
    have hSelf := typeLength?_take h
    rw [hTaken] at hSelf
    refine ⟨rest.take (n - 1), ?_, fun l hl => List.mem_of_mem_take hl, ?_⟩
    · simp only [hLimit n hBounds.1]
    · intro position'
      rw [List.take_of_length_le (by omega), hSelf]
      simp only [hLength, List.take_of_length_le (Nat.le_of_eq hLength)]
  | none =>
    have hLength : ((line :: rest).take spanLimit).length ≤ spanLimit := by
      rw [List.length_take]
      omega
    have hTaken := hLimit spanLimit (by decide)
    rw [hTaken] at h hLength
    refine ⟨rest.take (spanLimit - 1), ?_, fun l hl => List.mem_of_mem_take hl, ?_⟩
    · simp only [hTaken]
    · intro position'
      rw [List.take_of_length_le hLength, h]

end HeaderDigest
