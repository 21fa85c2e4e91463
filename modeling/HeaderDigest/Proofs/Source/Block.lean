import HeaderDigest.Proofs.Text.Blanks
import HeaderDigest.Source.Block

/-!
# Documentation blocks in a file

Where a line opens a block, and which line closes it. The block found from a line on is that of the
first line that opens one which closes, and no block is found exactly when there is no such line.
-/

namespace HeaderDigest

open Text

/-- A line that begins, blanks aside, with an opener that does not speak of what stands before. -/
def HasOpener (line : Text) : Prop :=
  ∃ front rest, (∀ c ∈ front, isBlank c = true) ∧ line = front ++ '/' :: '*' :: '*' :: rest ∧
    rest.head? ≠ some '<'

def HasCloser (line : Text) : Prop := ['*', '/'] <:+: line

theorem trimStart_blank_append_slash {front : Text} (h : ∀ c ∈ front, isBlank c = true) (s : Text) :
    trimStart (front ++ '/' :: s) = '/' :: s := by
  rw [trimStart_append_of_blank _ h]
  exact List.dropWhile_cons_of_neg (by decide)

theorem opensBlock_iff {line : Text} : opensBlock line = true ↔ HasOpener line := by
  constructor
  · intro h
    obtain ⟨front, hFront, hLine⟩ := exists_eq_append_trimStart line
    obtain ⟨hOpener, hTrailing⟩ := Bool.and_eq_true_iff.mp h
    obtain ⟨rest, hRest⟩ := List.isPrefixOf_iff_prefix.mp hOpener
    refine ⟨front, rest, hFront, by rw [hLine, ← hRest]; rfl, ?_⟩
    intro hHead
    obtain ⟨more, rfl⟩ := List.head?_eq_some_iff.mp hHead
    rw [← hRest] at hTrailing
    simp [startsWith] at hTrailing
  · rintro ⟨front, rest, hFront, rfl, hHead⟩
    rw [opensBlock, trimStart_blank_append_slash hFront]
    cases rest with
    | nil => rfl
    | cons c rest =>
      have hc : '<' ≠ c := fun hc => hHead (congrArg some hc.symm)
      simp [startsWith, List.isPrefixOf, hc]

/-- The second star of an opener may belong to the closer, but not the first. -/
theorem closesItself_iff {line : Text} (h : HasOpener line) : closesItself line = true ↔ HasCloser line := by
  obtain ⟨front, rest, hFront, rfl, -⟩ := h
  have hStar : '*' ∉ front ++ ['/'] := by
    rw [List.mem_append, not_or]
    exact ⟨not_mem_of_blank hFront (by decide), by decide⟩
  have hSplit : front ++ '/' :: '*' :: '*' :: rest = (front ++ ['/']) ++ '*' :: '*' :: rest := by simp
  have hFirst : ¬['*', '/'] <+: '*' :: '*' :: rest :=
    fun hPrefix => absurd (List.cons_prefix_cons.mp (List.cons_prefix_cons.mp hPrefix).2).1 (by decide)
  rw [closesItself, trimStart_blank_append_slash hFront, HasCloser, hSplit, infix_append_iff_of_not_mem hStar,
    List.infix_cons_iff, or_iff_right hFirst]
  exact hasPart_iff

/-- Line `start` opens a block, and line `stop` is the first from there on that closes it. -/
structure Delimits (all : List Text) (start stop : Nat) : Prop where
  opens : ∃ line ∈ all[start]?, HasOpener line
  start_le : start ≤ stop
  closes : ∃ line ∈ all[stop]?, HasCloser line
  first : ∀ i, start ≤ i → i < stop → ∀ line ∈ all[i]?, ¬HasCloser line

def Block.ofLines (all : List Text) (start stop : Nat) : Block where
  text := joinLines ((all.drop start).take (stop + 1 - start))
  startLine := start
  nextLine := stop + 1

/-- The block of the first line at or after a position that opens a block which closes. -/
structure Block.IsNext (all : List Text) (position : Nat) (block : Block) : Prop where
  exists_delimits : ∃ stop, Delimits all block.startLine stop ∧
    block = Block.ofLines all block.startLine stop
  position_le : position ≤ block.startLine
  first : ∀ start, position ≤ start → start < block.startLine → ∀ stop, ¬Delimits all start stop

variable {all : List Text} {start stop : Nat}

theorem delimits_drop (all : List Text) (passed start stop : Nat) :
    Delimits (all.drop passed) start stop ↔ Delimits all (passed + start) (passed + stop) := by
  constructor
  · rintro ⟨hOpens, hLe, hCloses, hFirst⟩
    rw [List.getElem?_drop] at hOpens hCloses
    refine ⟨hOpens, Nat.add_le_add_left hLe passed, hCloses, ?_⟩
    intro i hStart hStop line hLine
    obtain ⟨j, rfl⟩ := Nat.exists_eq_add_of_le (Nat.le_of_add_right_le hStart)
    exact hFirst j (Nat.le_of_add_le_add_left hStart) (Nat.lt_of_add_lt_add_left hStop) line
      (by rwa [List.getElem?_drop])
  · rintro ⟨hOpens, hLe, hCloses, hFirst⟩
    refine ⟨by rwa [List.getElem?_drop], Nat.le_of_add_le_add_left hLe, by rwa [List.getElem?_drop], ?_⟩
    intro i hStart hStop line hLine
    rw [List.getElem?_drop] at hLine
    exact hFirst (passed + i) (Nat.add_le_add_left hStart passed) (Nat.add_lt_add_left hStop passed)
      line hLine

/-- Line `n` is the first that holds a closer. -/
structure FirstCloser (ls : List Text) (n : Nat) : Prop where
  closes : ∃ line ∈ ls[n]?, HasCloser line
  before : ∀ i < n, ∀ line ∈ ls[i]?, ¬HasCloser line

theorem firstCloser_cons_zero (line : Text) (rest : List Text) :
    FirstCloser (line :: rest) 0 ↔ HasCloser line :=
  ⟨fun h => by simpa using h.closes, fun h => ⟨⟨line, rfl, h⟩, fun i hi => absurd hi (Nat.not_lt_zero i)⟩⟩

theorem firstCloser_cons_succ (line : Text) (rest : List Text) (n : Nat) :
    FirstCloser (line :: rest) (n + 1) ↔ ¬HasCloser line ∧ FirstCloser rest n := by
  constructor
  · rintro ⟨hCloses, hBefore⟩
    obtain ⟨hFirst, hRest⟩ := Nat.forall_lt_succ_left.mp hBefore
    exact ⟨hFirst line rfl, hCloses, hRest⟩
  · rintro ⟨hLine, hCloses, hRest⟩
    refine ⟨hCloses, Nat.forall_lt_succ_left.mpr ⟨?_, hRest⟩⟩
    intro first hFirst
    exact Option.some.inj hFirst ▸ hLine

theorem linesToCloser?_eq_some_iff {ls : List Text} {n : Nat} :
    linesToCloser? ls = some n ↔ ∃ m, n = m + 1 ∧ FirstCloser ls m := by
  induction ls generalizing n with
  | nil =>
    refine ⟨fun h => (by cases h), ?_⟩
    rintro ⟨m, -, ⟨line, hLine, -⟩, -⟩
    cases hLine
  | cons line rest ih =>
    rw [linesToCloser?]
    by_cases hLine : HasCloser line
    · rw [if_pos (hasPart_iff.mpr hLine)]
      constructor
      · rintro ⟨⟩
        exact ⟨0, rfl, (firstCloser_cons_zero line rest).mpr hLine⟩
      · rintro ⟨m, rfl, hFirst⟩
        cases m with
        | zero => rfl
        | succ m => exact absurd hLine ((firstCloser_cons_succ line rest m).mp hFirst).1
    · rw [if_neg (mt hasPart_iff.mp hLine), Option.map_eq_some_iff]
      constructor
      · rintro ⟨m, hRest, rfl⟩
        obtain ⟨m, rfl, hFirst⟩ := ih.mp hRest
        exact ⟨m + 1, rfl, (firstCloser_cons_succ line rest m).mpr ⟨hLine, hFirst⟩⟩
      · rintro ⟨m, rfl, hFirst⟩
        cases m with
        | zero => exact absurd ((firstCloser_cons_zero line rest).mp hFirst) hLine
        | succ m =>
          exact ⟨m + 1, ih.mpr ⟨m, rfl, ((firstCloser_cons_succ line rest m).mp hFirst).2⟩, rfl⟩

/-- A block opens on its first line, and the first closer in its lines ends it. -/
theorem blockLength?_eq_some_iff {line : Text} {rest : List Text} {n : Nat} :
    blockLength? (line :: rest) = some n ↔
      HasOpener line ∧ ∃ m, n = m + 1 ∧ FirstCloser (line :: rest) m := by
  rw [blockLength?]
  by_cases hOpens : HasOpener line
  · rw [opensBlock_iff.mpr hOpens, Bool.not_true, if_neg Bool.false_ne_true,
      ← linesToCloser?_eq_some_iff, linesToCloser?, and_iff_right hOpens]
    have hSelf : closesItself line = hasPart ['*', '/'] line := by
      rw [Bool.eq_iff_iff, closesItself_iff hOpens, hasPart_iff, HasCloser]
    rw [hSelf]
  · rw [Bool.eq_false_iff.mpr (mt opensBlock_iff.mp hOpens)]
    simp [hOpens]

theorem delimits_zero_iff (line : Text) (rest : List Text) (stop : Nat) :
    Delimits (line :: rest) 0 stop ↔ HasOpener line ∧ FirstCloser (line :: rest) stop := by
  constructor
  · rintro ⟨⟨first, hLine, hOpens⟩, -, hCloses, hFirst⟩
    exact ⟨Option.some.inj hLine ▸ hOpens, hCloses, fun i => hFirst i (Nat.zero_le i)⟩
  · rintro ⟨hOpens, hCloses, hBefore⟩
    exact ⟨⟨line, rfl, hOpens⟩, Nat.zero_le stop, hCloses, fun i _ => hBefore i⟩

theorem blockLength?_drop_eq_some_iff {n : Nat} :
    blockLength? (all.drop start) = some n ↔ Delimits all start (start + n - 1) ∧ 0 < n := by
  by_cases hStart : start < all.length
  · rw [List.drop_eq_getElem_cons hStart, blockLength?_eq_some_iff]
    have hDelimits (m : Nat) : Delimits all start (start + m) ↔ HasOpener all[start] ∧
        FirstCloser (all[start] :: all.drop (start + 1)) m := by
      rw [← delimits_zero_iff, ← List.drop_eq_getElem_cons hStart, delimits_drop, Nat.add_zero]
    constructor
    · rintro ⟨hOpens, m, rfl, hFirst⟩
      exact ⟨(hDelimits m).mpr ⟨hOpens, hFirst⟩, Nat.succ_pos m⟩
    · rintro ⟨hBlock, hPositive⟩
      obtain ⟨m, rfl⟩ := Nat.exists_eq_succ_of_ne_zero (Nat.pos_iff_ne_zero.mp hPositive)
      obtain ⟨hOpens, hFirst⟩ := (hDelimits m).mp hBlock
      exact ⟨hOpens, m, rfl, hFirst⟩
  · have hEnd := Nat.le_of_not_lt hStart
    rw [List.drop_eq_nil_of_le hEnd]
    refine ⟨fun h => (by cases h), ?_⟩
    rintro ⟨⟨⟨line, hLine, -⟩, -, -, -⟩, -⟩
    rw [List.getElem?_eq_none hEnd] at hLine
    cases hLine

theorem Delimits.lt_length (h : Delimits all start stop) : stop < all.length := by
  obtain ⟨line, hLine, -⟩ := h.closes
  exact (List.getElem?_eq_some_iff.mp hLine).1

theorem Delimits.blockLength? (h : Delimits all start stop) :
    blockLength? (all.drop start) = some (stop + 1 - start) := by
  have := h.start_le
  refine blockLength?_drop_eq_some_iff.mpr ⟨?_, by omega⟩
  rwa [show start + (stop + 1 - start) - 1 = stop by omega]

theorem Block.IsNext.of_succ {position : Nat} {block : Block}
    (hNone : ∀ stop, ¬Delimits all position stop) (h : block.IsNext all (position + 1)) :
    block.IsNext all position where
  exists_delimits := h.exists_delimits
  position_le := Nat.le_of_succ_le h.position_le
  first start hPosition hStart := by
    obtain rfl | hPosition := Nat.eq_or_lt_of_le hPosition
    · exact hNone
    · exact h.first start hPosition hStart

theorem Block.IsNext.nextLine_le {position : Nat} {block : Block} (h : block.IsNext all position) :
    block.startLine < block.nextLine ∧ block.nextLine ≤ all.length := by
  obtain ⟨stop, hBlock, hText⟩ := h.exists_delimits
  have hNext : block.nextLine = stop + 1 := congrArg Block.nextLine hText
  have := hBlock.start_le
  have := hBlock.lt_length
  omega

theorem Block.first?_spec (all : List Text) (position : Nat) :
    match Block.first? position (all.drop position) with
    | some block => block.IsNext all position
    | none => ∀ start, position ≤ start → ∀ stop, ¬Delimits all start stop := by
  induction hLeft : all.length - position generalizing position with
  | zero =>
    have hEnd : all.length ≤ position := by omega
    rw [List.drop_eq_nil_of_le hEnd]
    intro start hStart stop hBlock
    have := hBlock.lt_length
    have := hBlock.start_le
    omega
  | succ left ih =>
    have hPosition : position < all.length := by omega
    have hLines := List.drop_eq_getElem_cons hPosition
    rw [hLines, Block.first?, ← hLines]
    cases hLength : blockLength? (all.drop position) with
    | some n =>
      obtain ⟨hBlock, hPositive⟩ := blockLength?_drop_eq_some_iff.mp hLength
      have hStop : position + n - 1 + 1 = position + n := by omega
      refine ⟨⟨position + n - 1, hBlock, ?_⟩, Nat.le_refl position, ?_⟩
      · rw [Block.ofLines, hStop, Nat.add_sub_cancel_left]
      · exact fun start hFrom hBefore => absurd hBefore (Nat.not_lt_of_le hFrom)
    | none =>
      have hNone (stop : Nat) (hBlock : Delimits all position stop) : False := by
        rw [hBlock.blockLength?] at hLength
        cases hLength
      have hRest := ih (position + 1) (by omega)
      dsimp only
      split
      · rename_i block hFound
        rw [hFound] at hRest
        exact hRest.of_succ hNone
      · rename_i hFound
        rw [hFound] at hRest
        intro start hStart
        obtain rfl | hStart := Nat.eq_or_lt_of_le hStart
        · exact hNone
        · exact hRest start hStart

end HeaderDigest
