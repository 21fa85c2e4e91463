import HeaderDigest.Proofs.Source.Block
import Mathlib.Data.List.Chain

/-!
# Finding blocks with a cursor

A cursor that is asked for the next block goes to the first line at or after its position that
opens a block which closes, and one that is told to skip never goes back. However the two are mixed,
the blocks that are found lie one behind the other, none begins before a line that was skipped to,
and nothing that opens and closes is missed but inside a block that was found or before such a line.
-/

namespace HeaderDigest

open Text

namespace Cursor

variable {all : List Text} {start stop : Nat}

inductive Move
  | next
  | skipTo (line : Nat)

def move (cursor : Cursor) : Move → Option Block × Cursor
  | .next => cursor.nextBlock
  | .skipTo line => (none, cursor.skipTo line)

/-- A move with the positions before and after it and the block that it finds. -/
structure Step where
  before : Nat
  move : Move
  answer : Option Block
  after : Nat

def steps (cursor : Cursor) : List Move → List Step
  | [] => []
  | move :: moves =>
    let (answer, cursor') := cursor.move move
    ⟨cursor.position, move, answer, cursor'.position⟩ :: cursor'.steps moves

/-- What a step may do. -/
inductive Step.Sound (all : List Text) : Step → Prop
  | found {position : Nat} {block : Block} (h : block.IsNext all position) :
      Sound all ⟨position, .next, some block, block.nextLine⟩
  | exhausted {position : Nat} (h : ∀ start, position ≤ start → ∀ stop, ¬Delimits all start stop) :
      Sound all ⟨position, .next, none, all.length⟩
  | skipped (position line : Nat) :
      Sound all ⟨position, .skipTo line, none, max position (min line all.length)⟩

theorem sound_move (cursor : Cursor) (move : Move) :
    Step.Sound cursor.lines
      ⟨cursor.position, move, (cursor.move move).1, (cursor.move move).2.position⟩ := by
  cases move with
  | next =>
    have hSpec := Block.first?_spec cursor.lines cursor.position
    rw [Cursor.move, Cursor.nextBlock, Cursor.ahead]
    split
    · rename_i block hFound
      rw [hFound] at hSpec
      have hAfter : (atLine cursor.lines block.nextLine).position = block.nextLine :=
        Nat.min_eq_left hSpec.nextLine_le.2
      rw [hAfter]
      exact Step.Sound.found hSpec
    · rename_i hFound
      rw [hFound] at hSpec
      have hAfter : (atLine cursor.lines cursor.lines.length).position = cursor.lines.length :=
        Nat.min_self _
      rw [hAfter]
      exact Step.Sound.exhausted hSpec
  | skipTo line =>
    have hAfter : (cursor.skipTo line).position = max cursor.position (min line cursor.lines.length) := by
      have := cursor.position_le
      unfold Cursor.skipTo
      split
      · simp only [atLine]
        omega
      · omega
    rw [Cursor.move, hAfter]
    exact Step.Sound.skipped cursor.position line

theorem lines_move (cursor : Cursor) (move : Move) : (cursor.move move).2.lines = cursor.lines := by
  cases move with
  | next =>
    rw [Cursor.move, Cursor.nextBlock]
    split <;> rfl
  | skipTo line =>
    rw [Cursor.move, Cursor.skipTo]
    split <;> rfl

def Step.skipTarget? (step : Step) : Option Nat :=
  match step.move with
  | .next => none
  | .skipTo line => some line

/-- A line that opens a block was accounted for: the block was found, or the line stands in another
block that was found, or before a line that was skipped to. -/
inductive Accounted (steps : List Step) (start : Nat) : Prop
  | yielded {step : Step} (hStep : step ∈ steps) {block : Block} (hBlock : step.answer = some block)
      (h : block.startLine = start)
  | inside {step : Step} (hStep : step ∈ steps) {block : Block} (hBlock : step.answer = some block)
      (hStart : block.startLine < start) (hNext : start < block.nextLine)
  | skipped {step : Step} (hStep : step ∈ steps) {line : Nat} (hLine : step.skipTarget? = some line)
      (h : start < line)

/-- What holds of the steps that a cursor takes, from the first line on, in whatever moves. -/
structure Locates (all : List Text) (moves : List Move) (steps : List Step) : Prop where
  moves : steps.map Step.move = moves
  start : ∀ step ∈ steps.head?, step.before = 0
  chain : steps.IsChain fun a b => b.before = a.after
  sound : ∀ step ∈ steps, step.Sound all
  forward : ∀ step ∈ steps, step.before ≤ step.after
  apart : steps.Pairwise fun a b => ∀ earlier later, a.answer = some earlier → b.answer = some later →
    earlier.nextLine ≤ later.startLine
  behind_skips : steps.Pairwise fun a b => ∀ line block, a.skipTarget? = some line →
    b.answer = some block → line ≤ block.startLine
  passed : ∀ start stop, Delimits all start stop → (∃ step ∈ steps, start < step.after) →
    Accounted steps start
  exhausted : (∃ step ∈ steps, step.skipTarget? = none ∧ step.answer = none) →
    ∀ start stop, Delimits all start stop → Accounted steps start

theorem Step.Sound.forward {step : Step} (h : step.Sound all) (hBefore : step.before ≤ all.length) :
    step.before ≤ step.after ∧ step.after ≤ all.length := by
  cases h with
  | found h =>
    have := h.position_le
    have := h.nextLine_le
    simp only
    omega
  | exhausted h => exact ⟨hBefore, Nat.le_refl _⟩
  | skipped position line =>
    simp only at hBefore ⊢
    omega

theorem Step.Sound.accounted_of_lt {step : Step} (h : step.Sound all) (hBlock : Delimits all start stop)
    (hBefore : step.before ≤ start) (hAfter : start < step.after) : Accounted [step] start := by
  cases h with
  | found h =>
    obtain hStart | hStart := Nat.lt_or_ge start _
    · exact absurd hBlock (h.first start hBefore hStart stop)
    · obtain hEq | hLt := Nat.eq_or_lt_of_le hStart
      · exact .yielded (List.mem_singleton_self _) rfl hEq
      · exact .inside (List.mem_singleton_self _) rfl hLt hAfter
  | exhausted h => exact absurd hBlock (h start hBefore stop)
  | skipped position line =>
    refine .skipped (List.mem_singleton_self _) rfl ?_
    simp only at hBefore hAfter
    omega

theorem Accounted.mono {steps steps' : List Step} (hSubset : steps ⊆ steps') (h : Accounted steps start) :
    Accounted steps' start := by
  cases h with
  | yielded hStep hBlock h => exact .yielded (hSubset hStep) hBlock h
  | inside hStep hBlock hStart hNext => exact .inside (hSubset hStep) hBlock hStart hNext
  | skipped hStep hLine h => exact .skipped (hSubset hStep) hLine h

section

variable (cursor : Cursor) (moves : List Move)

theorem map_move_steps : (cursor.steps moves).map Step.move = moves := by
  induction moves generalizing cursor with
  | nil => rfl
  | cons move moves ih => rw [steps, List.map_cons, ih]

theorem before_of_head?_steps : ∀ step ∈ (cursor.steps moves).head?, step.before = cursor.position := by
  cases moves with
  | nil => simp [steps]
  | cons move moves => simp [steps]

theorem isChain_steps : (cursor.steps moves).IsChain fun a b => b.before = a.after := by
  induction moves generalizing cursor with
  | nil => exact List.isChain_nil
  | cons move moves ih =>
    exact List.isChain_cons.mpr
      ⟨before_of_head?_steps (cursor.move move).2 moves, ih (cursor.move move).2⟩

theorem sound_steps : ∀ step ∈ cursor.steps moves, step.Sound cursor.lines := by
  induction moves generalizing cursor with
  | nil => exact fun step hStep => absurd hStep List.not_mem_nil
  | cons move moves ih =>
    intro step hStep
    obtain rfl | hStep := List.mem_cons.mp hStep
    · exact cursor.sound_move move
    · exact cursor.lines_move move ▸ ih (cursor.move move).2 step hStep

theorem bounds_steps : ∀ step ∈ cursor.steps moves,
    cursor.position ≤ step.before ∧ step.before ≤ step.after := by
  induction moves generalizing cursor with
  | nil => exact fun step hStep => absurd hStep List.not_mem_nil
  | cons move moves ih =>
    have hForward := ((cursor.sound_move move).forward cursor.position_le).1
    intro step hStep
    obtain rfl | hStep := List.mem_cons.mp hStep
    · exact ⟨Nat.le_refl _, hForward⟩
    · obtain ⟨hBefore, hAfter⟩ := ih (cursor.move move).2 step hStep
      exact ⟨hForward.trans hBefore, hAfter⟩

theorem pairwise_steps : (cursor.steps moves).Pairwise fun a b => a.after ≤ b.before := by
  induction moves generalizing cursor with
  | nil => exact List.Pairwise.nil
  | cons move moves ih =>
    exact List.pairwise_cons.mpr
      ⟨fun step hStep => (bounds_steps (cursor.move move).2 moves step hStep).1, ih (cursor.move move).2⟩

/-- The induction is on the moves: a line that the first of them does not pass is left to the rest. -/
theorem accounted_steps (hBlock : Delimits cursor.lines start stop) (hPosition : cursor.position ≤ start)
    (hPassed : ∃ step ∈ cursor.steps moves, start < step.after) :
    Accounted (cursor.steps moves) start := by
  induction moves generalizing cursor with
  | nil =>
    obtain ⟨step, hStep, -⟩ := hPassed
    exact absurd hStep List.not_mem_nil
  | cons move moves ih =>
    obtain hHere | hLater := Nat.lt_or_ge start (cursor.move move).2.position
    · have hStep := (cursor.sound_move move).accounted_of_lt hBlock hPosition hHere
      exact hStep.mono (List.cons_subset_cons _ (List.nil_subset _))
    · refine (ih (cursor.move move).2 ?_ hLater ?_).mono (List.subset_cons_self _ _)
      · rwa [cursor.lines_move move]
      · obtain ⟨step, hStep, hAfter⟩ := hPassed
        obtain rfl | hStep := List.mem_cons.mp hStep
        · exact absurd hAfter (Nat.not_lt_of_le hLater)
        · exact ⟨step, hStep, hAfter⟩

end

theorem Step.Sound.of_answer {step : Step} {block : Block} (h : step.Sound all)
    (hBlock : step.answer = some block) :
    block.IsNext all step.before ∧ step.after = block.nextLine := by
  cases h with
  | found h =>
    cases hBlock
    exact ⟨h, rfl⟩
  | exhausted h => cases hBlock
  | skipped position line => cases hBlock

theorem Step.Sound.of_skipTarget? {step : Step} {line : Nat} (h : step.Sound all)
    (hLine : step.skipTarget? = some line) : min line all.length ≤ step.after := by
  cases h with
  | found h => cases hLine
  | exhausted h => cases hLine
  | skipped position line =>
    cases hLine
    exact Nat.le_max_right _ _

theorem Step.Sound.after_of_none {step : Step} (h : step.Sound all) (hLine : step.skipTarget? = none)
    (hAnswer : step.answer = none) : step.after = all.length := by
  cases h with
  | found h => cases hAnswer
  | exhausted h => rfl
  | skipped position line => cases hLine

/-- However a cursor is asked for blocks and told to skip, it finds every block that it should. -/
theorem locates (all : List Text) (moves : List Move) :
    Locates all moves ((Cursor.start all).steps moves) := by
  set steps := (Cursor.start all).steps moves with hSteps
  have hSound : ∀ step ∈ steps, step.Sound all := (Cursor.start all).sound_steps moves
  have hOrder := (Cursor.start all).pairwise_steps moves
  have hStart : (Cursor.start all).position = 0 := Nat.zero_min _
  have hPassed (start stop : Nat) (hBlock : Delimits all start stop)
      (hAfter : ∃ step ∈ steps, start < step.after) : Accounted steps start :=
    (Cursor.start all).accounted_steps moves hBlock (hStart ▸ Nat.zero_le start) hAfter
  refine {
    moves := (Cursor.start all).map_move_steps moves
    start := fun step hStep => ((Cursor.start all).before_of_head?_steps moves step hStep).trans hStart
    chain := (Cursor.start all).isChain_steps moves
    sound := hSound
    forward := fun step hStep => ((Cursor.start all).bounds_steps moves step hStep).2
    apart := ?_
    behind_skips := ?_
    passed := hPassed
    exhausted := ?_ }
  · refine hOrder.imp_of_mem fun {a b} ha hb hBefore earlier later hEarlier hLater => ?_
    obtain ⟨-, hNext⟩ := (hSound a ha).of_answer hEarlier
    obtain ⟨hFrom, -⟩ := (hSound b hb).of_answer hLater
    exact hNext ▸ hBefore.trans hFrom.position_le
  · refine hOrder.imp_of_mem fun {a b} ha hb hBefore line block hLine hFound => ?_
    have hTarget := (hSound a ha).of_skipTarget? hLine
    obtain ⟨hFrom, -⟩ := (hSound b hb).of_answer hFound
    have := hFrom.position_le
    have := hFrom.nextLine_le
    omega
  · rintro ⟨step, hStep, hLine, hAnswer⟩ start stop hBlock
    refine hPassed start stop hBlock ⟨step, hStep, ?_⟩
    rw [(hSound step hStep).after_of_none hLine hAnswer]
    exact Nat.lt_of_le_of_lt hBlock.start_le hBlock.lt_length

end Cursor

end HeaderDigest
