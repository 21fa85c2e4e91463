import HeaderDigest.Text.Basic

/-!
# A position in a list of lines

A cursor stands before one of the lines or behind the last one. Asking it for a place further on
puts it behind the last line.
-/

namespace HeaderDigest

structure Cursor where
  lines : List Text
  position : Nat
  position_le : position ≤ lines.length

namespace Cursor

def atLine (lines : List Text) (position : Nat) : Cursor :=
  ⟨lines, min position lines.length, Nat.min_le_right position lines.length⟩

def start (lines : List Text) : Cursor := atLine lines 0

def ahead (cursor : Cursor) : List Text := cursor.lines.drop cursor.position

def peek? (cursor : Cursor) : Option Text := cursor.lines[cursor.position]?

def advance (cursor : Cursor) : Option Text × Cursor :=
  match cursor.peek? with
  | some line => (some line, atLine cursor.lines (cursor.position + 1))
  | none => (none, cursor)

def isDone (cursor : Cursor) : Bool := cursor.lines.length ≤ cursor.position

structure Mark where
  position : Nat

def mark (cursor : Cursor) : Mark := ⟨cursor.position⟩

def reset (cursor : Cursor) (mark : Mark) : Cursor := atLine cursor.lines mark.position

/-- Moves to a line further on. A line already passed leaves the cursor where it is. -/
def skipTo (cursor : Cursor) (line : Nat) : Cursor :=
  if cursor.position < line then atLine cursor.lines line else cursor

theorem atLine_position (cursor : Cursor) : atLine cursor.lines cursor.position = cursor := by
  cases cursor with
  | mk lines position position_le => simp [atLine, Nat.min_eq_left position_le]

/-- A mark leads back to its place from wherever the cursor has gone. -/
theorem reset_mark {cursor later : Cursor} (h : later.lines = cursor.lines) :
    later.reset cursor.mark = cursor := by
  rw [reset, h]
  exact cursor.atLine_position

end Cursor

end HeaderDigest
