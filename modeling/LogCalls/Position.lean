/-
LogCalls/Position.lean

Lines and columns.  Both count from one; a column beyond an end of its line
means that end, and a line that the text does not have is refused.
-/
import LogCalls.Fault
import LogCalls.Text.Lines

namespace LogCalls.Position

/-- The offset at which the line with the given index starts. -/
def startOfLine : (lines : List Text) → (index : Nat) → Nat
  | _, 0 => 0
  | [], _ + 1 => 0
  | l :: r, index + 1 => l.length + 1 + startOfLine r index

/-- The offset of a line and a column. -/
def offset (t : Text) (line column : Int) : Except Fault Nat :=
  let ls := Text.lines t
  if 1 ≤ line ∧ line ≤ ls.length then
    let index := (line - 1).toNat
    .ok (startOfLine ls index + (min (column - 1) (ls.getD index []).length).toNat)
  else .error (.lineOutside line ls.length)

end LogCalls.Position
