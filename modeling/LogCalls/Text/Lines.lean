/-
LogCalls/Text/Lines.lean

The lines of a text: the pieces between its line feeds, of which there is
always one more than there are line feeds.
-/
import LogCalls.Text.Cut

namespace LogCalls.Text

/-- The pieces between the line feeds. -/
def lines : Text → List Text
  | [] => [[]]
  | c :: r =>
    if c = '\n' then [] :: lines r
    else
      match lines r with
      | [] => [[c]]
      | l :: ls => (c :: l) :: ls

/-- The text up to and without the first occurrence of `mark`, and what
follows it; none where the mark does not occur. -/
def splitAtFirst? (mark : Char) : Text → Option (Text × Text)
  | [] => none
  | c :: r =>
    if c = mark then some ([], r)
    else (splitAtFirst? mark r).map fun p => (c :: p.1, p.2)

/-- The pieces between the occurrences of `mark`. -/
def splitAll (mark : Char) : Text → List Text
  | [] => [[]]
  | c :: r =>
    if c = mark then [] :: splitAll mark r
    else
      match splitAll mark r with
      | [] => [[c]]
      | l :: ls => (c :: l) :: ls

/-- The number of characters before the last line break in front of a place:
where the line with that place starts. -/
def lineStart (t : Text) (offset : Int) : Nat :=
  let before := upTo t offset
  before.length - (before.reverse.takeWhile (· ≠ '\n')).length

/-- The line that starts at a place. -/
def lineFrom (t : Text) (start : Nat) : Text := (t.drop start).takeWhile (· ≠ '\n')

/-- The text with one kind of line break: a carriage return, alone or before a
line feed, becomes a line feed. -/
def unifyBreaks : Text → Text
  | [] => []
  | '\r' :: '\n' :: r => '\n' :: unifyBreaks r
  | c :: r => (if c = '\r' then '\n' else c) :: unifyBreaks r

/-! ### Small laws -/

theorem lines_ne_nil (t : Text) : lines t ≠ [] := by
  cases t with
  | nil => simp [lines]
  | cons c r =>
    unfold lines
    split
    · simp
    · split <;> simp

theorem length_lines (t : Text) : (lines t).length = t.count '\n' + 1 := by
  induction t with
  | nil => rfl
  | cons c r ih =>
    by_cases h : c = '\n'
    · simp [lines, h, ih]
    · rcases hl : lines r with _ | ⟨l, ls⟩
      · exact absurd hl (lines_ne_nil r)
      · rw [hl] at ih
        simp [lines, h, hl, ← ih]

end LogCalls.Text
