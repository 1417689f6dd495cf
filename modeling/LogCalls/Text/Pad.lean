/-
LogCalls/Text/Pad.lean

Texts brought to a width: filled on one side or on both, filled with zeros
behind a sign, and with tabs written as blanks.
-/
import LogCalls.Text.Blank

namespace LogCalls.Text

/-- A text filled up to a width at its end. -/
def padEnd (fill : Char) (width : Nat) (t : Text) : Text :=
  t ++ List.replicate (width - t.length) fill

/-- A text filled up to a width at its start. -/
def padStart (fill : Char) (width : Nat) (t : Text) : Text :=
  List.replicate (width - t.length) fill ++ t

/-- A text filled up to a width at both sides.  Of an odd number of characters
the left side gets one more where the width is odd too. -/
def centered (fill : Char) (width : Nat) (t : Text) : Text :=
  let missing := width - t.length
  let left := missing / 2 + (if missing % 2 = 1 ∧ width % 2 = 1 then 1 else 0)
  List.replicate left fill ++ t ++ List.replicate (missing - left) fill

/-- A text filled up to a width with zeros, behind its sign if it has one. -/
def zeroFilled (width : Nat) (t : Text) : Text :=
  let zeros := List.replicate (width - t.length) '0'
  match t with
  | '+' :: r => '+' :: zeros ++ r
  | '-' :: r => '-' :: zeros ++ r
  | t => zeros ++ t

/-- A text in a column with each tab written as the blanks up to the next stop. -/
def withoutTabs (size : Nat) : Nat → Text → Text
  | _, [] => []
  | column, '\t' :: r =>
    let blanks := if size = 0 then 0 else size - column % size
    List.replicate blanks ' ' ++ withoutTabs size (column + blanks) r
  | column, c :: r =>
    c :: withoutTabs size (if c = '\n' ∨ c = '\r' then 0 else column + 1) r

/-! ### Small laws -/

theorem length_padEnd (fill : Char) (width : Nat) (t : Text) :
    (padEnd fill width t).length = max width t.length := by
  simp [padEnd]
  omega

theorem length_padStart (fill : Char) (width : Nat) (t : Text) :
    (padStart fill width t).length = max width t.length := by
  simp [padStart]
  omega

theorem length_centered (fill : Char) (width : Nat) (t : Text) :
    (centered fill width t).length = max width t.length := by
  simp only [centered, List.length_append, List.length_replicate]
  split <;> omega

end LogCalls.Text
