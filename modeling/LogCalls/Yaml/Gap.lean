/-
LogCalls/Yaml/Gap.lean

The gap between two words of a scalar that may go over several lines.  On one
line it is its blanks; over a line break the blanks are dropped, a single line
feed becomes a space, and further breaks are kept.
-/
import LogCalls.Yaml.Alphabet

namespace LogCalls.Yaml

/-- What lies between the last word and the next. -/
inductive Gap where
  /-- Blanks on one line. -/
  | blanks (t : Text)
  /-- Line breaks: the first unless it was escaped, those after it, and the
  column reached on the last line. -/
  | lines (first : Option Char) (further : Text) (column : Nat)
  deriving DecidableEq, Repr

namespace Gap

/-- No gap. -/
def none : Gap := .blanks []

/-- Whether the next character continues a word. -/
def isNone : Gap → Bool
  | .blanks [] => true
  | _ => false

/-- The gap after one more blank. -/
def blank (c : Char) : Gap → Gap
  | .blanks t => .blanks (t ++ [c])
  | .lines first further column => .lines first further (column + 1)

/-- The gap after one more line break. -/
def newLine (c : Char) : Gap → Gap
  | .blanks _ => .lines (some c) [] 0
  | .lines first further _ => .lines first (further ++ [c]) 0

/-- What stands for the gap in the scalar. -/
def text : Gap → Text
  | .blanks t => t
  | .lines .none further _ => further
  | .lines (some c) further _ =>
    if c ≠ '\n' then c :: further else if further = [] then [' '] else further

/-- Whether the line that the gap has come to starts left of a column. -/
def isLeftOf (limit : Nat) : Gap → Bool
  | .blanks _ => false
  | .lines _ _ column => column < limit

/-! ### Small laws -/

@[simp] theorem text_none : text none = [] := rfl

theorem text_newLine_none : text (newLine '\n' none) = [' '] := rfl

end Gap

end LogCalls.Yaml
