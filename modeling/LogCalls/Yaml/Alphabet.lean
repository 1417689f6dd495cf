/-
LogCalls/Yaml/Alphabet.lean

The characters of a YAML document and the classes that its marks are told by.
A document is read with one kind of line feed (`normal`), so a line break is a
single character from here on.
-/
import LogCalls.Text.Lines

namespace LogCalls.Yaml

/-- Whether a document may hold the character. -/
def isAllowed (c : Char) : Bool :=
  let n := c.toNat
  n == 0x09 || n == 0x0A || n == 0x0D || (0x20 ≤ n && n ≤ 0x7E) || n == 0x85 ||
    (0xA0 ≤ n && n ≤ 0xD7FF) || (0xE000 ≤ n && n ≤ 0xFFFD) || 0x10000 ≤ n

/-- The text with every break of the line-feed family as a line feed. -/
def normal (t : Text) : Text :=
  (Text.unifyBreaks t).map fun c => if c = '\x85' then '\n' else c

/-- Whether the character ends a line. -/
def isBreak (c : Char) : Bool := c == '\n' || c == '\u2028' || c == '\u2029'

/-- Whether the character stands between words: a space, a tab or a break. -/
def isGap (c : Char) : Bool := c == ' ' || c == '\t' || isBreak c

/-- Whether a word ends here: at a gap or at the end. -/
def endsWord : Text → Bool
  | [] => true
  | c :: _ => isGap c

/-- Whether the text starts with three times the given mark as a word. -/
def startsWithMark (mark : Char) : Text → Bool
  | a :: b :: c :: r => a == mark && b == mark && c == mark && endsWord r
  | _ => false

/-- Whether the text starts with a mark between documents. -/
def startsWithSeparator (t : Text) : Bool := startsWithMark '-' t || startsWithMark '.' t

/-- Whether the character may stand in the name of an anchor. -/
def isNameChar (c : Char) : Bool := c.isAlphanum || c == '-' || c == '_'

/-! ### Small laws -/

theorem isGap_of_isBreak {c : Char} (h : isBreak c = true) : isGap c = true := by
  simp [isGap, h]

@[simp] theorem endsWord_nil : endsWord [] = true := rfl

end LogCalls.Yaml
