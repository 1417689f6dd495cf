/-
LogCalls/Text/Quoted.lean

The quoted form in which messages show a text: single quotes, or double ones
when the text holds a single quote and no double one; the active quote and the
backslash are escaped, line ends and tabs have their letters, and every other
character that does not print is shown by its number.
-/
import LogCalls.Text.Printable
import LogCalls.Text.Surrogate

namespace LogCalls.Text

/-- A number in lower-case hexadecimal, filled with zeros up to `width`. -/
def hexPadded (width n : Nat) : Text :=
  let digits := Nat.toDigits 16 n
  List.replicate (width - digits.length) '0' ++ digits

/-- A character by its number, as an escape. -/
def numberForm (c : Char) : Text :=
  let n := Surrogate.codeOf c
  if n < 0x100 then '\\' :: 'x' :: hexPadded 2 n
  else if n < 0x10000 then '\\' :: 'u' :: hexPadded 4 n
  else '\\' :: 'U' :: hexPadded 8 n

/-- The quote that surrounds a text. -/
def quoteMark (t : Text) : Char :=
  if t.contains '\'' && !t.contains '"' then '"' else '\''

/-- How one character shows between two `mark`s. -/
def escape (mark c : Char) : Text :=
  if c = mark ∨ c = '\\' then ['\\', c]
  else if c = '\n' then ['\\', 'n']
  else if c = '\r' then ['\\', 'r']
  else if c = '\t' then ['\\', 't']
  else if isPrintable c then [c]
  else numberForm c

/-- The text between its quotes. -/
def quote (t : Text) : Text :=
  let mark := quoteMark t
  mark :: t.flatMap (escape mark) ++ [mark]

/-- The quoted form of a string. -/
def quoted (s : String) : String := String.ofList (quote s.toList)

/-- The quoted forms of some strings in brackets, separated by commas. -/
def quotedList (ss : List String) : String :=
  "[" ++ ", ".intercalate (ss.map quoted) ++ "]"

end LogCalls.Text
