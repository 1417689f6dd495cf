/-
LogCalls/Yaml/Plain.lean

Plain scalars: words without quotes.  A plain scalar goes on over gaps until a
comment, a mark that cannot be part of it, a separator of documents or, outside
of brackets, a line that does not stand further right than the collection around
it.
-/
import LogCalls.Yaml.Gap

namespace LogCalls.Yaml.Plain

/-- Whether a character followed by `r` ends the words of a plain scalar.
Inside brackets the marks of the brackets end them as well. -/
def isStop (bracketed : Bool) (c : Char) (r : Text) : Bool :=
  isGap c ||
    (c == ':' && (endsWord r || (bracketed && r.head?.any fun d => ",[]\x7b\x7d".toList.contains d))) ||
    (bracketed && ",?[]\x7b\x7d".toList.contains c)

/-- Whether a plain scalar can start with a character followed by `r`. -/
def canStart (bracketed : Bool) (c : Char) (r : Text) : Bool :=
  !(isGap c || "-?:,[]\x7b\x7d#&*!|>'\"%@`".toList.contains c) ||
    (!endsWord r && (c == '-' || (!bracketed && (c == '?' || c == ':'))))

/-- Reads on after a gap; `stop` is the text after the last word.  Lines left of
`margin` end the scalar outside of brackets. -/
def readFrom (bracketed : Bool) (margin : Nat) (gap : Gap) (stop : Text) : Text → Text × Text
  | [] => ([], stop)
  | c :: r =>
    if c = ' ' then readFrom bracketed margin (gap.blank c) stop r
    else if isBreak c then
      -- a separator of documents ends the scalar before its line
      if startsWithSeparator r then ([], stop)
      else readFrom bracketed margin (gap.newLine c) stop r
    else if isStop bracketed c r || (!gap.isNone && c == '#') ||
        (!bracketed && gap.isLeftOf margin) then ([], stop)
    else
      let after := readFrom bracketed margin Gap.none r r
      (gap.text ++ c :: after.1, after.2)

/-- The plain scalar at the start of a text, and what follows it. -/
def read (bracketed : Bool) (margin : Nat) (t : Text) : Text × Text :=
  readFrom bracketed margin Gap.none t t

end LogCalls.Yaml.Plain
