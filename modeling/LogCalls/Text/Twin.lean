/-
LogCalls/Text/Twin.lean

Letters that count as one where case is ignored.  Two letters do when they have
the same small letter, and some small letters are twins: they differ and share
their capital.
-/
import LogCalls.Text.Small

namespace LogCalls.Text

/-- The small letters that share a capital, set by set. -/
def twinSets : List (List Nat) := [
   [0x69, 0x131], [0x73, 0x17F], [0xB5, 0x3BC], [0x345, 0x3B9, 0x1FBE], [0x390, 0x1FD3],
   [0x3B0, 0x1FE3], [0x3B2, 0x3D0], [0x3B5, 0x3F5], [0x3B8, 0x3D1], [0x3BA, 0x3F0],
   [0x3C0, 0x3D6], [0x3C1, 0x3F1], [0x3C2, 0x3C3], [0x3C6, 0x3D5], [0x432, 0x1C80],
   [0x434, 0x1C81], [0x43E, 0x1C82], [0x441, 0x1C83], [0x442, 0x1C84, 0x1C85], [0x44A, 0x1C86],
   [0x463, 0x1C87], [0x1C88, 0xA64B], [0x1E61, 0x1E9B], [0xFB05, 0xFB06]]

/-- A small letter with its twins.  In the basic alphabet two letters have one. -/
def twins (c : Char) : Text :=
  if c.toNat < 0x80 && c != 'i' && c != 's' then [c]
  else
    match twinSets.find? (·.contains c.toNat) with
    | some set => set.map Char.ofNat
    | none => [c]

/-- The small letter of a character: the first, where its small form has more. -/
def smallLetter (c : Char) : Char := (smallOf c).headD c

/-- The capital of a character: the first, where it is written with more. -/
def capitalLetter (c : Char) : Char := (capitalsOf c).headD c

/-- The characters that are one with the given character where case is ignored. -/
def caseMates (c : Char) : Text :=
  (twins (smallLetter c)).flatMap fun d => d :: withSmall d

/-- The characters that are one with the given character where the case of the
basic alphabet is ignored. -/
def basicCaseMates (c : Char) : Text := [c.toLower, c.toUpper]

end LogCalls.Text
