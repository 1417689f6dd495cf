/-
LogCalls/Text/Digit.lean

Decimal digits of every script.  Each script has its ten digits in a row, so
the table lists the zeros, and the value of a digit is its distance from the
zero before it.
-/
import LogCalls.Text.Blank

namespace LogCalls.Text

/-- The zeros of all scripts but the first, in increasing order. -/
def digitZeros : List Nat := [
   0x660, 0x6F0, 0x7C0, 0x966, 0x9E6, 0xA66, 0xAE6, 0xB66, 0xBE6, 0xC66, 0xCE6, 0xD66, 0xDE6,
   0xE50, 0xED0, 0xF20, 0x1040, 0x1090, 0x17E0, 0x1810, 0x1946, 0x19D0, 0x1A80, 0x1A90, 0x1B50,
   0x1BB0, 0x1C40, 0x1C50, 0xA620, 0xA8D0, 0xA900, 0xA9D0, 0xA9F0, 0xAA50, 0xABF0, 0xFF10,
   0x104A0, 0x10D30, 0x11066, 0x110F0, 0x11136, 0x111D0, 0x112F0, 0x11450, 0x114D0, 0x11650,
   0x116C0, 0x11730, 0x118E0, 0x11950, 0x11C50, 0x11D50, 0x11DA0, 0x16A60, 0x16AC0, 0x16B50,
   0x1D7CE, 0x1D7D8, 0x1D7E2, 0x1D7EC, 0x1D7F6, 0x1E140, 0x1E2F0, 0x1E950, 0x1FBF0]

/-- The value of a decimal digit of any script. -/
def digitValue? (c : Char) : Option Nat :=
  if c.toNat < 0x80 then
    if c.isDigit then some (c.toNat - 0x30) else none
  else
    (digitZeros.find? fun z => z ≤ c.toNat && c.toNat < z + 10).map (c.toNat - ·)

/-- Whether the character is a decimal digit of some script. -/
def isDigit (c : Char) : Bool := (digitValue? c).isSome

/-- The number that a word of decimal digits denotes; other characters count
as zero. -/
def digitsValue (t : Text) : Nat :=
  t.foldl (fun v c => 10 * v + (digitValue? c).getD 0) 0

/-- The value of a hexadecimal digit. -/
def hexValue? (c : Char) : Option Nat :=
  if '0' ≤ c && c ≤ '9' then some (c.toNat - 0x30)
  else if 'a' ≤ c && c ≤ 'f' then some (c.toNat - 0x57)
  else if 'A' ≤ c && c ≤ 'F' then some (c.toNat - 0x37)
  else none

/-- Whether the character is a hexadecimal digit. -/
def isHexDigit (c : Char) : Bool := (hexValue? c).isSome

/-- The number that a word of digits denotes in the given base, for bases up
to sixteen. -/
def valueInBase (base : Nat) (t : Text) : Nat :=
  t.foldl (fun v c => base * v + (hexValue? c).getD 0) 0

/-- The decimal numeral of a number. -/
def numeral (n : Nat) : Text := Nat.toDigits 10 n

/-- The decimal numeral of an integer, with `-` in front of a negative one. -/
def signedNumeral (n : Int) : Text :=
  if n < 0 then '-' :: numeral n.natAbs else numeral n.natAbs

/-! ### Small laws -/

@[simp] theorem digitsValue_nil : digitsValue [] = 0 := rfl

theorem digitsValue_append_singleton (t : Text) (c : Char) :
    digitsValue (t ++ [c]) = 10 * digitsValue t + (digitValue? c).getD 0 := by
  simp [digitsValue]

theorem digitValue?_of_isDigit {c : Char} (ascii : c.toNat < 0x80) (h : c.isDigit = true) :
    digitValue? c = some (c.toNat - 0x30) := by
  simp [digitValue?, ascii, h]

end LogCalls.Text
