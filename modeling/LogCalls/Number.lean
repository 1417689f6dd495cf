/-
LogCalls/Number.lean

Numbers of source text.  A token that starts with a digit is read as far as it
goes: a hexadecimal integer, a real when a point, an exponent mark or a
backslash occurs anywhere in it, and a decimal integer otherwise.
-/
import LogCalls.Decimal.Layout
import LogCalls.Fault

namespace LogCalls

/-- An integer of any size, or a double. -/
inductive Number where
  | whole (n : Int)
  | real (x : Binary64)
  deriving DecidableEq, Repr

namespace Number

/-- The sign in front of a text: whether it is negative, and what follows. -/
def takeSign : Text → Bool × Text
  | '-' :: r => (true, r)
  | '+' :: r => (false, r)
  | t => (false, t)

/-- The digits of the hexadecimal integer that the text starts with, after its
blanks. -/
def hexDigits? (t : Text) : Option Text :=
  match Text.trimStart t with
  | '0' :: x :: r =>
    let digits := r.takeWhile Text.isHexDigit
    if (x = 'x' ∨ x = 'X') ∧ digits ≠ [] then some digits else none
  | _ => none

/-- Whether a token is read as a real. -/
def hasRealMark (t : Text) : Bool :=
  t.any fun c => c == '\\' || c == '.' || c == 'e' || c == 'E'

/-- The exponent that a text starts with, zero where it has none: a mark, a
sign that may be missing, and at least one digit. -/
def takeExponent (t : Text) : Int :=
  match t with
  | c :: r =>
    if c = 'e' ∨ c = 'E' then
      let signed := takeSign r
      let value : Int := Text.digitsValue (signed.2.takeWhile Text.isDigit)
      if signed.1 then -value else value
    else 0
  | [] => 0

/-- The real that the text starts with, after its blanks, as sign, digits and
power of ten. -/
def leadingReal? (t : Text) : Option (Bool × Nat × Int) :=
  let signed := takeSign (Text.trimStart t)
  let before := signed.2.takeWhile Text.isDigit
  let rest := signed.2.dropWhile Text.isDigit
  let after := match rest with
    | '.' :: r => r.takeWhile Text.isDigit
    | _ => []
  let tail := match rest with
    | '.' :: r => r.dropWhile Text.isDigit
    | _ => rest
  if before = [] ∧ after = [] then none
  else some (signed.1, Text.digitsValue (before ++ after), takeExponent tail - after.length)

/-- Reads a word of decimal digits, unless it has too many. -/
def readDigits (digits : Text) : Except Fault Nat :=
  if Fault.digitLimit < digits.length then .error (.tooManyDigits digits.length)
  else .ok (Text.digitsValue digits)

/-- Reads the number that a token starts with; zero where it starts with none,
and not a number where it is read as a real and starts with none. -/
def read (t : Text) : Except Fault Number :=
  match hexDigits? t with
  | some digits => .ok (.whole (Text.valueInBase 16 digits))
  | none =>
    if hasRealMark t then
      match leadingReal? t with
      | some (negative, digits, exponent) =>
        .ok (.real (Binary64.ofDecimal negative digits exponent))
      | none => .ok (.real .nan)
    else
      let signed := takeSign (Text.trimStart t)
      let digits := signed.2.takeWhile Text.isDigit
      if digits = [] then .ok (.whole 0)
      else do
        let n ← readDigits digits
        return .whole (if signed.1 then -(n : Int) else n)

/-- Writes an integer, unless it has too many digits. -/
def writeWhole (n : Int) : Except Fault Text :=
  if n.natAbs < Decimal.tenTo Fault.digitLimit then .ok (Text.signedNumeral n) else .error .numeralTooLong

/-- Writes a number with its reals in the given layout. -/
def write (layout : Decimal.Layout) : Number → Except Fault Text
  | .whole n => writeWhole n
  | .real x => .ok (layout.write x)

end Number

end LogCalls
