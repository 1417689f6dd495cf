/-
LogCalls/Decimal/Layout.lean

How a double is written: which exponents are written positionally, whether an
integral value keeps a fraction, how the exponent looks, and the words for the
values that have no digits.
-/
import LogCalls.Decimal.Shortest
import LogCalls.Text.Digit

namespace LogCalls.Decimal

/-- The decisions of one way to write doubles. -/
structure Layout where
  /-- The least exponent written positionally. -/
  leastPositional : Int
  /-- The greatest exponent written positionally. -/
  greatestPositional : Int
  /-- An integral value in the positional range is written as that integer. -/
  wholeAsInteger : Bool
  /-- The least number of digits of an exponent. -/
  exponentWidth : Nat
  notANumber : String
  infinity : String

/-- Plain text of a double: `1.0`, `1e-07`, `1e+16`, `inf`. -/
def plainLayout : Layout := ⟨-4, 15, false, 2, "nan", "inf"⟩

/-- A double as a numeral of source text: `1`, `1e-7`, `1e+21`, `Infinity`. -/
def sourceLayout : Layout := ⟨-6, 20, true, 1, "NaN", "Infinity"⟩

/-- The digits with the decimal point at its place, `.0` after an integer. -/
def positional (d : Digits) : Text :=
  if d.exponent < 0 then
    '0' :: '.' :: List.replicate (-d.exponent - 1).toNat '0' ++ d.digits
  else
    let whole := d.exponent.toNat + 1
    if d.digits.length ≤ whole then
      d.digits ++ List.replicate (whole - d.digits.length) '0' ++ ['.', '0']
    else
      d.digits.take whole ++ '.' :: d.digits.drop whole

/-- The digits with one in front of the point, and the exponent. -/
def scientific (width : Nat) (d : Digits) : Text :=
  let mantissa :=
    match d.digits with
    | [] => []
    | [c] => [c]
    | c :: r => c :: '.' :: r
  let magnitude := Text.numeral d.exponent.natAbs
  mantissa ++ 'e' :: (if d.exponent < 0 then '-' else '+') ::
    (List.replicate (width - magnitude.length) '0' ++ magnitude)

/-- The text of a double in a layout. -/
def Layout.write (l : Layout) : Binary64 → Text
  | .nan => l.notANumber.toList
  | .infinite negative => if negative then '-' :: l.infinity.toList else l.infinity.toList
  | .finite negative m e =>
    let d := shortest m e
    let inRange := l.leastPositional ≤ d.exponent ∧ d.exponent ≤ l.greatestPositional
    let signed (t : Text) : Text := if negative then '-' :: t else t
    match l.wholeAsInteger, Binary64.toInt? (.finite negative m e) with
    | true, some n =>
      if inRange then Text.signedNumeral n else signed (scientific l.exponentWidth d)
    | _, _ => signed (if inRange then positional d else scientific l.exponentWidth d)

end LogCalls.Decimal
