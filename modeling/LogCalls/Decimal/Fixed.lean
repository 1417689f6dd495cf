/-
LogCalls/Decimal/Fixed.lean

Doubles written with a given number of digits: after the point, in all, or in
whichever form is shorter.  The digits are those of the exact value, a tie to
the even digit.
-/
import LogCalls.Decimal.Layout

namespace LogCalls.Decimal

/-- A quotient with the given number of digits after the point; `keepPoint`
keeps the point where no digit follows it. -/
def fixedPlaces (keepPoint : Bool) (places num den : Nat) : Text :=
  let digits := Text.numeral (Binary64.roundedQuotient (num * tenTo places) den)
  let padded := List.replicate (places + 1 - digits.length) '0' ++ digits
  let whole := padded.take (padded.length - places)
  let rest := padded.drop (padded.length - places)
  whole ++ (if rest = [] && !keepPoint then [] else '.' :: rest)

/-- The first `count` digits of a quotient and the exponent of the first of them. -/
def leadingDigits (count num den : Nat) : Digits :=
  if num = 0 then ⟨List.replicate count '0', 0⟩
  else
    let e := leadingExponent num den
    let shift : Int := (count : Int) - 1 - e
    let n :=
      if 0 ≤ shift then Binary64.roundedQuotient (num * tenTo shift.toNat) den
      else Binary64.roundedQuotient num (den * tenTo (-shift).toNat)
    if n = tenTo count then ⟨Text.numeral (tenTo (count - 1)), e + 1⟩ else ⟨Text.numeral n, e⟩

/-- The sign and at least two digits of an exponent behind its mark. -/
def exponentText (mark : Char) (e : Int) : Text :=
  let digits := Text.numeral e.natAbs
  mark :: (if e < 0 then '-' else '+') :: (List.replicate (2 - digits.length) '0' ++ digits)

/-- Digits with a point behind the first one, and an exponent. -/
def withExponent (mark : Char) (keepPoint : Bool) (d : Digits) : Text :=
  match d.digits with
  | [] => []
  | [c] => c :: (if keepPoint then ['.'] else []) ++ exponentText mark d.exponent
  | c :: r => c :: '.' :: r ++ exponentText mark d.exponent

/-- A quotient with an exponent and the given number of digits after the point. -/
def exponentPlaces (mark : Char) (keepPoint : Bool) (places num den : Nat) : Text :=
  withExponent mark keepPoint (leadingDigits (places + 1) num den)

/-- The digits without zeros at the end, except for the first one. -/
def trimZeros : Text → Text
  | [] => []
  | c :: r => c :: (r.reverse.dropWhile (· == '0')).reverse

/-- A quotient with the given number of digits in all, positionally where its
exponent is small, and without zeros at the end unless they are kept.  With
`fraction` an integral value keeps one digit after the point, and the exponent
starts one place earlier. -/
def generalPlaces (mark : Char) (keepZeros fraction : Bool) (precision num den : Nat) : Text :=
  let count := max precision 1
  let d := leadingDigits count num den
  let digits := if keepZeros then d.digits else trimZeros d.digits
  let limit : Int := if fraction then count - 1 else count
  if d.exponent < -4 ∨ limit ≤ d.exponent then
    withExponent mark keepZeros ⟨digits, d.exponent⟩
  else if d.exponent < 0 then
    '0' :: '.' :: List.replicate (-d.exponent - 1).toNat '0' ++ digits
  else
    let whole := d.exponent.toNat + 1
    let filled := digits ++ List.replicate (whole - digits.length) '0'
    let rest := filled.drop whole
    filled.take whole ++
      (if rest = [] then (if fraction then ['.', '0'] else if keepZeros then ['.'] else [])
      else '.' :: rest)

end LogCalls.Decimal
