/-
LogCalls/Numeral.lean

Texts that are numerals of integers in some base and of reals.  Blanks around a
numeral do not count, and single underscores may stand between its digits.
-/
import LogCalls.Decimal.Binary64
import LogCalls.Fault
import LogCalls.Text.Digit
import LogCalls.Text.Small

namespace LogCalls.Numeral

/-- The digits of a numeral without the single underscores between them. -/
def joinedDigits? (isDigit : Char → Bool) : Text → Option Text
  | [] => none
  | [c] => if isDigit c then some [c] else none
  | c :: '_' :: r => if isDigit c then (joinedDigits? isDigit r).map (c :: ·) else none
  | c :: r => if isDigit c then (joinedDigits? isDigit r).map (c :: ·) else none

/-- The value of a digit in bases up to 36. -/
def baseDigit? (c : Char) : Option Nat :=
  match Text.digitValue? c with
  | some n => some n
  | none =>
    let n := c.toNat
    if 0x61 ≤ n ∧ n ≤ 0x7A then some (n - 0x61 + 10)
    else if 0x41 ≤ n ∧ n ≤ 0x5A then some (n - 0x41 + 10)
    else none

/-- Whether a character is a digit in a base. -/
def isBaseDigit (base : Nat) (c : Char) : Bool :=
  ((baseDigit? c).map fun d => decide (d < base)).getD false

/-- The sign of a numeral, and the rest. -/
def sign : Text → Bool × Text
  | '-' :: r => (true, r)
  | '+' :: r => (false, r)
  | t => (false, t)

/-- The base that the letter of a numeral announces. -/
def letterBase? (c : Char) : Option Nat :=
  match c with
  | 'x' | 'X' => some 16
  | 'o' | 'O' => some 8
  | 'b' | 'B' => some 2
  | _ => none

/-- The base and the digits of a numeral without its sign. -/
def baseAndDigits? (base : Nat) (t : Text) : Option (Nat × Text) :=
  let dropMark (r : Text) : Text := if r.head? == some '_' then r.drop 1 else r
  match t with
  | '0' :: c :: r =>
    match letterBase? c with
    | some b =>
      if base = 0 ∨ base = b then some (b, dropMark r)
      else some (base, t)
    | none =>
      -- without a base, zeros stand before nothing but zeros
      if base = 0 then
        if (c :: r).all fun d => d == '0' || d == '_' then some (10, t) else none
      else some (base, t)
  | t => some (if base = 0 then 10 else base, t)

/-- The integer that a text is the numeral of in a base; base zero is told by
the numeral. -/
def whole? (base : Nat) (t : Text) : Option Int :=
  let (negative, rest) := sign (Text.trim t)
  match baseAndDigits? base rest with
  | none => none
  | some (b, digits) =>
    match joinedDigits? (isBaseDigit b) digits with
    | none => none
    | some ds =>
      -- long numerals are read where their base is a power of two
      if Fault.digitLimit < ds.length ∧ [2, 4, 8, 16, 32].contains b = false then none
      else
        let n : Int := ds.foldl (fun v c => b * v + (baseDigit? c).getD 0) 0
        some (if negative then -n else n)

/-- The decimal digits before, behind and in the exponent of a numeral. -/
def realParts? (t : Text) : Option (Text × Text × Int) :=
  let digits? (u : Text) : Option Text := if u.isEmpty then some [] else joinedDigits? Text.isDigit u
  let isMark (c : Char) : Bool := c == 'e' || c == 'E'
  let mantissa := t.takeWhile (!isMark ·)
  let whole := mantissa.takeWhile (· != '.')
  let fraction := (mantissa.dropWhile (· != '.')).drop 1
  let exponent? : Option Int :=
    match t.dropWhile (!isMark ·) with
    | [] => some 0
    | _ :: r =>
      let (negative, ds) := sign r
      (joinedDigits? Text.isDigit ds).map fun ds =>
        let n : Int := Text.digitsValue ds
        if negative then -n else n
  match digits? whole, digits? fraction, exponent? with
  | some a, some b, some e => if a.isEmpty ∧ b.isEmpty then none else some (a, b, e)
  | _, _, _ => none

/-- The double that a text is the numeral of. -/
def real? (t : Text) : Option Binary64 :=
  let (negative, rest) := sign (Text.trim t)
  match String.ofList (Text.small rest) with
  | "inf" | "infinity" => some (.infinite negative)
  | "nan" => some .nan
  | _ =>
    (realParts? rest).map fun p =>
      Binary64.ofDecimal negative (Text.digitsValue (p.1 ++ p.2.1)) (p.2.2 - p.2.1.length)

/-! ### Small laws -/

theorem joinedDigits?_nil (isDigit : Char → Bool) : joinedDigits? isDigit [] = none := rfl

@[simp] theorem sign_nil : sign [] = (false, []) := rfl

end LogCalls.Numeral
