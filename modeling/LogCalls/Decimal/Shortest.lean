/-
LogCalls/Decimal/Shortest.lean

The fewest decimal digits that read back as a given double, and of those the
nearest.  For one digit, two digits and so on, the two neighbours of the value
on the grid of that many digits are tried in exact arithmetic; the first grid
with a neighbour inside the rounding interval gives the digits.
-/
import LogCalls.Decimal.Binary64

namespace LogCalls.Decimal

/-- Decimal digits and the power of ten of the first of them:
`d₀.d₁d₂… * 10 ^ exponent`. -/
structure Digits where
  digits : List Char
  exponent : Int
  deriving DecidableEq, Repr

/-- An interval of rationals with the common denominator `den`, and the value
inside it; the ends belong to it when `closed` holds. -/
structure Interval where
  low : Nat
  value : Nat
  high : Nat
  den : Nat
  closed : Bool
  deriving Repr

/-- The rationals that round to `m * 2 ^ e`.  Below a power of two the next
double is half as far away, so there the lower end lies nearer. -/
def roundingInterval (m : Nat) (e : Int) : Interval :=
  let nearer := m = twoTo 52 ∧ Binary64.leastExponent < e
  let up := twoTo (max e 0).toNat
  { low := (4 * m - (if nearer then 1 else 2)) * up
    value := 4 * m * up
    high := (4 * m + 2) * up
    den := 4 * twoTo (-(min e 0)).toNat
    closed := m % 2 = 0 }

/-- Whether `n / d` lies in the interval. -/
def Interval.holds (i : Interval) (n d : Nat) : Bool :=
  if i.closed then i.low * d ≤ n * i.den && n * i.den ≤ i.high * d
  else i.low * d < n * i.den && n * i.den < i.high * d

/-- The exponent `k` with `10 ^ k ≤ num / den < 10 ^ (k + 1)`, searched upwards
from `k`. -/
def leadingFrom (num den : Nat) : Nat → Int → Int
  | 0, k => k
  | fuel + 1, k =>
    let next := k + 1
    let reached :=
      if 0 ≤ next then den * tenTo next.toNat ≤ num else den ≤ num * tenTo (-next).toNat
    if reached then leadingFrom num den fuel next else k

/-- The exponent of the first decimal digit of a positive quotient.  The count
of binary digits gives it up to a few units from below. -/
def leadingExponent (num den : Nat) : Int :=
  -- 30102 / 100000 is a little less than the decimal logarithm of two
  let bits : Int := (num.log2 : Int) - den.log2 - 1
  leadingFrom num den 8 (Int.fdiv (bits * 30102) 100000 - 3)

/-- The value's neighbour on the grid of `10 ^ g` that lies in the interval,
the nearer one where both do, and the even one of two equally near. -/
def neighbour? (i : Interval) (g : Int) : Option Nat :=
  let up := tenTo (max g 0).toNat
  let down := tenTo (-(min g 0)).toNat
  let num := i.value * down
  let den := i.den * up
  let floor := num / den
  let inside (n : Nat) : Bool := i.holds (n * up) down
  let below := inside floor
  let above := inside (floor + 1)
  let twice := 2 * (num % den)
  if below && above then
    if twice < den then some floor
    else if den < twice then some (floor + 1)
    else if floor % 2 = 0 then some floor else some (floor + 1)
  else if below then some floor
  else if above then some (floor + 1)
  else none

/-- Tries the grids with `count` digits and more. -/
def shortestFrom (i : Interval) (lead : Int) : Nat → Nat → Nat × Int
  | 0, count => (i.value / i.den, lead - count)
  | fuel + 1, count =>
    let g := lead - count + 1
    -- zero lies on every grid and is the value of none
    match neighbour? i g with
    | some n => if n = 0 then shortestFrom i lead fuel (count + 1) else (n, g)
    | none => shortestFrom i lead fuel (count + 1)

/-- The digits of `n * 10 ^ g` without the zeros at the end. -/
def Digits.ofScaled (n : Nat) (g : Int) : Digits :=
  let all := Nat.toDigits 10 n
  let kept := (all.reverse.dropWhile (· == '0')).reverse
  ⟨kept, g + all.length - 1⟩

/-- The shortest digits of `m * 2 ^ e`; zero has the one digit zero. -/
def shortest (m : Nat) (e : Int) : Digits :=
  if m = 0 then ⟨['0'], 0⟩
  else
    let i := roundingInterval m e
    let r := shortestFrom i (leadingExponent i.value i.den) 17 1
    Digits.ofScaled r.1 r.2

end LogCalls.Decimal
