/-
LogCalls/Decimal/Binary64.lean

Double precision numbers as exact data: a sign, a significand and a power of
two.  Rounding a quotient to the nearest such number, a tie to the even
significand, is plain arithmetic on natural numbers, so nothing here depends
on the machine's floating point.
-/
import LogCalls.Decimal.Power

namespace LogCalls

open Decimal

/-- A double precision number.  `finite s m e` is `m * 2 ^ e`, negated when
`s` holds. -/
inductive Binary64 where
  | nan
  | infinite (negative : Bool)
  | finite (negative : Bool) (significand : Nat) (exponent : Int)
  deriving DecidableEq, Repr

namespace Binary64

/-- The least exponent, that of the numbers nearest to zero. -/
def leastExponent : Int := -1074

/-- The greatest exponent of a finite number. -/
def greatestExponent : Int := 971

/-- Zero with a sign. -/
def zero (negative : Bool) : Binary64 := .finite negative 0 leastExponent

/-- The quotient rounded to the nearest integer, a tie to the even one. -/
def roundedQuotient (num den : Nat) : Nat :=
  let q := num / den
  let r := num % den
  if 2 * r < den then q
  else if den < 2 * r then q + 1
  else if q % 2 = 0 then q else q + 1

/-- `num / den` divided by `2 ^ e`, as a quotient again. -/
def scaled (num den : Nat) (e : Int) : Nat × Nat :=
  if 0 ≤ e then (num, den * twoTo e.toNat) else (num * twoTo (-e).toNat, den)

/-- The exponent at which a positive quotient has a significand of 53 bits, or
the least exponent where it has fewer. -/
def exponentOf (num den : Nat) : Int :=
  let e := max ((num.log2 : Int) - den.log2 - 53) leastExponent
  let s := scaled num den e
  if twoTo 53 ≤ s.1 / s.2 then e + 1 else e

/-- The double nearest to `num / den`, a tie to the even significand; beyond
the greatest finite one it is infinite. -/
def ofQuotient (negative : Bool) (num den : Nat) : Binary64 :=
  if num = 0 then zero negative
  else
    let e := exponentOf num den
    let s := scaled num den e
    let m := roundedQuotient s.1 s.2
    let m' := if m = twoTo 53 then twoTo 52 else m
    let e' := if m = twoTo 53 then e + 1 else e
    if greatestExponent < e' then .infinite negative
    else if m' = 0 then zero negative
    else .finite negative m' e'

/-- The number of decimal digits of a number; zero has one. -/
def digitCount (n : Nat) : Nat := (Nat.toDigits 10 n).length

/-- The double nearest to `digits * 10 ^ exponent`.  Powers of ten that leave
the range on either side are not computed. -/
def ofDecimal (negative : Bool) (digits : Nat) (exponent : Int) : Binary64 :=
  if digits = 0 then zero negative
  else
    let size := (digitCount digits : Int) + exponent
    if 310 < size then .infinite negative
    else if size < -330 then zero negative
    else if 0 ≤ exponent then ofQuotient negative (digits * tenTo exponent.toNat) 1
    else ofQuotient negative digits (tenTo (-exponent).toNat)

/-- The double nearest to an integer. -/
def ofInt (n : Int) : Binary64 := ofQuotient (n < 0) n.natAbs 1

/-- The double that 64 bits stand for. -/
def ofBits (bits : Nat) : Binary64 :=
  let negative : Bool := bits / twoTo 63 % 2 == 1
  let field : Nat := bits / twoTo 52 % twoTo 11
  let fraction : Nat := bits % twoTo 52
  if field = 0x7FF then
    if fraction = 0 then .infinite negative else .nan
  else if field = 0 then .finite negative fraction leastExponent
  else .finite negative (twoTo 52 + fraction) ((field : Int) - 1075)

/-- The 64 bits that stand for a double; of the many for a NaN, the quiet one
without payload. -/
def toBits : Binary64 → Nat
  | .nan => 0x7FF8000000000000
  | .infinite s => (if s then twoTo 63 else 0) + 0x7FF * twoTo 52
  | .finite s m e =>
    (if s then twoTo 63 else 0) +
      if m < twoTo 52 then m else (e + 1075).toNat * twoTo 52 + (m - twoTo 52)

/-- The integer equal to a double, if there is one. -/
def toInt? : Binary64 → Option Int
  | .finite s m e =>
    let signed (n : Nat) : Int := if s then -(n : Int) else n
    if 0 ≤ e then some (signed (m * twoTo e.toNat))
    else
      let d := twoTo (-e).toNat
      if m % d = 0 then some (signed (m / d)) else none
  | _ => none

/-- A finite double as a sign and a quotient. -/
def quotient (m : Nat) (e : Int) : Nat × Nat := scaled m 1 (-e)

/-- The product of two doubles, rounded once. -/
def mul : Binary64 → Binary64 → Binary64
  | .finite s m e, .finite s' m' e' =>
    let q := quotient (m * m') (e + e')
    ofQuotient (s != s') q.1 q.2
  | .infinite s, .infinite s' => .infinite (s != s')
  | .infinite s, .finite s' m _ => if m = 0 then .nan else .infinite (s != s')
  | .finite s m _, .infinite s' => if m = 0 then .nan else .infinite (s != s')
  | _, _ => .nan

/-- The sum of two doubles, rounded once. -/
def add : Binary64 → Binary64 → Binary64
  | .finite s m e, .finite s' m' e' =>
    let low := min e e'
    let signed (negative : Bool) (n : Nat) : Int := if negative then -(n : Int) else n
    let sum := signed s (m * twoTo (e - low).toNat) + signed s' (m' * twoTo (e' - low).toNat)
    let q := quotient sum.natAbs low
    if sum = 0 then zero (s && s') else ofQuotient (sum < 0) q.1 q.2
  | .infinite s, .infinite s' => if s = s' then .infinite s else .nan
  | .infinite s, .finite .. => .infinite s
  | .finite .., .infinite s => .infinite s
  | _, _ => .nan

/-- The double with the opposite sign. -/
def neg : Binary64 → Binary64
  | .nan => .nan
  | .infinite s => .infinite !s
  | .finite s m e => .finite (!s) m e

/-! ### Small laws -/

theorem toInt?_zero (negative : Bool) : toInt? (zero negative) = some 0 := by
  have h : ¬ (0 : Int) ≤ leastExponent := by decide
  cases negative <;> simp [zero, toInt?, h, Nat.zero_mod]

theorem neg_neg (x : Binary64) : neg (neg x) = x := by
  cases x <;> simp [neg]

end Binary64

end LogCalls
