/-
LogCalls/Decimal/Arithmetic.lean

Differences, quotients, remainders and powers of doubles, and their order.
Every double is an exact quotient, so each operation is worked out on integers
and rounded once.  Powers with a fractional exponent go through the logarithm
in fixed point with far more places than a double has.
-/
import LogCalls.Decimal.Binary64

namespace LogCalls

open Decimal

namespace Binary64

/-- One. -/
def one : Binary64 := ofInt 1

/-- Whether the double is zero of either sign. -/
def isZero : Binary64 → Bool
  | .finite _ m _ => m == 0
  | _ => false

/-- Whether the double carries a negative sign. -/
def isNegative : Binary64 → Bool
  | .nan => false
  | .infinite s => s
  | .finite s .. => s

/-- Whether the double is a number other than the two infinities. -/
def isFinite : Binary64 → Bool
  | .finite .. => true
  | _ => false

/-- The double with the given sign. -/
def withSign (negative : Bool) : Binary64 → Binary64
  | .nan => .nan
  | .infinite _ => .infinite negative
  | .finite _ m e => .finite negative m e

/-- The double without its sign. -/
def magnitude (x : Binary64) : Binary64 := x.withSign false

/-- A finite double as a signed numerator over a denominator. -/
def fraction? : Binary64 → Option (Int × Nat)
  | .finite s m e =>
    let q := quotient m e
    some (if s then -(q.1 : Int) else q.1, q.2)
  | _ => none

/-- The double nearest to a fraction. -/
def ofFraction (num : Int) (den : Nat) : Binary64 := ofQuotient (num < 0) num.natAbs den

/-- The difference of two doubles. -/
def sub (x y : Binary64) : Binary64 := x.add y.neg

/-- The quotient of two doubles, rounded once; the divisor is not zero. -/
def divide : Binary64 → Binary64 → Binary64
  | .finite s m e, .finite s' m' e' =>
    let q := quotient m (e - e')
    ofQuotient (s != s') q.1 (q.2 * m')
  | .infinite s, .finite s' .. => .infinite (s != s')
  | .finite s .., .infinite s' => zero (s != s')
  | _, _ => .nan

/-- The order of two doubles; a NaN has none. -/
def order? : Binary64 → Binary64 → Option Ordering
  | .nan, _ => none
  | _, .nan => none
  | .infinite s, .infinite s' => some (compare s' s)
  | .infinite s, _ => some (if s then .lt else .gt)
  | _, .infinite s => some (if s then .gt else .lt)
  | x, y =>
    match x.fraction?, y.fraction? with
    | some (n, d), some (n', d') => some (compare (n * d') (n' * d))
    | _, _ => none

/-- The order of a double and an integer, without rounding the integer. -/
def orderInt? : Binary64 → Int → Option Ordering
  | .nan, _ => none
  | .infinite s, _ => some (if s then .lt else .gt)
  | x, k => x.fraction?.map fun q => compare q.1 (k * q.2)

/-- The greatest integer that is not above a finite double. -/
def floor? (x : Binary64) : Option Int := x.fraction?.map fun q => Int.fdiv q.1 q.2

/-- The least integer that is not below a finite double. -/
def ceiling? (x : Binary64) : Option Int := x.fraction?.map fun q => -(Int.fdiv (-q.1) q.2)

/-- The integer part of a finite double. -/
def truncated? (x : Binary64) : Option Int := x.fraction?.map fun q => Int.tdiv q.1 q.2

/-- The integer nearest to a finite double, a tie to the even one. -/
def nearest? (x : Binary64) : Option Int :=
  x.fraction?.map fun q =>
    let n : Int := roundedQuotient q.1.natAbs q.2
    if q.1 < 0 then -n else n

/-- Whether a double is an odd integer. -/
def isOdd (x : Binary64) : Bool :=
  match x.toInt? with
  | some n => n % 2 != 0
  | none => false

/-! ### Remainders -/

/-- The remainder with the sign of the dividend. -/
def remainderToward : Binary64 → Binary64 → Binary64
  | .finite s m e, .finite _ m' e' =>
    let low := min e e'
    let r := (m * twoTo (e - low).toNat) % (m' * twoTo (e' - low).toNat)
    let q := quotient r low
    ofQuotient s q.1 q.2
  | .finite s m e, .infinite _ => .finite s m e
  | _, _ => .nan

/-- The remainder with the sign of the divisor, which is not zero. -/
def remainder (x y : Binary64) : Binary64 :=
  let r := remainderToward x y
  if r = .nan then .nan
  else if r.isZero then zero y.isNegative
  else if r.isNegative != y.isNegative then r.add y
  else r

/-- The integral quotient rounded down, as a double; the divisor is not zero. -/
def floorDivide (x y : Binary64) : Binary64 :=
  let r := remainderToward x y
  let q := (x.sub r).divide y
  let q' := if !r.isZero && r.isNegative != y.isNegative then q.sub one else q
  match q'.floor? with
  | none => q'
  | some n =>
    if q'.isZero then zero (x.isNegative != y.isNegative)
    else
      let f := ofInt n
      -- a quotient that was rounded up past one half belongs to the next integer
      if (q'.sub f).order? (ofFraction 1 2) = some .gt then f.add one else f

/-! ### Places after the point -/

/-- The double nearest to the value rounded to `places` decimal places, a tie
on the exact value to the even digit. -/
def roundTo (x : Binary64) (places : Int) : Binary64 :=
  match x with
  | .finite s m e =>
    if 323 < places then x
    else if places < -308 then zero s
    else
      let q := quotient m e
      let n :=
        if 0 ≤ places then roundedQuotient (q.1 * tenTo places.toNat) q.2
        else roundedQuotient q.1 (q.2 * tenTo (-places).toNat)
      ofDecimal s n (-places)
  | x => x

/-! ### Powers -/

/-- The number of binary places of fixed point numbers. -/
def fixedPlaces : Nat := 240

/-- `2 * artanh (num / den)` in fixed point, for a quotient of at most one third. -/
def doubledArtanh (num den : Nat) : Nat :=
  let z := num * twoTo fixedPlaces / den
  let square := z * z / twoTo fixedPlaces
  let rec go : Nat → Nat → Nat → Nat
    | 0, _, _ => 0
    | n + 1, k, power => power / k + go n (k + 2) (power * square / twoTo fixedPlaces)
  2 * go 90 1 z

/-- The natural logarithm of two in fixed point. -/
def logTwo : Nat := doubledArtanh 1 3

/-- The natural logarithm of a positive quotient in fixed point. -/
def logarithm (num den : Nat) : Int :=
  let k : Int := (num.log2 : Int) - den.log2
  let s := scaled num den k
  -- the scaled quotient lies between one half and two
  let low := s.1 < s.2
  let n := if low then 2 * s.1 else s.1
  let k' := if low then k - 1 else k
  k' * logTwo + doubledArtanh (n - s.2) (n + s.2)

/-- The double nearest to `exp x`, for `x` in fixed point. -/
def exponential (x : Int) : Binary64 :=
  let k := Int.fdiv x logTwo
  let r := (Int.fmod x logTwo).toNat
  let rec go : Nat → Nat → Nat → Nat
    | 0, _, _ => 0
    | n + 1, i, term => term + go n (i + 1) (term * r / (twoTo fixedPlaces * (i + 1)))
  let s := scaled (go 70 0 (twoTo fixedPlaces)) (twoTo fixedPlaces) (-k)
  if 1100 < k then .infinite false
  else if k < -1200 then zero false
  else ofQuotient false s.1 s.2

/-- A positive double to the power of a finite one. -/
def positivePower (m : Nat) (e : Int) (y : Binary64) : Binary64 :=
  match y.toInt?, y.fraction? with
  | some n, _ =>
    if n.natAbs ≤ 2048 then
      let q := quotient (Nat.pow m n.natAbs) (e * n.natAbs)
      if n < 0 then ofQuotient false q.2 q.1 else ofQuotient false q.1 q.2
    else throughLog m e y
  | none, _ => throughLog m e y
where
  /-- The power through the logarithm. -/
  throughLog (m : Nat) (e : Int) (y : Binary64) : Binary64 :=
    let q := quotient m e
    match y.fraction? with
    | some (n, d) => exponential (Int.fdiv (logarithm q.1 q.2 * n) d)
    | none => .nan

/-- Why a power has no value. -/
inductive PowerFlaw where
  | zeroToNegative
  | tooLarge
  | notReal
  deriving DecidableEq, Repr

/-- The power of two doubles. -/
def power (x y : Binary64) : Except PowerFlaw Binary64 :=
  if y.isZero then .ok one
  else if x = .nan then .ok .nan
  else if y = .nan then .ok (if x = one then one else .nan)
  else
    match x, y with
    | x, .infinite s =>
      match x.magnitude.order? one with
      | some .eq => .ok one
      | some .gt => .ok (if s then zero false else .infinite false)
      | _ => .ok (if s then .infinite false else zero false)
    | .infinite s, y =>
      let negative := s && y.isOdd
      .ok (if y.isNegative then zero negative else .infinite negative)
    | .finite s m e, y =>
      if m = 0 then
        if y.isNegative then .error .zeroToNegative else .ok (zero (s && y.isOdd))
      else if s && y.toInt?.isNone then .error .notReal
      else
        let p := positivePower m e y
        match p with
        | .infinite _ => .error .tooLarge
        | p => .ok (p.withSign (s && y.isOdd))
    | .nan, _ => .ok .nan

/-! ### Small laws -/

@[simp] theorem magnitude_magnitude (x : Binary64) : x.magnitude.magnitude = x.magnitude := by
  cases x <;> rfl

theorem isNegative_withSign_of_isFinite {x : Binary64} (h : x.isFinite = true) (s : Bool) :
    (x.withSign s).isNegative = s := by
  cases x <;> simp_all [isFinite, withSign, isNegative]

end Binary64

end LogCalls
