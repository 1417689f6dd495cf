/-
LogCalls/Proofs/Decimal/Magnitude.lean

How large the exponents are that doubles are written with.  A numeral whose
point lies too far to the right is read as infinite, so a finite double that is
read is bounded, crudely, by a fixed power of ten (`Binary64.moderate_ofDecimal`).
The grids on which its shortest digits are looked for do not lie above the
leading digit, and the digits found are those of the value or one more, so the
exponent has a fixed bound as well (`Decimal.exponent_shortest_lt`).

The bounds are far from sharp: all that matters is that an exponent has few
digits.
-/
import LogCalls.Number
import LogCalls.Proofs.Outcome

namespace LogCalls

open Decimal

theorem Decimal.twoTo_le_tenTo (n : Nat) : twoTo n ≤ tenTo n := Nat.pow_le_pow_left (by decide) n

theorem Decimal.tenTo_add (m n : Nat) : tenTo (m + n) = tenTo m * tenTo n := Nat.pow_add 10 m n

theorem Decimal.tenTo_le_tenTo {m n : Nat} (h : m ≤ n) : tenTo m ≤ tenTo n :=
  Nat.pow_le_pow_right (by decide) h

theorem Decimal.tenTo_le_twoTo (n : Nat) : tenTo n ≤ twoTo (4 * n) := by
  have hmul : twoTo (4 * n) = (2 ^ 4) ^ n := Nat.pow_mul 2 4 n
  rw [hmul]
  exact Nat.pow_le_pow_left (by decide) n

/-! ### Doubles that are read -/

namespace Binary64

/-- A double below a fixed power of ten, if it is finite. -/
def Moderate : Binary64 → Prop
  | .finite _ m e => m ≤ tenTo 1384 ∧ e ≤ greatestExponent
  | _ => True

theorem moderate_zero (negative : Bool) : (zero negative).Moderate :=
  ⟨Nat.zero_le _, by decide⟩

theorem roundedQuotient_le (num den : Nat) : roundedQuotient num den ≤ num / den + 1 := by
  simp only [roundedQuotient]
  split
  · omega
  split
  · omega
  split <;> omega

theorem leastExponent_le_exponentOf (num den : Nat) : leastExponent ≤ exponentOf num den := by
  simp only [exponentOf]
  split <;> omega

/-- Scaling by a power of two makes a quotient larger by that power at most. -/
theorem scaled_lt {num den n k : Nat} {e : Int} (hden : 0 < den) (h : num < n * den)
    (he : -(k : Int) ≤ e) : (scaled num den e).1 / (scaled num den e).2 < n * twoTo k := by
  rw [scaled]
  split
  · have hquotient : num / den < n := Nat.div_lt_of_lt_mul (by rwa [Nat.mul_comm])
    calc num / (den * twoTo e.toNat) ≤ num / den :=
          Nat.div_le_div_left (Nat.le_mul_of_pos_right den (twoTo_pos _)) hden
      _ < n := hquotient
      _ ≤ n * twoTo k := Nat.le_mul_of_pos_right n (twoTo_pos _)
  · have hsmall : twoTo (-e).toNat ≤ twoTo k := Nat.pow_le_pow_right (by decide) (by omega)
    refine Nat.div_lt_of_lt_mul ?_
    calc num * twoTo (-e).toNat < n * den * twoTo (-e).toNat :=
          Nat.mul_lt_mul_of_pos_right h (twoTo_pos _)
      _ = den * (n * twoTo (-e).toNat) := by rw [Nat.mul_comm n den, Nat.mul_assoc]
      _ ≤ den * (n * twoTo k) := Nat.mul_le_mul_left _ (Nat.mul_le_mul_left _ hsmall)

/-- The significand before it is brought into its range. -/
theorem roundedQuotient_scaled_le {num den n : Nat} (hden : 0 < den) (h : num < tenTo n * den) :
    roundedQuotient (scaled num den (exponentOf num den)).1 (scaled num den (exponentOf num den)).2 ≤
      tenTo (n + 1074) := by
  refine Nat.le_trans (roundedQuotient_le _ _) ?_
  refine Nat.lt_of_lt_of_le (scaled_lt hden h (leastExponent_le_exponentOf num den)) ?_
  rw [tenTo_add]
  exact Nat.mul_le_mul_left _ (twoTo_le_tenTo _)

theorem moderate_ofQuotient {negative : Bool} {num den : Nat} (hden : 0 < den)
    (h : num < tenTo 310 * den) : (ofQuotient negative num den).Moderate := by
  have hrounded := roundedQuotient_scaled_le hden h
  have hfew : twoTo 52 ≤ tenTo (310 + 1074) :=
    Nat.le_trans (twoTo_le_tenTo 52) (tenTo_le_tenTo (by decide))
  simp only [ofQuotient]
  -- rounding up may give one binary digit too many, which is taken off again
  generalize roundedQuotient _ _ = m at hrounded ⊢
  have hm : (if m = twoTo 53 then twoTo 52 else m) ≤ tenTo (310 + 1074) := by
    split
    · exact hfew
    · exact hrounded
  generalize (if m = twoTo 53 then twoTo 52 else m) = m' at hm ⊢
  generalize (if m = twoTo 53 then exponentOf num den + 1 else exponentOf num den) = e
  split
  · exact moderate_zero negative
  split
  · trivial
  next he =>
    split
    · exact moderate_zero negative
    · exact ⟨hm, Int.not_lt.mp he⟩

/-- A numeral is read as a double that is infinite or not too large. -/
theorem moderate_ofDecimal (negative : Bool) (digits : Nat) (exponent : Int) :
    (ofDecimal negative digits exponent).Moderate := by
  have hdigits : digits < tenTo (digitCount digits) :=
    (Nat.length_toDigits_le_iff (by decide) Nat.length_toDigits_pos).mp (Nat.le_refl _)
  simp only [ofDecimal]
  -- what is not read as infinite has 310 digits before the point at most
  split
  · exact moderate_zero negative
  split
  · trivial
  next hsize =>
    split
    · exact moderate_zero negative
    split
    · refine moderate_ofQuotient Nat.one_pos ?_
      rw [Nat.mul_one]
      calc digits * tenTo exponent.toNat < tenTo (digitCount digits) * tenTo exponent.toNat :=
            Nat.mul_lt_mul_of_pos_right hdigits (tenTo_pos _)
        _ = tenTo (digitCount digits + exponent.toNat) := (tenTo_add _ _).symm
        _ ≤ tenTo 310 := tenTo_le_tenTo (by omega)
    · refine moderate_ofQuotient (tenTo_pos _) ?_
      rw [← tenTo_add]
      exact Nat.lt_of_lt_of_le hdigits (tenTo_le_tenTo (by omega))

end Binary64

/-- The reals that are read are not too large. -/
theorem Number.moderate_of_read {t : Text} {x : Binary64} (h : read t = .ok (.real x)) :
    x.Moderate := by
  rw [read] at h
  split at h
  · cases h
  split at h
  · split at h
    · obtain rfl := Number.real.inj (Except.ok.inj h)
      exact Binary64.moderate_ofDecimal _ _ _
    · obtain rfl := Number.real.inj (Except.ok.inj h)
      trivial
  simp only at h
  split at h
  · cases h
  · obtain ⟨n, -, hn⟩ := bind_eq_ok_iff.mp h
    cases hn

/-! ### Shortest digits -/

namespace Decimal

theorem leadingFrom_le (num den : Nat) (fuel : Nat) (k : Int) :
    leadingFrom num den fuel k ≤ k + fuel := by
  induction fuel generalizing k with
  | zero => simp [leadingFrom]
  | succ fuel ih =>
      have hnext := ih (k + 1)
      simp only [leadingFrom]
      split <;> split <;> omega

/-- A number of `n` binary digits has no more decimal digits. -/
theorem leadingExponent_le {num n : Nat} (h : num < twoTo n) (den : Nat) :
    leadingExponent num den ≤ n + 5 := by
  have hbits : num.log2 ≤ n := by
    rcases Nat.eq_zero_or_pos num with rfl | hpos
    · simp
    · exact Nat.le_of_lt ((Nat.log2_lt (Nat.ne_of_gt hpos)).mpr h)
  rw [leadingExponent]
  refine Int.le_trans (leadingFrom_le _ _ _ _) ?_
  rw [Int.fdiv_eq_ediv_of_nonneg _ (by decide)]
  omega

theorem neighbour?_le {i : Interval} {g : Int} {n : Nat} (h : neighbour? i g = some n) :
    n ≤ i.value * tenTo (-(min g 0)).toNat + 1 := by
  have hfloor : i.value * tenTo (-(min g 0)).toNat / (i.den * tenTo (max g 0).toNat) ≤
      i.value * tenTo (-(min g 0)).toNat := Nat.div_le_self _ _
  simp only [neighbour?] at h
  split at h
  · split at h
    · obtain rfl := Option.some.inj h
      omega
    split at h
    · obtain rfl := Option.some.inj h
      omega
    split at h <;> obtain rfl := Option.some.inj h <;> omega
  split at h
  · obtain rfl := Option.some.inj h
    omega
  split at h
  · obtain rfl := Option.some.inj h
    omega
  · cases h

/-- The digits that are found lie on a grid that is not above the leading digit,
and are those of the value there or one more. -/
theorem shortestFrom_le (i : Interval) (lead : Int) (fuel : Nat) {count : Nat}
    (hcount : 0 < count) :
    (shortestFrom i lead fuel count).2 ≤ lead ∧
      (shortestFrom i lead fuel count).1 ≤
        i.value * tenTo (-(min (shortestFrom i lead fuel count).2 0)).toNat + 1 := by
  induction fuel generalizing count with
  | zero =>
      refine ⟨by simp only [shortestFrom]; omega, ?_⟩
      simp only [shortestFrom]
      refine Nat.le_succ_of_le (Nat.le_trans (Nat.div_le_self _ _) ?_)
      exact Nat.le_mul_of_pos_right _ (tenTo_pos _)
  | succ fuel ih =>
      simp only [shortestFrom]
      split
      · next n hn =>
          split
          · exact ih (Nat.succ_pos count)
          · exact ⟨by simp only; omega, neighbour?_le hn⟩
      · exact ih (Nat.succ_pos count)

theorem exponent_ofScaled_le {n k : Nat} {g : Int} (h : n < tenTo k) (hk : 0 < k) :
    (Digits.ofScaled n g).exponent ≤ g + k - 1 := by
  have hlength : (Nat.toDigits 10 n).length ≤ k :=
    (Nat.length_toDigits_le_iff (by decide) hk).mpr h
  simp only [Digits.ofScaled]
  omega

theorem value_roundingInterval_lt {m n k : Nat} {e : Int} (hm : m ≤ tenTo n) (he : e ≤ k) :
    (roundingInterval m e).value < tenTo (n + k + 1) := by
  have htwo : twoTo (max e 0).toNat ≤ tenTo k :=
    Nat.le_trans (Nat.pow_le_pow_right (by decide) (by omega)) (twoTo_le_tenTo k)
  have hproduct : m * twoTo (max e 0).toNat ≤ tenTo (n + k) := by
    rw [tenTo_add]
    exact Nat.mul_le_mul hm htwo
  have hpos := tenTo_pos (n + k)
  simp only [roundingInterval]
  rw [tenTo_succ, Nat.mul_assoc]
  omega

/-- The exponent of the shortest digits of a moderate double has five digits at
most. -/
theorem exponent_shortest_lt {m : Nat} {e : Int} (hm : m ≤ tenTo 1384)
    (he : e ≤ Binary64.greatestExponent) : (shortest m e).exponent < 100000 := by
  rw [shortest]
  split
  · decide
  dsimp only
  have hvalue := value_roundingInterval_lt (k := 971) hm he
  have hlead := leadingExponent_le (Nat.lt_of_lt_of_le hvalue (tenTo_le_twoTo _))
    (roundingInterval m e).den
  -- the grid is at most the leading digit, so digits and grid make up for each other
  obtain ⟨hgrid, hdigits⟩ := shortestFrom_le (roundingInterval m e)
    (leadingExponent (roundingInterval m e).value (roundingInterval m e).den) 17 Nat.one_pos
  generalize shortestFrom _ _ _ _ = r at hgrid hdigits ⊢
  have hsmall : r.1 < tenTo (1384 + 971 + 1 + (-(min r.2 0)).toNat + 1) := by
    have hproduct := Nat.mul_lt_mul_of_pos_right hvalue (tenTo_pos (-(min r.2 0)).toNat)
    rw [← tenTo_add] at hproduct
    rw [tenTo_succ]
    omega
  have hexponent := exponent_ofScaled_le (g := r.2) hsmall (Nat.succ_pos _)
  omega

theorem isDigit_of_mem_shortest {m : Nat} {e : Int} {c : Char} (h : c ∈ (shortest m e).digits) :
    c.isDigit = true := by
  rw [shortest] at h
  split at h
  · obtain rfl := List.mem_singleton.mp h
    rfl
  · simp only [Digits.ofScaled, List.mem_reverse] at h
    have hmem := List.mem_reverse.mp ((List.dropWhile_sublist _).subset h)
    exact Nat.isDigit_of_mem_toDigits (by decide) (by decide) hmem

end Decimal

end LogCalls
