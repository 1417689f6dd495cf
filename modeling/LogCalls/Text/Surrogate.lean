/-
LogCalls/Text/Surrogate.lean

Surrogates.  Settings and titles can ask for the codes of surrogates by escapes, and
no character has such a code.  A text holds a private character in its stead, which
shows by the code of the surrogate and has no bytes in UTF-8
(`Utf8.unencodable?`).
-/
import LogCalls.Text.Blank

namespace LogCalls.Text.Surrogate

/-- The first code of a surrogate. -/
def first : Nat := 0xD800

/-- The number of surrogates. -/
def count : Nat := 0x800

/-- The first of the private characters that stand for surrogates. -/
def block : Nat := 0x10F000

/-- Whether a code is that of a surrogate. -/
def isCode (n : Nat) : Bool := first ≤ n && n < first + count

/-- The character with a code, or the one that stands for a surrogate. -/
def charOf (n : Nat) : Char := Char.ofNat (if isCode n then block + (n - first) else n)

/-- Whether a character stands for a surrogate. -/
def isStandIn (c : Char) : Bool := block ≤ c.toNat && c.toNat < block + count

/-- The code that a character shows by. -/
def codeOf (c : Char) : Nat := if isStandIn c then first + (c.toNat - block) else c.toNat

/-! ### Small laws -/

theorem isCode_iff {n : Nat} : isCode n = true ↔ 0xD800 ≤ n ∧ n < 0xE000 := by
  rw [isCode, Bool.and_eq_true, decide_eq_true_iff, decide_eq_true_iff]
  rfl

theorem isStandIn_iff {c : Char} :
    isStandIn c = true ↔ 0x10F000 ≤ c.toNat ∧ c.toNat < 0x10F800 := by
  rw [isStandIn, Bool.and_eq_true, decide_eq_true_iff, decide_eq_true_iff]
  rfl

theorem toNat_charOf {n : Nat} (h : isCode n = true) :
    (charOf n).toNat = 0x10F000 + (n - 0xD800) := by
  obtain ⟨hfirst, hlast⟩ := isCode_iff.mp h
  have hvalid : (block + (n - first)).isValidChar := .inr (by simp only [block, first]; omega)
  rw [charOf, if_pos h, Char.ofNat, dif_pos hvalid]
  rfl

/-- A surrogate is told by the character that stands for it. -/
theorem codeOf_charOf {n : Nat} (h : isCode n = true) :
    isStandIn (charOf n) = true ∧ codeOf (charOf n) = n := by
  obtain ⟨hfirst, hlast⟩ := isCode_iff.mp h
  have hstands : isStandIn (charOf n) = true := by
    rw [isStandIn_iff, toNat_charOf h]
    omega
  refine ⟨hstands, ?_⟩
  rw [codeOf, if_pos hstands, toNat_charOf h, first, block]
  omega

end LogCalls.Text.Surrogate
