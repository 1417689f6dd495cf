/-
LogCalls/Proofs/Message/Writing.lean

Which atoms can be written.  A decimal integer that can be read has few enough
digits to be written (`Text.digitsValue_lt`), and a real is written in any case.  A
hexadecimal integer is read at any length, so what cannot be written is one that
is too large (`Atom.exists_render_eq_ok_iff`).

Main result: the arguments of a logger call can be written where no token is a
hexadecimal integer that is too large
(`Message.exists_replacement_eq_ok_iff_of_tokens`), and the fault says that the
numeral would be too long (`Message.eq_of_replacement_eq_error`).
-/
import Mathlib.Data.List.Induction
import LogCalls.Message
import LogCalls.Proofs.Argument.Reading

namespace LogCalls

/-! ### Integers -/

namespace Text

theorem lt_ten_of_digitValue? {c : Char} {n : Nat} (h : digitValue? c = some n) : n < 10 := by
  rw [digitValue?] at h
  split at h
  · split at h
    · next hdigit =>
        obtain rfl := Option.some.inj h
        have hnine : c.toNat ≤ 57 := (Char.isDigit_iff_toNat.mp hdigit).2
        omega
    · cases h
  · rw [Option.map_eq_some_iff] at h
    obtain ⟨z, hz, rfl⟩ := h
    have hrange := List.find?_some hz
    simp only [Bool.and_eq_true, decide_eq_true_eq] at hrange
    omega

/-- A word of digits denotes a number with no more digits. -/
theorem digitsValue_lt (t : Text) : digitsValue t < Decimal.tenTo t.length := by
  induction t using List.reverseRecOn with
  | nil => decide
  | append_singleton t c ih =>
      have hdigit : (digitValue? c).getD 0 < 10 := by
        rcases hc : digitValue? c with _ | n
        · decide
        · exact lt_ten_of_digitValue? hc
      rw [digitsValue_append_singleton, List.length_append, List.length_singleton,
        Decimal.tenTo_succ]
      omega

theorem digitsValue_lt_tenTo {t : Text} {n : Nat} (h : t.length ≤ n) :
    digitsValue t < Decimal.tenTo n :=
  Nat.lt_of_lt_of_le (digitsValue_lt t) (Nat.pow_le_pow_right (by decide) h)

end Text

namespace Number

theorem exists_writeWhole_eq_ok_iff {n : Int} :
    (∃ u, writeWhole n = .ok u) ↔ n.natAbs < Decimal.tenTo Fault.digitLimit := by
  rw [writeWhole]
  by_cases h : n.natAbs < Decimal.tenTo Fault.digitLimit
  · simp [h]
  · simp [h]

theorem eq_of_write_eq_error {layout : Decimal.Layout} {n : Number} {e : Fault}
    (h : n.write layout = .error e) : e = .numeralTooLong := by
  cases n with
  | whole n =>
      rw [write, writeWhole] at h
      split at h
      · cases h
      · exact (Except.error.inj h).symm
  | real x => cases h

/-- A number that is not hexadecimal can be written if it can be read. -/
theorem exists_write_eq_ok_of_read {layout : Decimal.Layout} {t : Text} {n : Number}
    (hhex : hexDigits? t = none) (h : read t = .ok n) : ∃ u, n.write layout = .ok u := by
  rw [read, hhex] at h
  simp only at h
  split at h
  · split at h <;> obtain rfl := Except.ok.inj h <;> exact ⟨_, rfl⟩
  split at h
  · obtain rfl := Except.ok.inj h
    exact exists_writeWhole_eq_ok_iff.mpr (Int.natAbs_zero ▸ Decimal.tenTo_pos Fault.digitLimit)
  · obtain ⟨v, hv, hn⟩ := bind_eq_ok_iff.mp h
    rw [readDigits] at hv
    split at hv
    · cases hv
    next hlength =>
      obtain rfl := Except.ok.inj hv
      have hlt := Text.digitsValue_lt_tenTo (Nat.le_of_not_lt hlength)
      obtain rfl := Except.ok.inj hn
      refine exists_writeWhole_eq_ok_iff.mpr ?_
      split
      · rwa [Int.natAbs_neg, Int.natAbs_natCast]
      · rwa [Int.natAbs_natCast]

end Number

/-! ### Atoms -/

namespace Atom

/-- A token that is read as a hexadecimal integer with more decimal digits than
can be written. -/
def Oversized (t : Text) : Prop :=
  ∃ digits, Number.hexDigits? t = some digits ∧
    Decimal.tenTo Fault.digitLimit ≤ Text.valueInBase 16 digits

/-- A hexadecimal integer starts with a zero. -/
theorem exists_trimStart_of_hexDigits? {t digits : Text} (h : Number.hexDigits? t = some digits) :
    ∃ r, Text.trimStart t = '0' :: r := by
  rw [Number.hexDigits?] at h
  split at h
  · next ht => exact ⟨_, ht⟩
  · cases h

theorem eq_of_render_eq_error {a : Atom} {e : Fault} (h : a.render = .error e) :
    e = .numeralTooLong := by
  rw [render] at h
  split at h
  · cases h
  · exact Number.eq_of_write_eq_error h

/-- The atom of a token can be written unless it is a hexadecimal integer that
is too large. -/
theorem exists_render_eq_ok_iff {t : Text} {a : Atom} (h : ofToken t = .ok a) :
    (∃ u, a.render = .ok u) ↔ ¬ Oversized t := by
  rcases hhex : Number.hexDigits? t with _ | digits
  · have hnot : ¬ Oversized t := by
      rintro ⟨digits, hdigits, -⟩
      rw [hhex] at hdigits
      cases hdigits
    refine iff_of_true ?_ hnot
    rcases ofToken_cases h with ⟨-, rfl⟩ | ⟨n, -, hn, rfl⟩ | ⟨-, rfl⟩
    · exact ⟨_, rfl⟩
    · exact Number.exists_write_eq_ok_of_read hhex hn
    · exact ⟨_, rfl⟩
  · obtain ⟨r, hr⟩ := exists_trimStart_of_hexDigits? hhex
    have ha : a = numeral (.whole (Text.valueInBase 16 digits)) := by
      rw [ofToken_of_isDigit hr (by decide), Number.read, hhex] at h
      exact (Except.ok.inj h).symm
    have hsize : Oversized t ↔ Decimal.tenTo Fault.digitLimit ≤ Text.valueInBase 16 digits := by
      simp [Oversized, hhex]
    rw [ha, render_numeral_whole, Number.exists_writeWhole_eq_ok_iff, hsize, Int.natAbs_natCast,
      Nat.not_le]

end Atom

/-! ### Arguments of a logger call -/

namespace Message

variable {atoms : List Atom}

theorem exists_part_eq_ok_iff {a : Atom} :
    (∃ u, part a = .ok u) ↔ (a.isLiteral = true → ∃ u, a.render = .ok u) := by
  rcases ha : a.isLiteral with _ | _ <;> simp [part, ha]

theorem eq_of_part_eq_error {a : Atom} {e : Fault} (h : part a = .error e) :
    e = .numeralTooLong := by
  rw [part] at h
  split at h
  · exact Atom.eq_of_render_eq_error h
  · cases h

theorem exists_replacement_eq_ok_iff :
    (∃ u, replacement atoms = .ok u) ↔ ∀ a ∈ atoms, ∃ u, a.render = .ok u := by
  have hparts : (∃ u, replacement atoms = .ok u) ↔
      (∃ parts, atoms.mapM part = .ok parts) ∧ ∃ args, arguments atoms = .ok args := by
    simp only [replacement, text, bind_eq_ok_iff, pure_eq_ok]
    constructor
    · rintro ⟨_, _, ⟨parts, hparts, -⟩, args, hargs, -⟩
      exact ⟨⟨parts, hparts⟩, args, hargs⟩
    · rintro ⟨⟨parts, hparts⟩, args, hargs⟩
      exact ⟨_, _, ⟨parts, hparts, rfl⟩, args, hargs, rfl⟩
  rw [hparts, arguments, exists_mapM_eq_ok_iff, exists_mapM_eq_ok_iff]
  simp only [exists_part_eq_ok_iff, List.mem_filter, Bool.not_eq_true']
  constructor
  · rintro ⟨hliterals, hothers⟩ a ha
    rcases hliteral : a.isLiteral with _ | _
    · exact hothers a ⟨ha, hliteral⟩
    · exact hliterals a ha hliteral
  · intro h
    exact ⟨fun a ha _ => h a ha, fun a ha => h a ha.1⟩

theorem eq_of_replacement_eq_error {e : Fault} (h : replacement atoms = .error e) :
    e = .numeralTooLong := by
  rcases bind_eq_error_iff.mp h with h | ⟨message, -, h⟩
  · rcases bind_eq_error_iff.mp h with h | ⟨parts, -, h⟩
    · obtain ⟨a, -, ha⟩ := exists_mem_of_mapM_eq_error h
      exact eq_of_part_eq_error ha
    · cases h
  · rcases bind_eq_error_iff.mp h with h | ⟨args, -, h⟩
    · obtain ⟨a, -, ha⟩ := exists_mem_of_mapM_eq_error h
      exact Atom.eq_of_render_eq_error ha
    · cases h

/-- The arguments made of tokens can be written where none of the tokens is
too large. -/
theorem exists_replacement_eq_ok_iff_of_tokens {tokens : List Text}
    (h : tokens.mapM Atom.ofToken = .ok atoms) :
    (∃ u, replacement atoms = .ok u) ↔ ∀ token ∈ tokens, ¬ Atom.Oversized token := by
  rw [exists_replacement_eq_ok_iff]
  constructor
  · intro hatoms token htoken
    obtain ⟨a, ha⟩ := exists_mapM_eq_ok_iff.mp ⟨atoms, h⟩ token htoken
    exact (Atom.exists_render_eq_ok_iff ha).mp
      (hatoms a ((mem_iff_of_mapM_eq_ok h).mpr ⟨token, htoken, ha⟩))
  · intro htokens a ha
    obtain ⟨token, htoken, hof⟩ := (mem_iff_of_mapM_eq_ok h).mp ha
    exact (Atom.exists_render_eq_ok_iff hof).mpr (htokens token htoken)

end Message

end LogCalls
