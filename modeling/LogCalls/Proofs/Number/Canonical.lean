/-
LogCalls/Proofs/Number/Canonical.lean

Integers that are read and written again.  A word of digits denotes a number by the
places of its digits (`placeValue`), and among the words that denote one number there
is one in ASCII digits and without zeros in front: its canonical numeral, which is
what is written for it (`isCanonical_iff`).

An integer has a limit on its digits twice, and not the same.  A decimal word is
refused for its length, zeros in front included, a hexadecimal one never; what is
written is refused for the length of its canonical numeral.  So a numeral that can be
written can be read, and is read as what it was written for
(`Atom.ofToken_of_render`).

Main result: a token that starts with a digit is read as the number of its longest
run of hexadecimal or decimal digits, and reading what is written for it changes
nothing (`Atom.ofToken_integer`).
-/
import Mathlib.Data.List.Induction
import Mathlib.Data.Nat.Digits.Lemmas
import LogCalls.Proofs.Argument.Printing
import LogCalls.Proofs.Message.Writing
import LogCalls.Proofs.Number.Spelling

namespace LogCalls

namespace Text

variable {base n : Nat} {p : Char → Bool} {u w digits t : Text}

/-! ### Places of digits -/

/-- The number that a word of digits denotes in a base, by their values. -/
def placeValue (base : Nat) (value? : Char → Option Nat) (digits : Text) : Nat :=
  Nat.ofDigits base (digits.reverse.map fun c => (value? c).getD 0)

theorem placeValue_eq_foldl (base : Nat) (value? : Char → Option Nat) (digits : Text) :
    placeValue base value? digits =
      digits.foldl (fun v c => base * v + (value? c).getD 0) 0 := by
  rw [placeValue, Nat.ofDigits_eq_foldr, List.foldr_map, List.foldr_reverse]
  simp only [Nat.cast_id, Nat.add_comm]

theorem digitsValue_eq_placeValue (digits : Text) :
    digitsValue digits = placeValue 10 digitValue? digits :=
  (placeValue_eq_foldl 10 digitValue? digits).symm

theorem valueInBase_eq_placeValue (base : Nat) (digits : Text) :
    valueInBase base digits = placeValue base hexValue? digits :=
  (placeValue_eq_foldl base hexValue? digits).symm

/-! ### Longest runs of digits -/

/-- A text starts with a run of characters of a kind, and goes on with another one. -/
structure IsRun (p : Char → Bool) (digits t : Text) : Prop where
  ne_nil : digits ≠ []
  all : ∀ c ∈ digits, p c = true
  goes_on : ∃ rest, t = digits ++ rest ∧ ∀ c ∈ rest.head?, p c = false

theorem isRun_iff : IsRun p digits t ↔ t.takeWhile p = digits ∧ digits ≠ [] := by
  constructor
  · rintro ⟨hne, hall, rest, rfl, hrest⟩
    exact ⟨(takeWhile_dropWhile_append hall hrest).1, hne⟩
  · rintro ⟨rfl, hne⟩
    refine ⟨hne, forall_mem_takeWhile p t, t.dropWhile p,
      (List.takeWhile_append_dropWhile).symm, fun c hc => ?_⟩
    have hnot := List.head?_dropWhile_not p t
    rw [Option.mem_def.mp hc] at hnot
    simpa using hnot

/-- Blanks in front of a digit are what is trimmed. -/
theorem trimStart_append_of_isDigit {c : Char} {r : Text} (hw : ∀ d ∈ w, isBlank d = true)
    (hc : isDigit c = true) : trimStart (w ++ c :: r) = c :: r := by
  rw [trimStart, List.dropWhile_append_of_pos hw]
  exact Number.trimStart_of_isDigit hc

/-! ### Canonical numerals -/

/-- The canonical numeral of a number: ASCII digits that denote it, with no zero in
front but in the numeral of zero. -/
structure IsCanonical (u : Text) (n : Nat) : Prop where
  ne_nil : u ≠ []
  ascii : ∀ c ∈ u, c.isDigit = true
  lead : u.head? = some '0' → u = ['0']
  value : placeValue 10 digitValue? u = n

theorem digitsValue_numeral (n : Nat) : digitsValue (numeral n) = n := by
  rw [Argument.digitsValue_eq_ofDigitChars fun _ => Argument.isDigit_of_mem_numeral]
  exact Nat.ofDigitChars_ten_toDigits

/-- Only the numeral of zero starts with a zero. -/
theorem numeral_eq_of_head? (h : (numeral n).head? = some '0') : numeral n = ['0'] := by
  induction n using Nat.strong_induction_on with
  | _ n ih =>
      rcases Nat.lt_or_ge n 10 with hlt | hle
      · have hone : numeral n = [n.digitChar] := Nat.toDigits_of_lt_base hlt
        rw [hone] at h ⊢
        rw [Option.some.inj h]
      · -- the numeral starts as that of its tenth, which is not zero
        have hsplit : numeral n = numeral (n / 10) ++ [(n % 10).digitChar] := by
          rw [numeral, Nat.toDigits_eq_if (by decide), if_neg (Nat.not_lt.mpr hle)]
          rfl
        have hne : numeral (n / 10) ≠ [] := Nat.toDigits_ne_nil
        rw [hsplit, List.head?_append_of_ne_nil _ hne] at h
        have htenth := digitsValue_numeral (n / 10)
        rw [ih (n / 10) (by omega) h] at htenth
        have hzero : digitsValue ['0'] = 0 := rfl
        omega

theorem isCanonical_numeral (n : Nat) : IsCanonical (numeral n) n := by
  refine ⟨Nat.toDigits_ne_nil, fun _ => Argument.isDigit_of_mem_numeral, numeral_eq_of_head?, ?_⟩
  rw [← digitsValue_eq_placeValue, digitsValue_numeral]

/-- An ASCII digit is the one of its value. -/
theorem exists_digitChar {c : Char} (hc : c.isDigit = true) :
    ∃ d < 10, digitValue? c = some d ∧ c = d.digitChar := by
  have hrange : 48 ≤ c.toNat ∧ c.toNat ≤ 57 := Char.isDigit_iff_toNat.mp hc
  refine ⟨c.toNat - 48, by omega, digitValue?_of_isDigit (by omega) hc, ?_⟩
  rw [← Char.toNat_inj, Nat.toNat_digitChar_of_lt_ten (by omega)]
  omega

/-- What stands in front of the last of two digits or more has no zero in front. -/
theorem head?_ne_of_append {v : Text} {c : Char} (hv : v ≠ [])
    (hlead : (v ++ [c]).head? = some '0' → v ++ [c] = ['0']) : v.head? ≠ some '0' := by
  intro hzero
  have hfirst : (v ++ [c]).head? = some '0' := by
    rw [List.head?_append_of_ne_nil v hv, hzero]
  have hone := congrArg List.length (hlead hfirst)
  have hpos := List.length_pos_of_ne_nil hv
  rw [List.length_append, List.length_singleton, List.length_singleton] at hone
  omega

/-- A number has one canonical numeral. -/
theorem IsCanonical.eq_numeral (h : IsCanonical u n) : u = numeral n := by
  obtain ⟨hne, hascii, hlead, hvalue⟩ := h
  rw [← digitsValue_eq_placeValue] at hvalue
  induction u using List.reverseRecOn generalizing n with
  | nil => exact absurd rfl hne
  | append_singleton v c ih =>
      rw [List.forall_mem_append, List.forall_mem_singleton] at hascii
      obtain ⟨d, hd, hc, rfl⟩ := exists_digitChar hascii.2
      rw [digitsValue_append_singleton, hc, Option.getD_some] at hvalue
      have hlast : numeral d = [d.digitChar] := Nat.toDigits_of_lt_base hd
      rcases eq_or_ne v [] with rfl | hv
      · rw [digitsValue_nil, Nat.mul_zero, Nat.zero_add] at hvalue
        rw [List.nil_append, ← hvalue, hlast]
      · have hhead := head?_ne_of_append hv hlead
        have hnumeral : v = numeral (digitsValue v) :=
          ih hv hascii.1 (fun hzero => absurd hzero hhead) rfl
        have hpos : 0 < digitsValue v := by
          refine Nat.pos_of_ne_zero fun hzero => hhead ?_
          rw [hnumeral, hzero]
          rfl
        calc v ++ [d.digitChar] = numeral (digitsValue v) ++ numeral d := by rw [hlast, ← hnumeral]
          _ = numeral (10 * digitsValue v + d) :=
            Nat.toDigits_append_toDigits (by decide) hpos hd
          _ = numeral n := by rw [hvalue]

theorem length_numeral_le {k : Nat} (hk : 0 < k) (h : (Nat.digits 10 n).length ≤ k) :
    (numeral n).length ≤ k :=
  (Nat.length_toDigits_le_iff (by decide) hk).mpr ((Nat.digits_length_le_iff (by decide) n).mp h)

theorem isCanonical_iff : IsCanonical u n ↔ u = numeral n := by
  constructor
  · exact IsCanonical.eq_numeral
  · rintro rfl
    exact isCanonical_numeral n

end Text

/-! ### Writing and reading again -/

theorem Decimal.length_digits_le_iff (n k : Nat) :
    (Nat.digits 10 n).length ≤ k ↔ n < tenTo k :=
  Nat.digits_length_le_iff (by decide) n

namespace Atom

variable {n : Nat} {u w t token digits : Text}

/-- An integer is written by its canonical numeral, where this is no longer than the
limit. -/
theorem render_whole_eq_ok_iff :
    (numeral (.whole n)).render = .ok u ↔
      Text.IsCanonical u n ∧ (Nat.digits 10 n).length ≤ Fault.digitLimit := by
  have hsigned : Text.signedNumeral n = Text.numeral n := by
    rw [Text.signedNumeral, if_neg (Int.not_lt.mpr (Int.natCast_nonneg n)), Int.natAbs_natCast]
  rw [render_numeral_whole, Number.writeWhole, Int.natAbs_natCast, Decimal.length_digits_le_iff,
    Text.isCanonical_iff, hsigned]
  split
  next h => rw [Except.ok.injEq, and_iff_left h, eq_comm]
  next h => simp [h]

/-- A numeral that can be written is read as the number that it was written for. -/
theorem ofToken_of_render (h : (numeral (.whole n)).render = .ok u) :
    ofToken u = .ok (numeral (.whole n)) := by
  obtain ⟨hu, hlength⟩ := render_whole_eq_ok_iff.mp h
  have hshort : u.length ≤ Fault.digitLimit := by
    rw [hu.eq_numeral]
    exact Text.length_numeral_le (by decide) hlength
  rw [Argument.ofToken_digits hu.ne_nil hu.ascii hshort,
    ← Argument.digitsValue_eq_ofDigitChars hu.ascii, Text.digitsValue_eq_placeValue, hu.value]

/-- A token is read as an integer, and what is written for this integer is its
canonical numeral, and read as the same atom again. -/
structure ReadsStably (token : Text) (n : Nat) : Prop where
  read : ofToken token = .ok (numeral (.whole n))
  raises : (∃ e, (numeral (.whole n)).render = .error e) ↔
    Fault.digitLimit < (Nat.digits 10 n).length
  label : ∀ e, (numeral (.whole n)).render = .error e → e.label = "ValueError"
  writes : ∀ u, (numeral (.whole n)).render = .ok u ↔
    Text.IsCanonical u n ∧ (Nat.digits 10 n).length ≤ Fault.digitLimit
  again : ∀ u, (numeral (.whole n)).render = .ok u → ofToken u = .ok (numeral (.whole n))

theorem readsStably_of_ofToken (h : ofToken token = .ok (numeral (.whole n))) :
    ReadsStably token n := by
  refine ⟨h, ?_, fun e he => ?_, fun u => render_whole_eq_ok_iff, fun u => ofToken_of_render⟩
  · rw [← Nat.not_le]
    constructor
    · rintro ⟨e, he⟩ hle
      rw [render_whole_eq_ok_iff.mpr ⟨Text.isCanonical_numeral n, hle⟩] at he
      cases he
    · intro hlong
      rcases hrender : (numeral (.whole n)).render with e | u
      · exact ⟨e, rfl⟩
      · exact absurd (render_whole_eq_ok_iff.mp hrender).2 hlong
  · rw [eq_of_render_eq_error he]
    rfl

/-! ### Integers of tokens -/

/-- A text starts with a hexadecimal integer that has the given digits. -/
def HexLed (digits t : Text) : Prop :=
  ∃ x r, t = '0' :: x :: r ∧ (x = 'x' ∨ x = 'X') ∧ Text.IsRun Text.isHexDigit digits r

theorem hexDigits?_eq_some_iff_hexLed (ht : Text.trimStart token = t) :
    Number.hexDigits? token = some digits ↔ HexLed digits t := by
  rw [Number.hexDigits?_eq_some_iff, ht]
  refine exists_congr fun x => exists_congr fun r => and_congr_right fun _ =>
    and_congr_right fun _ => ?_
  rw [Text.isRun_iff]
  constructor
  · rintro ⟨hne, rfl⟩
    exact ⟨rfl, hne⟩
  · rintro ⟨rfl, hne⟩
    exact ⟨hne, rfl⟩

/-- A decimal integer of a token is read where it is no longer than the limit. -/
theorem ofToken_of_isRun {c : Char} {r : Text} (ht : Text.trimStart token = c :: r)
    (hc : Text.isDigit c = true) (hhex : Number.hexDigits? token = none)
    (hmark : Number.hasRealMark token = false) (hrun : Text.IsRun Text.isDigit digits (c :: r)) :
    ofToken token =
      if Fault.digitLimit < digits.length then .error (.tooManyDigits digits.length)
      else .ok (numeral (.whole (Text.placeValue 10 Text.digitValue? digits))) := by
  rw [ofToken_of_isDigit ht hc, read_of_isDigit ht hc hhex hmark, (Text.isRun_iff.mp hrun).1,
    Number.readDigits, Text.digitsValue_eq_placeValue]
  split <;> rfl

/-- **Integers are read exactly and written stably.**  A token that starts with a digit
behind blanks is the integer of its longest run of hexadecimal digits, where it starts
with one; and else, where it has no mark of a real, that of its longest run of decimal
digits of any script, unless this run is longer than the limit.  What is written for it
is the canonical numeral, unless that is longer than the limit, and is read as the same
atom again. -/
theorem ofToken_integer (hw : ∀ c ∈ w, Text.isBlank c = true)
    (ht : t.head?.any Text.isDigit = true) :
    (∀ digits, HexLed digits t →
        ReadsStably (w ++ t) (Text.placeValue 16 Text.hexValue? digits)) ∧
      ((∀ digits, ¬ HexLed digits t) →
        (∀ c ∈ w ++ t, c ≠ '\\' ∧ c ≠ '.' ∧ c ≠ 'e' ∧ c ≠ 'E') →
        ∃ digits, Text.IsRun Text.isDigit digits t ∧
          ((∃ e, ofToken (w ++ t) = .error e ∧ e.label = "ValueError") ↔
            Fault.digitLimit < digits.length) ∧
          (digits.length ≤ Fault.digitLimit →
            ReadsStably (w ++ t) (Text.placeValue 10 Text.digitValue? digits))) := by
  rcases t with _ | ⟨c, r⟩
  · cases ht
  have hc : Text.isDigit c = true := ht
  have htrim : Text.trimStart (w ++ c :: r) = c :: r := Text.trimStart_append_of_isDigit hw hc
  constructor
  · intro digits hdigits
    have hhex := (hexDigits?_eq_some_iff_hexLed htrim).mpr hdigits
    refine readsStably_of_ofToken ?_
    rw [ofToken_of_isDigit htrim hc, Number.read, hhex, ← Text.valueInBase_eq_placeValue]
    rfl
  · intro hnot hmarks
    have hhex : Number.hexDigits? (w ++ c :: r) = none := by
      rw [Option.eq_none_iff_forall_ne_some]
      intro digits hdigits
      exact hnot digits ((hexDigits?_eq_some_iff_hexLed htrim).mp hdigits)
    have hrun : Text.IsRun Text.isDigit ((c :: r).takeWhile Text.isDigit) (c :: r) := by
      refine Text.isRun_iff.mpr ⟨rfl, ?_⟩
      rw [List.takeWhile_cons_of_pos hc]
      exact List.cons_ne_nil _ _
    have hread := ofToken_of_isRun htrim hc hhex (Number.hasRealMark_eq_false hmarks) hrun
    refine ⟨_, hrun, ?_, fun hle => ?_⟩
    · rw [hread]
      split
      next hlong => exact iff_of_true ⟨_, rfl, rfl⟩ hlong
      next hshort =>
        refine iff_of_false ?_ hshort
        rintro ⟨e, he, -⟩
        cases he
    · rw [if_neg (Nat.not_lt.mpr hle)] at hread
      exact readsStably_of_ofToken hread

/-- The letter that marks a real is a hexadecimal digit too, and digits of another
script with zeros in front are read as they are. -/
theorem ofToken_integer_hexAndArabic :
    ReadsStably " 0x1EL".toList 30 ∧
      ReadsStably ['\t', '\u0660', '\u0664', '\u0662', 'L'] 42 := by
  constructor
  · have hblank : ∀ c ∈ [' '], Text.isBlank c = true := List.all_eq_true.mp rfl
    have hrun : Text.IsRun Text.isHexDigit "1E".toList "1EL".toList := by
      refine ⟨by decide, List.all_eq_true.mp rfl, ['L'], rfl, ?_⟩
      rintro c ⟨⟩
      rfl
    exact (ofToken_integer hblank rfl).1 _ ⟨'x', _, rfl, .inl rfl, hrun⟩
  · have hblank : ∀ c ∈ ['\t'], Text.isBlank c = true := List.all_eq_true.mp rfl
    have hnot : ∀ digits, ¬ HexLed digits ['\u0660', '\u0664', '\u0662', 'L'] := by
      rintro digits ⟨x, r, ht, -⟩
      cases ht
    obtain ⟨digits, hrun, -, hstable⟩ :=
      (ofToken_integer hblank rfl).2 hnot (List.all_iff_forall_prop.mp (by decide))
    obtain rfl := (Text.isRun_iff.mp hrun).1
    exact hstable (by decide)

end Atom

end LogCalls
