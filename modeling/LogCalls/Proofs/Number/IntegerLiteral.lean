/-
LogCalls/Proofs/Number/IntegerLiteral.lean

Integer literals of Java, and what they are read as.  A literal has a radix that is
told by its lead, digits with underscores between them, and a suffix that makes it
long; its value is that of the digits in 32 or 64 bits.

Reading knows one lead, that of hexadecimal integers, and stops at the first
underscore.  So it takes the digits in front of an underscore, octal digits as
decimal ones, and of a binary literal the zero of its lead
(`IntegerLiteral.ofToken_eq`).  The value is kept where the literal is decimal or
hexadecimal, has no underscore and is not negative (`IntegerLiteral.reading_of_plain`).

Main result: what a token keeps of its source (`Atom.numeral_of_longest_prefix`).
-/
import Mathlib.Algebra.Ring.Int.Defs
import Mathlib.Algebra.Ring.Nat
import Mathlib.Data.List.TakeWhile
import LogCalls.Proofs.Argument.Printing
import LogCalls.Proofs.Number.Spelling

namespace LogCalls

/-- The radix of an integer literal. -/
inductive Radix where
  | decimal
  | octal
  | hexadecimal
  | binary
  deriving DecidableEq

namespace Radix

def base : Radix → Nat
  | .decimal => 10
  | .octal => 8
  | .hexadecimal => 16
  | .binary => 2

/-- What stands in front of the digits. -/
def leads : Radix → List Text
  | .decimal => [[]]
  | .octal => [['0']]
  | .hexadecimal => [['0', 'x'], ['0', 'X']]
  | .binary => [['0', 'b'], ['0', 'B']]

/-- Whether a character is a digit of the radix. -/
def isDigit (r : Radix) (c : Char) : Bool := (Text.hexValue? c).any (· < r.base)

end Radix

/-- An integer literal.  An underscore stands between two digits; the zero in front
of octal digits is one. -/
structure IntegerLiteral where
  radix : Radix
  lead : Text
  digits : Text
  suffix : Text
  lead_mem : lead ∈ radix.leads
  isDigit : ∀ c ∈ digits, c = '_' ∨ radix.isDigit c = true
  ends : digits.getLast?.any (· ≠ '_') = true
  starts : radix ≠ .octal → digits.head?.any (· ≠ '_') = true
  no_zero : radix = .decimal → digits.head? = some '0' → digits = ['0']
  suffix_mem : suffix ∈ [[], ['l'], ['L']]
  fits : Text.valueInBase radix.base (digits.filter (· ≠ '_')) <
    2 ^ ((if suffix = [] then 32 else 64) - if radix = .decimal then 1 else 0)

namespace IntegerLiteral

/-- The source text of a literal. -/
def text (i : IntegerLiteral) : Text := i.lead ++ (i.digits ++ i.suffix)

/-- The number of its bits. -/
def bits (i : IntegerLiteral) : Nat := if i.suffix = [] then 32 else 64

/-- The number that its digits denote. -/
def magnitude (i : IntegerLiteral) : Nat :=
  Text.valueInBase i.radix.base (i.digits.filter (· ≠ '_'))

/-- The value of a literal, as a signed number of its bits. -/
def value (i : IntegerLiteral) : Int :=
  if 2 * i.magnitude < 2 ^ i.bits then i.magnitude else i.magnitude - 2 ^ i.bits

/-- The digits in front of the first underscore. -/
def seen (i : IntegerLiteral) : Text := i.digits.takeWhile (· ≠ '_')

/-- What a literal is read as. -/
def reading (i : IntegerLiteral) : Except Fault Number :=
  match i.radix with
  | .decimal => .ok (.whole (Text.valueInBase 10 i.seen))
  | .octal => (Number.readDigits ('0' :: i.seen)).map fun (n : Nat) => .whole n
  | .hexadecimal => .ok (.whole (Text.valueInBase 16 i.seen))
  | .binary => .ok (.whole 0)

/-- A literal whose value is kept: decimal or hexadecimal, without underscores, and
not negative. -/
structure IsPlain (i : IntegerLiteral) : Prop where
  radix : i.radix = .decimal ∨ i.radix = .hexadecimal
  undivided : '_' ∉ i.digits
  nonneg : 0 ≤ i.value

end IntegerLiteral

/-! ### Digits -/

namespace Text

theorem isHexDigit_of_any {c : Char} {p : Nat → Bool} (h : (hexValue? c).any p = true) :
    isHexDigit c = true := by
  rw [isHexDigit]
  rcases hc : hexValue? c with _ | v
  · rw [hc] at h
    cases h
  · rfl

/-- The digits up to ten are decimal digits of the same value. -/
theorem digitValue?_eq_hexValue? {c : Char} (h : (hexValue? c).any (· < 10) = true) :
    digitValue? c = hexValue? c := by
  have hhex := isHexDigit_of_any h
  revert h
  exact forall_hexDigit (P := fun c => (hexValue? c).any (· < 10) = true →
    digitValue? c = hexValue? c) (by decide +kernel) hhex

theorem digitsValue_eq_valueInBase {digits : Text}
    (h : ∀ c ∈ digits, (hexValue? c).any (· < 10) = true) :
    digitsValue digits = valueInBase 10 digits := by
  have hfrom : ∀ v, digits.foldl (fun v c => 10 * v + (digitValue? c).getD 0) v =
      digits.foldl (fun v c => 10 * v + (hexValue? c).getD 0) v := by
    induction digits with
    | nil => exact fun _ => rfl
    | cons c digits ih =>
        rw [List.forall_mem_cons] at h
        intro v
        rw [List.foldl_cons, List.foldl_cons, digitValue?_eq_hexValue? h.1, ih h.2]
  exact hfrom 0

/-- A number has at least as many digits as it is written with, where the first of
them is not zero. -/
theorem pow_le_valueInBase {base : Nat} {c : Char} {digits : Text}
    (h : 1 ≤ (hexValue? c).getD 0) : base ^ digits.length ≤ valueInBase base (c :: digits) := by
  have hfrom : ∀ v, v * base ^ digits.length ≤
      digits.foldl (fun v c => base * v + (hexValue? c).getD 0) v := by
    induction digits with
    | nil => exact fun v => Nat.le_of_eq (Nat.mul_one v)
    | cons d digits ih =>
        intro v
        have hrest := ih (base * v + (hexValue? d).getD 0)
        refine Nat.le_trans ?_ hrest
        rw [List.length_cons, Nat.pow_succ, Nat.add_mul]
        calc v * (base ^ digits.length * base) = base * v * base ^ digits.length := by
              rw [Nat.mul_comm (base ^ _) base, ← Nat.mul_assoc, Nat.mul_comm v base]
          _ ≤ _ := Nat.le_add_right _ _
  have hone := hfrom (base * 0 + (hexValue? c).getD 0)
  rw [Nat.mul_zero, Nat.zero_add] at hone
  exact Nat.le_trans (Nat.le_mul_of_pos_left _ h) (by simpa [valueInBase] using hone)

/-- Characters of a kind up to the first underscore, and others behind them. -/
theorem takeWhile_seen {p : Char → Bool} {digits rest : Text}
    (hdigits : ∀ c ∈ digits, c = '_' ∨ p c = true) (hmark : p '_' = false)
    (hrest : ∀ c ∈ rest.head?, p c = false) :
    (digits ++ rest).takeWhile p = digits.takeWhile (· ≠ '_') := by
  induction digits with
  | nil =>
      rcases rest with _ | ⟨c, rest⟩
      · rfl
      · rw [List.nil_append, List.takeWhile_cons_of_neg (by rw [hrest c rfl]; decide)]
        rfl
  | cons c digits ih =>
      rw [List.forall_mem_cons] at hdigits
      rcases hdigits.1 with rfl | hc
      · rw [List.cons_append, List.takeWhile_cons_of_neg (by rw [hmark]; decide),
          List.takeWhile_cons_of_neg (by decide)]
      · have hne : c ≠ '_' := by
          rintro rfl
          rw [hmark] at hc
          cases hc
        rw [List.cons_append, List.takeWhile_cons_of_pos hc, ih hdigits.2]
        simp [hne]

end Text

namespace IntegerLiteral

variable {i : IntegerLiteral} {w w' : Text} {c : Char}

theorem digit_of_mem_seen (h : c ∈ i.seen) : i.radix.isDigit c = true := by
  have hne := Text.forall_mem_takeWhile (fun c => decide (c ≠ '_')) i.digits c h
  exact (i.isDigit c ((List.takeWhile_sublist _).mem h)).resolve_left (of_decide_eq_true hne)

theorem typeSuffix (i : IntegerLiteral) (form : Number.Form) :
    Number.TypeSuffix form i.suffix := by
  have hsuffix := i.suffix_mem
  simp only [List.mem_cons, List.not_mem_nil, or_false] at hsuffix
  rcases hsuffix with h | h | h
  · exact .inl h
  · exact .inr ⟨'l', by cases form <;> decide, h⟩
  · exact .inr ⟨'L', by cases form <;> decide, h⟩

/-- Where the radix is not sixteen, its digits are decimal digits. -/
theorem any_lt_ten (hradix : i.radix ≠ .hexadecimal) (hc : i.radix.isDigit c = true) :
    (Text.hexValue? c).any (· < 10) = true := by
  have hbase : i.radix.base ≤ 10 := by
    generalize i.radix = radix at hradix
    revert hradix
    cases radix <;> decide
  rw [Radix.isDigit] at hc
  rcases h : Text.hexValue? c with _ | v
  · rw [h] at hc
    cases hc
  · rw [h, Option.any_some, decide_eq_true_eq] at hc
    exact decide_eq_true (Nat.lt_of_lt_of_le hc hbase)

theorem isDigit_of_radix (hradix : i.radix ≠ .hexadecimal) (hc : i.radix.isDigit c = true) :
    Text.isDigit c = true := by
  have hten := any_lt_ten hradix hc
  rw [Text.isDigit, Text.digitValue?_eq_hexValue? hten]
  rcases h : Text.hexValue? c with _ | v
  · rw [h] at hten
    cases hten
  · rfl

/-! ### The token of a literal -/

/-- The characters of a token around a literal that is not hexadecimal. -/
theorem char_cases (hradix : i.radix ≠ .hexadecimal) (hw : ∀ c ∈ w, Text.isBlank c = true)
    (hw' : ∀ c ∈ w', Text.isBlank c = true) :
    ∀ c ∈ w ++ (i.text ++ w'), Text.isBlank c = true ∨ Text.isDigit c = true ∨
      c ∈ ['_', 'b', 'B', 'l', 'L'] := by
  rw [text]
  simp only [List.forall_mem_append]
  refine ⟨fun c hc => .inl (hw c hc), ⟨?_, fun c hc => ?_, ?_⟩, fun c hc => .inl (hw' c hc)⟩
  · have hlead := i.lead_mem
    generalize i.radix = radix at hradix hlead
    generalize i.lead = lead at hlead
    revert lead
    cases radix with
    | hexadecimal => exact absurd rfl hradix
    | decimal | octal | binary =>
        simp only [Radix.leads, List.forall_mem_cons, List.not_mem_nil, false_imp_iff, implies_true]
        decide
  · rcases i.isDigit c hc with rfl | hdigit
    · exact .inr (.inr List.mem_cons_self)
    · exact .inr (.inl (isDigit_of_radix hradix hdigit))
  · have hsuffix := i.suffix_mem
    generalize i.suffix = suffix at hsuffix
    revert suffix
    simp only [List.forall_mem_cons, List.not_mem_nil, false_imp_iff, implies_true]
    decide

/-- A literal starts with a digit. -/
theorem exists_cons (i : IntegerLiteral) : ∃ c r, i.text = c :: r ∧ Text.isDigit c = true := by
  rw [text]
  rcases hradix : i.radix with _ | _ | _ | _
  · have hlead : i.lead = [] := by simpa [hradix, Radix.leads] using i.lead_mem
    have hstarts := i.starts (by simp [hradix])
    rcases hdigits : i.digits with _ | ⟨c, r⟩
    · rw [hdigits] at hstarts
      cases hstarts
    · rw [hdigits, List.head?_cons, Option.any_some, decide_eq_true_eq] at hstarts
      have hmem : c ∈ i.digits := by
        rw [hdigits]
        exact List.mem_cons_self
      refine ⟨c, r ++ i.suffix, by rw [hlead]; rfl, ?_⟩
      exact isDigit_of_radix (by simp [hradix]) ((i.isDigit c hmem).resolve_left hstarts)
  all_goals
    have hlead := i.lead_mem
    simp only [hradix, Radix.leads, List.mem_cons, List.not_mem_nil, or_false] at hlead
  · exact ⟨'0', i.digits ++ i.suffix, by rw [hlead]; rfl, by decide⟩
  · rcases hlead with h | h
    · exact ⟨'0', 'x' :: (i.digits ++ i.suffix), by rw [h]; rfl, by decide⟩
    · exact ⟨'0', 'X' :: (i.digits ++ i.suffix), by rw [h]; rfl, by decide⟩
  · rcases hlead with h | h
    · exact ⟨'0', 'b' :: (i.digits ++ i.suffix), by rw [h]; rfl, by decide⟩
    · exact ⟨'0', 'B' :: (i.digits ++ i.suffix), by rw [h]; rfl, by decide⟩

theorem trimStart_eq (hw : ∀ c ∈ w, Text.isBlank c = true) :
    Text.trimStart (w ++ (i.text ++ w')) = i.text ++ w' := by
  obtain ⟨c, r, htext, hc⟩ := i.exists_cons
  rw [Text.trimStart, List.dropWhile_append_of_pos hw, htext]
  exact Number.trimStart_of_isDigit hc

/-- A token that starts with a digit is a numeral. -/
theorem ofToken_of_text (hw : ∀ c ∈ w, Text.isBlank c = true) :
    Atom.ofToken (w ++ (i.text ++ w')) =
      (Number.read (w ++ (i.text ++ w'))).map .numeral := by
  obtain ⟨c, r, htext, hc⟩ := i.exists_cons
  have htrim : Text.trimStart (w ++ (i.text ++ w')) = i.text ++ w' := trimStart_eq hw
  rw [htext, List.cons_append] at htrim
  rw [htext, List.cons_append, Atom.ofToken, htrim]
  simp only [Atom.isQuote_eq_false_of_isDigit hc, hc, if_true, Bool.false_eq_true, if_false]

/-- A literal that is not hexadecimal is read up to its first character that is no
decimal digit. -/
theorem read_eq (hradix : i.radix ≠ .hexadecimal) (hw : ∀ c ∈ w, Text.isBlank c = true)
    (hw' : ∀ c ∈ w', Text.isBlank c = true) :
    Number.read (w ++ (i.text ++ w')) =
      (Number.readDigits ((i.text ++ w').takeWhile Text.isDigit)).map
        fun (n : Nat) => .whole n := by
  have hcases := char_cases hradix hw hw'
  have hne : ∀ c ∈ w ++ (i.text ++ w'), ∀ d, Text.isBlank d = false → Text.isDigit d = false →
      d ∉ ['_', 'b', 'B', 'l', 'L'] → c ≠ d := by
    rintro c hc d hblank hdigit hother rfl
    rcases hcases c hc with h | h | h
    · rw [hblank] at h
      cases h
    · rw [hdigit] at h
      cases h
    · exact hother h
  have hhex : Number.hexDigits? (w ++ (i.text ++ w')) = none := by
    refine Number.hexDigits?_eq_none fun c hc => ?_
    have hmem := (List.dropWhile_sublist _).mem hc
    exact ⟨hne c hmem _ (by decide) (by decide) (by decide),
      hne c hmem _ (by decide) (by decide) (by decide)⟩
  have hmark : Number.hasRealMark (w ++ (i.text ++ w')) = false := by
    refine Number.hasRealMark_eq_false fun c hc => ?_
    exact ⟨hne c hc _ (by decide) (by decide) (by decide),
      hne c hc _ (by decide) (by decide) (by decide),
      hne c hc _ (by decide) (by decide) (by decide),
      hne c hc _ (by decide) (by decide) (by decide)⟩
  obtain ⟨c, r, htext, hc⟩ := i.exists_cons
  have htrim : Text.trimStart (w ++ (i.text ++ w')) = i.text ++ w' := trimStart_eq hw
  rw [htext, List.cons_append] at htrim
  have hread := Atom.read_of_isDigit htrim hc (by rwa [← List.cons_append, ← htext])
    (by rwa [← List.cons_append, ← htext])
  rw [htext, List.cons_append, hread]
  rcases Number.readDigits ((c :: (r ++ w')).takeWhile Text.isDigit) with _ | _ <;> rfl

/-- The digits that are read are those in front of the first underscore. -/
theorem takeWhile_digits (form : Number.Form) {p : Char → Bool}
    (hdigits : ∀ c, i.radix.isDigit c = true → p c = true) (hmark : p '_' = false)
    (hallows : ∀ c, form.allows c = false → p c = false)
    (hw' : ∀ c ∈ w', Text.isBlank c = true) :
    (i.digits ++ (i.suffix ++ w')).takeWhile p = i.seen := by
  refine Text.takeWhile_seen (fun c hc => (i.isDigit c hc).imp_right (hdigits c)) hmark ?_
  exact fun c hc => hallows c (Number.head_not_allowed (i.typeSuffix form) hw' c hc)

/-- A decimal literal has few digits. -/
theorem length_seen_le (hradix : i.radix = .decimal) : i.seen.length ≤ 19 := by
  have hstarts := i.starts (by simp [hradix])
  rcases hdigits : i.digits with _ | ⟨c, r⟩
  · rw [hdigits] at hstarts
    cases hstarts
  rw [hdigits, List.head?_cons, Option.any_some, decide_eq_true_eq] at hstarts
  by_cases hzero : c = '0'
  · have hone := i.no_zero hradix (by rw [hdigits, hzero]; rfl)
    rw [seen, hone]
    decide
  have hmem : c ∈ i.digits := by
    rw [hdigits]
    exact List.mem_cons_self
  have hten := any_lt_ten (by simp [hradix]) ((i.isDigit c hmem).resolve_left hstarts)
  have hvalue : 1 ≤ (Text.hexValue? c).getD 0 := by
    have hhex := Text.isHexDigit_of_any hten
    revert hzero
    exact Text.forall_hexDigit (P := fun c => c ≠ '0' → 1 ≤ (Text.hexValue? c).getD 0)
      (by decide +kernel) hhex
  have hfilter : i.digits.filter (· ≠ '_') = c :: r.filter (· ≠ '_') := by
    simp [hdigits, hstarts]
  have hlength : i.seen.length ≤ (r.filter (· ≠ '_')).length + 1 := by
    have hself : i.seen.filter (· ≠ '_') = i.seen :=
      List.filter_eq_self.mpr (Text.forall_mem_takeWhile _ _)
    rw [← List.length_cons (a := c), ← hfilter, ← hself]
    exact ((List.takeWhile_sublist _).filter _).length_le
  -- a number of n + 1 digits is 10 ^ n or more, and that of a literal fits into 63 bits
  have hfits := i.fits
  rw [hfilter, hradix] at hfits
  have hbits : 2 ^ ((if i.suffix = [] then 32 else 64) - 1) < 10 ^ 19 := by
    split <;> decide
  have hpow : 10 ^ (r.filter (· ≠ '_')).length < 10 ^ 19 :=
    Nat.lt_of_le_of_lt (Text.pow_le_valueInBase hvalue) (Nat.lt_trans hfits hbits)
  have hlt := (Nat.pow_lt_pow_iff_right (by decide)).mp hpow
  omega

theorem seen_ne_nil (hradix : i.radix ≠ .octal) : i.seen ≠ [] := by
  have hstarts := i.starts hradix
  rw [seen]
  rcases hdigits : i.digits with _ | ⟨c, r⟩
  · rw [hdigits] at hstarts
    cases hstarts
  · rw [hdigits, List.head?_cons, Option.any_some] at hstarts
    rw [decide_eq_true_eq] at hstarts
    simp [hstarts]

/-! ### What a literal is read as -/

/-- What is read of an integer literal: the digits in front of the first
underscore, as decimal or hexadecimal ones, or the zero of the lead. -/
theorem ofToken_eq (i : IntegerLiteral) (hw : ∀ c ∈ w, Text.isBlank c = true)
    (hw' : ∀ c ∈ w', Text.isBlank c = true) :
    Atom.ofToken (w ++ (i.text ++ w')) = i.reading.map .numeral := by
  rw [ofToken_of_text hw]
  refine congrArg (Except.map Atom.numeral) ?_
  -- the token is cut at the first underscore, as no suffix or blank is a digit
  have hdecimal : i.radix ≠ .hexadecimal →
      (i.digits ++ (i.suffix ++ w')).takeWhile Text.isDigit = i.seen := fun hradix =>
    takeWhile_digits .whole (fun c => isDigit_of_radix hradix) (by decide) (fun c hc => hc) hw'
  have hvalue : i.radix ≠ .hexadecimal →
      Text.digitsValue i.seen = Text.valueInBase 10 i.seen := fun hradix =>
    Text.digitsValue_eq_valueInBase fun c hc => any_lt_ten hradix (digit_of_mem_seen hc)
  have hlead := i.lead_mem
  rcases hradix : i.radix with _ | _ | _ | _
  · have hother : i.radix ≠ .hexadecimal := by simp [hradix]
    simp only [hradix, Radix.leads, List.mem_singleton] at hlead
    have hshort : ¬ Fault.digitLimit < i.seen.length := by
      have hfew := length_seen_le hradix
      simp only [Fault.digitLimit]
      omega
    rw [read_eq hother hw hw', text, hlead, List.nil_append, List.append_assoc, hdecimal hother,
      Number.readDigits, if_neg hshort, hvalue hother, reading, hradix]
    rfl
  · have hother : i.radix ≠ .hexadecimal := by simp [hradix]
    simp only [hradix, Radix.leads, List.mem_singleton] at hlead
    rw [read_eq hother hw hw', text, hlead, List.append_assoc, List.append_assoc,
      List.singleton_append, List.takeWhile_cons_of_pos (by decide), hdecimal hother, reading,
      hradix]
  · have hhex : Number.hexDigits? (w ++ (i.text ++ w')) = some i.seen := by
      have hdigits : (i.digits ++ (i.suffix ++ w')).takeWhile Text.isHexDigit = i.seen :=
        takeWhile_digits .hex (fun c => Text.isHexDigit_of_any) (by decide)
          (fun c hc => (Bool.or_eq_false_iff.mp (Bool.or_eq_false_iff.mp hc).1).1) hw'
      simp only [hradix, Radix.leads, List.mem_cons, List.not_mem_nil, or_false] at hlead
      obtain ⟨x, hx, hlead⟩ : ∃ x, (x = 'x' ∨ x = 'X') ∧ i.lead = ['0', x] :=
        hlead.elim (fun h => ⟨'x', .inl rfl, h⟩) fun h => ⟨'X', .inr rfl, h⟩
      refine Number.hexDigits?_eq_some_iff.mpr
        ⟨x, i.digits ++ (i.suffix ++ w'), ?_, hx, ?_, hdigits.symm⟩
      · rw [trimStart_eq hw, text, hlead, List.append_assoc, List.append_assoc]
        rfl
      · rw [hdigits]
        exact seen_ne_nil (by simp [hradix])
    rw [Number.read, hhex, reading, hradix]
  · have hother : i.radix ≠ .hexadecimal := by simp [hradix]
    simp only [hradix, Radix.leads, List.mem_cons, List.not_mem_nil, or_false] at hlead
    -- the `b` of the lead is no digit
    have hzero : (i.text ++ w').takeWhile Text.isDigit = ['0'] := by
      rw [text]
      rcases hlead with h | h
      · rw [h]
        rfl
      · rw [h]
        rfl
    rw [read_eq hother hw hw', hzero, reading, hradix]
    rfl

/-- A plain literal is read as its value. -/
theorem reading_of_plain (h : i.IsPlain) : i.reading = .ok (.whole i.value) := by
  have hall : ∀ c ∈ i.digits, decide (c ≠ '_') = true := fun c hc =>
    decide_eq_true fun heq => h.undivided (heq ▸ hc)
  have hseen : i.seen = i.digits := List.takeWhile_eq_self_iff.mpr hall
  have hmagnitude : i.magnitude = Text.valueInBase i.radix.base i.seen := by
    rw [magnitude, List.filter_eq_self.mpr hall, hseen]
  have hvalue : i.value = i.magnitude := by
    have hfits : i.magnitude < 2 ^ i.bits :=
      Nat.lt_of_lt_of_le i.fits (Nat.pow_le_pow_right (by decide) (Nat.sub_le _ _))
    have hnonneg := h.nonneg
    rw [value] at hnonneg ⊢
    split
    · rfl
    next hlarge =>
      rw [if_neg hlarge] at hnonneg
      have hcast : (i.magnitude : Int) < 2 ^ i.bits := by exact_mod_cast hfits
      omega
  rw [hvalue, hmagnitude, reading]
  rcases h.radix with hradix | hradix
  · rw [hradix]
    rfl
  · rw [hradix]
    rfl

end IntegerLiteral

/-! ### What a token keeps of its source -/

namespace Atom

open Number

/-- **Numerals keep the longest numeral of their token.**  The number of a numeral
is that of the longest numeral that the token starts with, in the form that the
token is read in, and the rest of the token is dropped.  So of a numeral with
nothing but a type suffix and blanks around it, these are all that is dropped.  An
integer literal is read up to its first underscore, and where it is decimal or
hexadecimal, without underscores and not negative, it is read as its value. -/
theorem numeral_of_longest_prefix (token : Text) :
    (∀ n, ofToken token = .ok (.numeral n) →
      ∃ u rest, Text.trimStart token = u ++ rest ∧ Spells (formOf token) u n ∧
        ∀ u' n', Spells (formOf token) u' n' → u' <+: Text.trimStart token → u' <+: u) ∧
    (∀ form u n w s w', token = w ++ (u ++ (s ++ w')) → Spells form u n →
      Surrounded form w s w' → (form = .real → hasRealMark u = true) →
      (form = .whole → u.length ≤ Fault.digitLimit) → ofToken token = .ok (.numeral n)) ∧
    ∀ (i : IntegerLiteral) w w', token = w ++ (i.text ++ w') →
      (∀ c ∈ w, Text.isBlank c = true) → (∀ c ∈ w', Text.isBlank c = true) →
      ofToken token = i.reading.map .numeral ∧
        (i.IsPlain → ofToken token = .ok (.numeral (.whole i.value))) := by
  refine ⟨fun n h => ?_, ?_, ?_⟩
  · rcases ofToken_cases h with ⟨-, hliteral⟩ | ⟨n', hdigit, hread, hnumeral⟩ | ⟨-, hexpression⟩
    · cases congrArg kind hliteral
    · obtain rfl : n = n' := Content.number.inj (congrArg content hnumeral)
      rcases ht : Text.trimStart token with _ | ⟨c, r⟩
      · rw [ht] at hdigit
        cases hdigit
      · rw [ht, List.head?_cons, Option.any_some] at hdigit
        exact exists_spells_of_read ht hdigit hread
    · cases congrArg kind hexpression
  · rintro form u n w s w' rfl hu h hreal hlength
    exact h.ofToken_eq hu hreal hlength
  · rintro i w w' rfl hw hw'
    refine ⟨i.ofToken_eq hw hw', fun hplain => ?_⟩
    rw [i.ofToken_eq hw hw', IntegerLiteral.reading_of_plain hplain, map_ok]

/-- The literal `0x10L`. -/
def longSixteen : IntegerLiteral where
  radix := .hexadecimal
  lead := ['0', 'x']
  digits := ['1', '0']
  suffix := ['L']
  lead_mem := by decide
  isDigit := List.all_iff_forall_prop.mp (by decide)
  ends := by decide
  starts := by decide
  no_zero := by decide
  suffix_mem := by decide
  fits := by decide

theorem numeral_of_longest_prefix_sixteen :
    longSixteen.IsPlain ∧ ofToken [' ', '0', 'x', '1', '0', 'L'] = .ok (.numeral (.whole 16)) := by
  have hplain : longSixteen.IsPlain := ⟨.inr rfl, by decide, by decide⟩
  obtain ⟨-, -, hliteral⟩ := numeral_of_longest_prefix [' ', '0', 'x', '1', '0', 'L']
  have hblank : ∀ c ∈ [' '], Text.isBlank c = true := List.all_eq_true.mp (by decide)
  exact ⟨hplain, (hliteral longSixteen [' '] [] rfl hblank (List.forall_mem_nil _)).2 hplain⟩

/-- The literal `010`. -/
def octalEight : IntegerLiteral where
  radix := .octal
  lead := ['0']
  digits := ['1', '0']
  suffix := []
  lead_mem := by decide
  isDigit := List.all_iff_forall_prop.mp (by decide)
  ends := by decide
  starts := by decide
  no_zero := by decide
  suffix_mem := by decide
  fits := by decide

/-- The octal literal for eight is read as ten, and the operator and the name behind
a digit are dropped. -/
theorem ofToken_octal_difference :
    (Argument.scan "(010)".toList).valid = true ∧
      (Argument.scan "(010)".toList).tokens = [octalEight.text] ∧ octalEight.value = 8 ∧
      ofToken octalEight.text = .ok (.numeral (.whole 10)) ∧
      (Argument.scan "(1-x)".toList).valid = true ∧
      (Argument.scan "(1-x)".toList).tokens = ["1-x".toList] ∧
      ofToken "1-x".toList = .ok (.numeral (.whole 1)) := by
  have hten : ofToken octalEight.text = .ok (.numeral (.whole 10)) := rfl
  have hone : ofToken "1-x".toList = .ok (.numeral (.whole 1)) := rfl
  exact ⟨by decide +kernel, by decide +kernel, by decide +kernel, hten, by decide +kernel,
    by decide +kernel, hone⟩

end Atom

end LogCalls
