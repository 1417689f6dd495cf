/-
LogCalls/Proofs/Number/Spelling.lean

Which part of a token its number comes from.  `Spells form u n` is the grammar of
numerals: hexadecimal integers, words of digits, and reals with a fraction and an
exponent that may be missing.  The form in which a token is read is told by its
marks (`formOf`); and then the number is that of the longest numeral of this form
that the token starts with (`exists_spells_of_read`).

What stands behind this numeral is dropped, whatever it is.  A numeral behind which
nothing stands but a type suffix and blanks is read as it is, since none of these
goes on with it (`Surrounded.ofToken_eq`).
-/
import Mathlib.Data.Bool.AllAny
import LogCalls.Proofs.Argument.Reading

namespace LogCalls

namespace Text

/-- No digit is a blank. -/
theorem isBlank_eq_false_of_isDigit {c : Char} (h : isDigit c = true) : isBlank c = false := by
  have hscripts : ∀ z ∈ digitZeros, ∀ k < 10, isBlank (Char.ofNat (z + k)) = false := by
    decide +kernel
  rw [isDigit, digitValue?] at h
  split at h
  · split at h
    next hdigit =>
      have hrange : 48 ≤ c.toNat ∧ c.toNat ≤ 57 := Char.isDigit_iff_toNat.mp hdigit
      simp only [isBlank, Bool.or_eq_false_iff, Bool.and_eq_false_iff, decide_eq_false_iff_not,
        beq_eq_false_iff_ne]
      omega
    · cases h
  · rw [Option.isSome_map, Option.isSome_iff_exists] at h
    obtain ⟨z, hz⟩ := h
    have hrange := List.find?_some hz
    rw [Bool.and_eq_true, decide_eq_true_eq, decide_eq_true_eq] at hrange
    have hblank := hscripts z (List.mem_of_find?_eq_some hz) (c.toNat - z) (by omega)
    rwa [Nat.add_sub_cancel' hrange.1, Char.ofNat_toNat] at hblank

theorem toNat_lt_of_isHexDigit {c : Char} (h : isHexDigit c = true) : c.toNat < 103 := by
  have hle : ∀ d : Char, c ≤ d → c.toNat ≤ d.toNat := fun _ hd => UInt32.le_iff_toNat_le.mp hd
  rw [isHexDigit, hexValue?] at h
  split at h
  next hrange => exact Nat.lt_of_le_of_lt (hle '9' (by simp_all)) (by decide)
  split at h
  next hrange => exact Nat.lt_of_le_of_lt (hle 'f' (by simp_all)) (by decide)
  split at h
  next hrange => exact Nat.lt_of_le_of_lt (hle 'F' (by simp_all)) (by decide)
  · cases h

/-- What holds of the hexadecimal digits, by their codes. -/
theorem forall_hexDigit {P : Char → Prop}
    (h : ∀ k < 103, isHexDigit (Char.ofNat k) = true → P (Char.ofNat k)) {c : Char}
    (hc : isHexDigit c = true) : P c := by
  have hP := h c.toNat (toNat_lt_of_isHexDigit hc)
  rw [Char.ofNat_toNat] at hP
  exact hP hc

/-- No hexadecimal digit is a blank. -/
theorem isBlank_eq_false_of_isHexDigit {c : Char} (h : isHexDigit c = true) :
    isBlank c = false :=
  forall_hexDigit (P := fun c => isBlank c = false) (by decide +kernel) h

section

variable {p : Char → Bool} {x y l : Text}

theorem forall_mem_takeWhile (p : Char → Bool) (l : Text) : ∀ c ∈ l.takeWhile p, p c = true :=
  List.all_eq_true.mp List.all_takeWhile

theorem prefix_takeWhile (h : x <+: l) (hx : ∀ c ∈ x, p c = true) : x <+: l.takeWhile p := by
  obtain ⟨z, rfl⟩ := h
  rw [List.takeWhile_append_of_pos hx]
  exact List.prefix_append _ _

/-- A text that starts with characters of a kind and goes on with another one. -/
theorem takeWhile_dropWhile_append (hx : ∀ c ∈ x, p c = true) (hy : ∀ c ∈ y.head?, p c = false) :
    (x ++ y).takeWhile p = x ∧ (x ++ y).dropWhile p = y := by
  rw [List.takeWhile_append_of_pos hx, List.dropWhile_append_of_pos hx]
  rcases y with _ | ⟨c, y⟩
  · exact ⟨List.append_nil x, rfl⟩
  · have hc : ¬ p c = true := by
      rw [hy c rfl]
      exact Bool.false_ne_true
    rw [List.takeWhile_cons_of_neg hc, List.dropWhile_cons_of_neg hc]
    exact ⟨List.append_nil x, rfl⟩

/-- Such a text as the start of a longer one: it covers all characters of the kind,
or it ends before. -/
theorem prefix_cases (h : x ++ y <+: l) (hx : ∀ c ∈ x, p c = true)
    (hy : ∀ c ∈ y.head?, p c = false) :
    (y = [] ∧ x <+: l.takeWhile p) ∨ (x = l.takeWhile p ∧ y <+: l.dropWhile p) := by
  rcases y with _ | ⟨c, y⟩
  · rw [List.append_nil] at h
    exact .inl ⟨rfl, prefix_takeWhile h hx⟩
  · obtain ⟨z, rfl⟩ := h
    obtain ⟨htake, hdrop⟩ := takeWhile_dropWhile_append (y := c :: (y ++ z)) hx hy
    rw [List.append_assoc, List.cons_append, htake, hdrop]
    exact .inr ⟨rfl, List.prefix_append (c :: y) z⟩

end

end Text

namespace Number

/-! ### Numerals -/

/-- The forms in which tokens are read. -/
inductive Form where
  | hex
  | whole
  | real
  deriving DecidableEq

/-- A sign that may be missing, and whether it makes negative. -/
inductive Sign : Text → Bool → Prop
  | none : Sign [] false
  | plus : Sign ['+'] false
  | minus : Sign ['-'] true

/-- An exponent that may be missing, and its value. -/
inductive Exponent : Text → Int → Prop
  | none : Exponent [] 0
  | signed {e : Char} {s digits : Text} {negative : Bool} : e = 'e' ∨ e = 'E' → Sign s negative →
      digits ≠ [] → (∀ c ∈ digits, Text.isDigit c = true) →
      Exponent (e :: (s ++ digits))
        (if negative then -(Text.digitsValue digits : Int) else Text.digitsValue digits)

/-- A fraction that may be missing, and its digits. -/
inductive Fraction : Text → Text → Prop
  | none : Fraction [] []
  | point {digits : Text} : (∀ c ∈ digits, Text.isDigit c = true) → Fraction ('.' :: digits) digits

/-- A text is a numeral of a form, of which this is the number. -/
inductive Spells : Form → Text → Number → Prop
  | hex {x : Char} {digits : Text} : x = 'x' ∨ x = 'X' → digits ≠ [] →
      (∀ c ∈ digits, Text.isHexDigit c = true) →
      Spells .hex ('0' :: x :: digits) (.whole (Text.valueInBase 16 digits))
  | whole {digits : Text} : digits ≠ [] → (∀ c ∈ digits, Text.isDigit c = true) →
      Spells .whole digits (.whole (Text.digitsValue digits))
  | real {before f after x : Text} {e : Int} : before ≠ [] →
      (∀ c ∈ before, Text.isDigit c = true) → Fraction f after → Exponent x e →
      Spells .real (before ++ (f ++ x))
        (.real (Binary64.ofDecimal false (Text.digitsValue (before ++ after)) (e - after.length)))

/-- The form in which a token is read. -/
def formOf (t : Text) : Form :=
  if (hexDigits? t).isSome then .hex else if hasRealMark t then .real else .whole

variable {t u u' r rest : Text} {c : Char} {form : Form} {n n' : Number}

/-! ### What a real starts with -/

theorem exists_sign (r : Text) : ∃ s, Sign s (takeSign r).1 ∧ r = s ++ (takeSign r).2 := by
  unfold takeSign
  split
  · exact ⟨_, .minus, rfl⟩
  · exact ⟨_, .plus, rfl⟩
  · exact ⟨_, .none, rfl⟩

/-- Digits behind a sign stand behind the sign that is taken. -/
theorem Sign.takeSign_append {s digits : Text} {negative : Bool} (h : Sign s negative)
    (hne : digits ≠ []) (hdigits : ∀ c ∈ digits, Text.isDigit c = true) (y : Text) :
    takeSign (s ++ digits ++ y) = (negative, digits ++ y) := by
  obtain ⟨c, r, rfl⟩ := List.exists_cons_of_ne_nil hne
  cases h with
  | plus | minus => rfl
  | none => exact Atom.takeSign_of_isDigit _ (hdigits c List.mem_cons_self)

theorem Exponent.head_not_digit {x : Text} {e : Int} (h : Exponent x e) :
    ∀ c ∈ x.head?, Text.isDigit c = false ∧ c ≠ '.' := by
  cases h with
  | none => exact fun _ hc => absurd hc (by simp)
  | signed he _ _ _ =>
      rintro c ⟨⟩
      rcases he with rfl | rfl
      · exact ⟨by decide, by decide⟩
      · exact ⟨by decide, by decide⟩

/-- No digit stands right behind the digits in front of a fraction and an
exponent. -/
theorem Fraction.head_not_digit {f after x : Text} {e : Int} (hf : Fraction f after)
    (hx : Exponent x e) : ∀ c ∈ (f ++ x).head?, Text.isDigit c = false := by
  cases hf with
  | none => exact fun c hc => (hx.head_not_digit c hc).1
  | point _ =>
      rintro c ⟨⟩
      decide

/-- The exponent of a text that starts with one. -/
theorem Exponent.takeExponent_eq {x : Text} {e : Int} (h : Exponent x e) : takeExponent x = e := by
  cases h with
  | none => rfl
  | @signed _ s digits negative he hs hne hdigits =>
      have hsign := hs.takeSign_append hne hdigits []
      rw [List.append_nil, List.append_nil] at hsign
      have hall : digits.takeWhile Text.isDigit = digits := by
        rw [← List.append_nil digits, List.takeWhile_append_of_pos hdigits, List.takeWhile_nil]
      simp only [takeExponent, if_pos he, hsign, hall]

/-- A sign and digits that a text starts with: the sign is the one that is taken,
and the digits stand behind it. -/
theorem Sign.eq_of_prefix {s s' digits : Text} {negative : Bool} (hr : r = s ++ (takeSign r).2)
    (h : Sign s' negative) (hne : digits ≠ []) (hdigits : ∀ c ∈ digits, Text.isDigit c = true)
    (hstarts : s' ++ digits <+: r) :
    s' = s ∧ digits <+: (takeSign r).2.takeWhile Text.isDigit := by
  obtain ⟨y, hy⟩ := hstarts
  have htake := h.takeSign_append hne hdigits y
  rw [hy] at htake
  have hrest : (takeSign r).2 = digits ++ y := by rw [htake]
  constructor
  · have heq : s' ++ (digits ++ y) = s ++ (digits ++ y) := by
      rw [← List.append_assoc, hy, ← hrest]
      exact hr
    exact List.append_cancel_right heq
  · rw [hrest, List.takeWhile_append_of_pos hdigits]
    exact List.prefix_append _ _

/-- The exponent that a text starts with is its longest one. -/
theorem exists_exponent (l : Text) :
    ∃ x rest, l = x ++ rest ∧ Exponent x (takeExponent l) ∧
      ∀ x' e', Exponent x' e' → x' <+: l → x' <+: x := by
  rcases l with _ | ⟨c, r⟩
  · exact ⟨[], [], rfl, .none, fun _ _ _ h => h⟩
  by_cases hc : c = 'e' ∨ c = 'E'
  · obtain ⟨s, hs, hr⟩ := exists_sign r
    by_cases hdigits : (takeSign r).2.takeWhile Text.isDigit = []
    -- a mark without digits is no exponent
    · refine ⟨[], c :: r, rfl, ?_, ?_⟩
      · have hzero : takeExponent (c :: r) = 0 := by
          simp [takeExponent, hc, hdigits]
        rw [hzero]
        exact .none
      · rintro x' e' (_ | ⟨-, hs', hne, hdigits'⟩) hx'
        · exact List.nil_prefix
        · have hrest := (List.cons_prefix_cons.mp hx').2
          obtain ⟨-, hprefix⟩ := Sign.eq_of_prefix hr hs' hne hdigits' hrest
          rw [hdigits, List.prefix_nil] at hprefix
          exact absurd hprefix hne
    · refine ⟨c :: (s ++ (takeSign r).2.takeWhile Text.isDigit),
        (takeSign r).2.dropWhile Text.isDigit, ?_, ?_, ?_⟩
      · rw [List.cons_append, List.append_assoc, List.takeWhile_append_dropWhile, ← hr]
      · have hvalue : takeExponent (c :: r) = if (takeSign r).1 then
            -(Text.digitsValue ((takeSign r).2.takeWhile Text.isDigit) : Int)
            else Text.digitsValue ((takeSign r).2.takeWhile Text.isDigit) := by
          rw [takeExponent, if_pos hc]
        rw [hvalue]
        exact .signed hc hs hdigits (Text.forall_mem_takeWhile _ _)
      · rintro x' e' (_ | ⟨-, hs', hne, hdigits'⟩) hx'
        · exact List.nil_prefix
        · obtain ⟨rfl, hrest⟩ := List.cons_prefix_cons.mp hx'
          obtain ⟨rfl, hprefix⟩ := Sign.eq_of_prefix hr hs' hne hdigits' hrest
          exact List.cons_prefix_cons.mpr ⟨rfl, (List.prefix_append_right_inj _).mpr hprefix⟩
  · refine ⟨[], c :: r, rfl, ?_, ?_⟩
    · have hzero : takeExponent (c :: r) = 0 := by rw [takeExponent, if_neg hc]
      rw [hzero]
      exact .none
    · rintro x' e' (_ | ⟨he, -, -, -⟩) hx'
      · exact List.nil_prefix
      · rw [(List.cons_prefix_cons.mp hx').1] at he
        exact absurd he hc

/-- The digits of the fraction that a text starts with. -/
def fractionDigits : Text → Text
  | '.' :: r => r.takeWhile Text.isDigit
  | _ => []

/-- What follows the fraction that a text starts with. -/
def behindFraction : Text → Text
  | '.' :: r => r.dropWhile Text.isDigit
  | l => l

theorem fraction_of_not_point {l : Text} (hl : ¬ ∃ r, l = '.' :: r) :
    fractionDigits l = [] ∧ behindFraction l = l := by
  unfold fractionDigits behindFraction
  split
  · exact absurd ⟨_, rfl⟩ hl
  · exact ⟨rfl, rfl⟩

/-- The real that a text starts with, where it starts with a digit. -/
theorem leadingReal?_of_isDigit (ht : Text.trimStart t = c :: r) (hc : Text.isDigit c = true) :
    leadingReal? t = some (false,
      Text.digitsValue ((c :: r).takeWhile Text.isDigit ++
        fractionDigits ((c :: r).dropWhile Text.isDigit)),
      takeExponent (behindFraction ((c :: r).dropWhile Text.isDigit)) -
        (fractionDigits ((c :: r).dropWhile Text.isDigit)).length) := by
  have hsome : ∀ after, ¬ ((c :: r).takeWhile Text.isDigit = [] ∧ after) := fun after h => by
    rw [List.takeWhile_cons_of_pos hc] at h
    cases h.1
  simp only [leadingReal?, ht, Atom.takeSign_of_isDigit r hc, if_neg (hsome _)]
  generalize (c :: r).dropWhile Text.isDigit = l
  by_cases hl : ∃ r', l = '.' :: r'
  · obtain ⟨r', rfl⟩ := hl
    rfl
  · rw [(fraction_of_not_point hl).1, (fraction_of_not_point hl).2]
    split
    · exact absurd ⟨_, rfl⟩ hl
    · rfl

/-- The fraction that a text starts with is its longest one, and an exponent behind
it stands behind all its digits. -/
theorem exists_fraction (l : Text) :
    ∃ f, Fraction f (fractionDigits l) ∧ l = f ++ behindFraction l ∧
      ∀ f' after' x' e', Fraction f' after' → Exponent x' e' → f' ++ x' <+: l →
        (x' = [] ∧ f' <+: f) ∨ (f' = f ∧ x' <+: behindFraction l) := by
  by_cases hl : ∃ r, l = '.' :: r
  · obtain ⟨r, rfl⟩ := hl
    refine ⟨'.' :: r.takeWhile Text.isDigit, .point (Text.forall_mem_takeWhile _ _), ?_, ?_⟩
    · rw [behindFraction, List.cons_append, List.takeWhile_append_dropWhile]
    · rintro f' after' x' e' (_ | hdigits) hx' hprefix
      · rcases x' with _ | ⟨c, x'⟩
        · exact .inl ⟨rfl, List.nil_prefix⟩
        · have hpoint := (List.cons_prefix_cons.mp hprefix).1
          exact absurd hpoint (hx'.head_not_digit c rfl).2
      · have hrest := (List.cons_prefix_cons.mp hprefix).2
        rcases Text.prefix_cases hrest hdigits fun c hc => (hx'.head_not_digit c hc).1 with
          ⟨hnil, hshort⟩ | ⟨hall, hbehind⟩
        · exact .inl ⟨hnil, List.cons_prefix_cons.mpr ⟨rfl, hshort⟩⟩
        · exact .inr ⟨by rw [hall], hbehind⟩
  · obtain ⟨hdigits, hbehind⟩ := fraction_of_not_point hl
    rw [hdigits, hbehind]
    refine ⟨[], .none, rfl, ?_⟩
    rintro f' after' x' e' (_ | -) hx' hprefix
    · exact .inr ⟨rfl, hprefix⟩
    · obtain ⟨y, rfl⟩ := hprefix
      exact absurd ⟨_, rfl⟩ hl

/-! ### The longest numeral -/

/-- A token that starts with a digit starts with a longest real. -/
theorem exists_spells_real (ht : Text.trimStart t = c :: r) (hc : Text.isDigit c = true) :
    ∃ u rest digits exponent, c :: r = u ++ rest ∧
      leadingReal? t = some (false, digits, exponent) ∧
      Spells .real u (.real (Binary64.ofDecimal false digits exponent)) ∧
      ∀ u' n', Spells .real u' n' → u' <+: c :: r → u' <+: u := by
  obtain ⟨f, hf, hfraction, hlongestFraction⟩ := exists_fraction ((c :: r).dropWhile Text.isDigit)
  obtain ⟨x, rest, hexponent, hx, hlongestExponent⟩ :=
    exists_exponent (behindFraction ((c :: r).dropWhile Text.isDigit))
  have hbefore : (c :: r).takeWhile Text.isDigit ≠ [] := by
    rw [List.takeWhile_cons_of_pos hc]
    exact List.cons_ne_nil _ _
  refine ⟨(c :: r).takeWhile Text.isDigit ++ (f ++ x), rest, _, _, ?_,
    leadingReal?_of_isDigit ht hc, .real hbefore (Text.forall_mem_takeWhile _ _) hf hx, ?_⟩
  · rw [List.append_assoc, List.append_assoc, ← hexponent, ← hfraction,
      List.takeWhile_append_dropWhile]
  · intro u' n' hspells hprefix
    cases hspells with
    | @real before' f' after' x' e' _ hdigits' hf' hx' =>
        -- the other numeral ends among the first digits, or it goes on behind all of them
        rcases Text.prefix_cases hprefix hdigits' (hf'.head_not_digit hx') with
          ⟨hnil, hshort⟩ | ⟨hall, hbehind⟩
        · rw [hnil, List.append_nil]
          exact hshort.trans (List.prefix_append _ _)
        · rw [hall]
          refine (List.prefix_append_right_inj _).mpr ?_
          rcases hlongestFraction _ _ _ _ hf' hx' hbehind with ⟨rfl, hshort⟩ | ⟨rfl, hrest⟩
          · rw [List.append_nil]
            exact hshort.trans (List.prefix_append _ _)
          · exact (List.prefix_append_right_inj _).mpr (hlongestExponent _ _ hx' hrest)

theorem hexDigits?_eq_some_iff {digits : Text} :
    hexDigits? t = some digits ↔ ∃ x r, Text.trimStart t = '0' :: x :: r ∧
      (x = 'x' ∨ x = 'X') ∧ r.takeWhile Text.isHexDigit ≠ [] ∧
      digits = r.takeWhile Text.isHexDigit := by
  rw [hexDigits?]
  constructor
  · intro h
    split at h
    next x r ht =>
      dsimp only at h
      split at h
      next hcond => exact ⟨x, r, ht, hcond.1, hcond.2, (Option.some.inj h).symm⟩
      · cases h
    · cases h
  · rintro ⟨x, r, ht, hx, hne, rfl⟩
    simp only [ht, if_pos (And.intro hx hne)]

/-- Without the mark of a hexadecimal integer there is none. -/
theorem hexDigits?_eq_none (h : ∀ c ∈ Text.trimStart t, c ≠ 'x' ∧ c ≠ 'X') :
    hexDigits? t = none := by
  rw [Option.eq_none_iff_forall_ne_some]
  intro digits hdigits
  obtain ⟨x, r, ht, hx, -, -⟩ := hexDigits?_eq_some_iff.mp hdigits
  have hmem : x ∈ Text.trimStart t := by
    rw [ht]
    exact List.mem_cons_of_mem _ List.mem_cons_self
  exact hx.elim (h x hmem).1 (h x hmem).2

theorem hasRealMark_eq_false (h : ∀ c ∈ t, c ≠ '\\' ∧ c ≠ '.' ∧ c ≠ 'e' ∧ c ≠ 'E') :
    hasRealMark t = false := by
  rw [hasRealMark, List.any_eq_false]
  intro c hc
  simp [h c hc]

/-- The numeral that the number of a token comes from is the longest one of its
form that the token starts with. -/
theorem exists_spells_of_read (ht : Text.trimStart t = c :: r) (hc : Text.isDigit c = true)
    (h : read t = .ok n) :
    ∃ u rest, c :: r = u ++ rest ∧ Spells (formOf t) u n ∧
      ∀ u' n', Spells (formOf t) u' n' → u' <+: c :: r → u' <+: u := by
  rcases hhex : hexDigits? t with _ | digits
  · rcases hmark : hasRealMark t with _ | _
    · have hform : formOf t = .whole := by simp [formOf, hhex, hmark]
      rw [Atom.read_of_isDigit ht hc hhex hmark] at h
      obtain ⟨v, hv, rfl⟩ := map_eq_ok_iff.mp h
      rw [readDigits] at hv
      split at hv
      · cases hv
      obtain rfl := Except.ok.inj hv
      rw [hform]
      refine ⟨_, _, (List.takeWhile_append_dropWhile (p := Text.isDigit)).symm, .whole ?_
        (Text.forall_mem_takeWhile _ _), ?_⟩
      · rw [List.takeWhile_cons_of_pos hc]
        exact List.cons_ne_nil _ _
      · rintro u' n' ⟨⟩ hprefix
        exact Text.prefix_takeWhile hprefix ‹_›
    · have hform : formOf t = .real := by simp [formOf, hhex, hmark]
      obtain ⟨u, rest, digits, exponent, hsplit, hreal, hspells, hlongest⟩ :=
        exists_spells_real ht hc
      simp only [read, hhex, hmark, if_true, hreal] at h
      obtain rfl := Except.ok.inj h
      rw [hform]
      exact ⟨u, rest, hsplit, hspells, hlongest⟩
  · have hform : formOf t = .hex := by simp [formOf, hhex]
    obtain ⟨x, r', ht', hx, hne, rfl⟩ := hexDigits?_eq_some_iff.mp hhex
    rw [read, hhex] at h
    obtain rfl := Except.ok.inj h
    obtain ⟨rfl, rfl⟩ := List.cons.inj (ht.symm.trans ht')
    rw [hform]
    refine ⟨'0' :: x :: r'.takeWhile Text.isHexDigit, r'.dropWhile Text.isHexDigit, ?_,
      .hex hx hne (Text.forall_mem_takeWhile _ _), ?_⟩
    · rw [List.cons_append, List.cons_append, List.takeWhile_append_dropWhile]
    · rintro u' n' ⟨⟩ hprefix
      obtain ⟨-, hmark⟩ := List.cons_prefix_cons.mp hprefix
      obtain ⟨rfl, hdigits⟩ := List.cons_prefix_cons.mp hmark
      refine List.cons_prefix_cons.mpr ⟨rfl, List.cons_prefix_cons.mpr ⟨rfl, ?_⟩⟩
      exact Text.prefix_takeWhile hdigits ‹_›

/-! ### Numerals of one number -/

theorem Fraction.split {f after x : Text} {e : Int} (hf : Fraction f after) (hx : Exponent x e) :
    fractionDigits (f ++ x) = after ∧ behindFraction (f ++ x) = x := by
  cases hf with
  | none =>
      refine fraction_of_not_point ?_
      rintro ⟨r, rfl⟩
      exact (hx.head_not_digit '.' rfl).2 rfl
  | point hdigits =>
      exact Text.takeWhile_dropWhile_append hdigits fun c hc => (hx.head_not_digit c hc).1

/-- A numeral starts with a digit. -/
theorem Spells.exists_cons (h : Spells form u n) :
    ∃ c r, u = c :: r ∧ Text.isDigit c = true := by
  cases h with
  | hex => exact ⟨_, _, rfl, by decide⟩
  | whole hne hdigits =>
      obtain ⟨c, r, rfl⟩ := List.exists_cons_of_ne_nil hne
      exact ⟨c, r, rfl, hdigits c List.mem_cons_self⟩
  | real hne hdigits =>
      obtain ⟨c, r, rfl⟩ := List.exists_cons_of_ne_nil hne
      exact ⟨c, _, rfl, hdigits c List.mem_cons_self⟩

theorem trimStart_of_isDigit (hc : Text.isDigit c = true) : Text.trimStart (c :: r) = c :: r := by
  refine List.dropWhile_cons_of_neg ?_
  rw [Text.isBlank_eq_false_of_isDigit hc]
  exact Bool.false_ne_true

/-- The number of a real is read off its text. -/
theorem Spells.leadingReal? (h : Spells .real u n) : ∃ digits exponent,
    leadingReal? u = some (false, digits, exponent) ∧
      n = .real (Binary64.ofDecimal false digits exponent) := by
  obtain ⟨c, r, hu, hc⟩ := h.exists_cons
  cases h with
  | real _ hdigits hf hx =>
      obtain ⟨hbefore, hbehind⟩ :=
        Text.takeWhile_dropWhile_append hdigits (hf.head_not_digit hx)
      obtain ⟨hafter, hexponent⟩ := hf.split hx
      rw [hu] at hbefore hbehind ⊢
      rw [leadingReal?_of_isDigit (trimStart_of_isDigit hc) hc, hbefore, hbehind, hafter, hexponent,
        hx.takeExponent_eq]
      exact ⟨_, _, rfl, rfl⟩

theorem Spells.unique (h : Spells form u n) (h' : Spells form u n') : n = n' := by
  cases form with
  | hex =>
      cases h
      cases h'
      rfl
  | whole =>
      cases h
      cases h'
      rfl
  | real =>
      obtain ⟨digits, exponent, hread, rfl⟩ := h.leadingReal?
      obtain ⟨digits', exponent', hread', rfl⟩ := h'.leadingReal?
      obtain ⟨-, heq⟩ := Prod.mk.inj (Option.some.inj (hread.symm.trans hread'))
      obtain ⟨rfl, rfl⟩ := Prod.mk.inj heq
      rfl

/-! ### Numerals with a type suffix -/

/-- Whether a character can stand in a numeral of a form. -/
def Form.allows : Form → Char → Bool
  | .hex, c => Text.isHexDigit c || c == 'x' || c == 'X'
  | .whole, c => Text.isDigit c
  | .real, c => Text.isDigit c || ['.', 'e', 'E', '+', '-'].contains c

/-- The letters that tell the type of a numeral. -/
def Form.suffixes : Form → List Char
  | .hex => ['l', 'L']
  | .whole | .real => ['l', 'L', 'f', 'F', 'd', 'D']

/-- A type suffix that may be missing. -/
def TypeSuffix (form : Form) (s : Text) : Prop := s = [] ∨ ∃ c ∈ form.suffixes, s = [c]

theorem Spells.allows (h : Spells form u n) : ∀ c ∈ u, form.allows c = true := by
  cases h with
  | hex hx _ hdigits =>
      simp only [List.forall_mem_cons, Form.allows, Bool.or_eq_true, beq_iff_eq]
      refine ⟨by decide, ?_, fun c hc => .inl (.inl (hdigits c hc))⟩
      exact hx.imp_left .inr
  | whole _ hdigits => exact hdigits
  | real _ hdigits hf hx =>
      have hdigit : ∀ c, Text.isDigit c = true → Form.real.allows c = true := fun c hc => by
        rw [Form.allows, hc, Bool.true_or]
      simp only [List.forall_mem_append]
      refine ⟨fun c hc => hdigit c (hdigits c hc), ?_, ?_⟩
      · cases hf with
        | none => exact List.forall_mem_nil _
        | point hafter =>
            rw [List.forall_mem_cons]
            exact ⟨by decide, fun c hc => hdigit c (hafter c hc)⟩
      · cases hx with
        | none => exact List.forall_mem_nil _
        | signed he hs _ hexponent =>
            rw [List.forall_mem_cons, List.forall_mem_append]
            refine ⟨?_, ?_, fun c hc => hdigit c (hexponent c hc)⟩
            · rcases he with rfl | rfl <;> decide
            · cases hs <;> exact List.all_eq_true.mp (by decide)

theorem allows_suffix : ∀ c ∈ form.suffixes, form.allows c = false := by
  cases form <;> exact List.all_iff_forall_prop.mp (by decide)

theorem isBlank_eq_false_of_allows (hc : form.allows c = true) : Text.isBlank c = false := by
  cases form with
  | whole => exact Text.isBlank_eq_false_of_isDigit hc
  | real =>
      rw [Form.allows, Bool.or_eq_true, List.contains_iff_mem] at hc
      rcases hc with hdigit | hmark
      · exact Text.isBlank_eq_false_of_isDigit hdigit
      · have hmarks : ∀ m ∈ ['.', 'e', 'E', '+', '-'], Text.isBlank m = false :=
          List.all_iff_forall_prop.mp (by decide)
        exact hmarks c hmark
  | hex =>
      rw [Form.allows, Bool.or_eq_true, Bool.or_eq_true, beq_iff_eq, beq_iff_eq] at hc
      rcases hc with (hdigit | rfl) | rfl
      · exact Text.isBlank_eq_false_of_isHexDigit hdigit
      · decide
      · decide

/-- What stands around and behind a numeral does not go on with it. -/
theorem head_not_allowed {s w : Text} (hs : TypeSuffix form s)
    (hw : ∀ c ∈ w, Text.isBlank c = true) : ∀ c ∈ (s ++ w).head?, form.allows c = false := by
  rcases hs with rfl | ⟨d, hd, rfl⟩
  · intro c hc
    have hblank := hw c (List.mem_of_mem_head? hc)
    rcases hallows : form.allows c with _ | _
    · rfl
    · rw [isBlank_eq_false_of_allows hallows] at hblank
      cases hblank
  · rintro c ⟨⟩
    exact allows_suffix d hd

/-- A numeral that another numeral with the same start goes beyond, is that
numeral, where nothing behind it goes on with it. -/
theorem Spells.eq_of_prefix {v y : Text} (h : Spells form v n) (huv : u <+: v)
    (hv : v <+: u ++ y) (hy : ∀ c ∈ y.head?, form.allows c = false) : v = u := by
  obtain ⟨more, rfl⟩ := huv
  have hmore := (List.prefix_append_right_inj u).mp hv
  rcases more with _ | ⟨c, more⟩
  · exact List.append_nil u
  · obtain ⟨rest, rfl⟩ := hmore
    have hallows := h.allows c (List.mem_append_right u List.mem_cons_self)
    rw [hy c rfl] at hallows
    cases hallows

/-- A character of a numeral, or of the blanks and the suffix around it. -/
def Form.Around (form : Form) (c : Char) : Prop :=
  Text.isBlank c = true ∨ form.allows c = true ∨ c ∈ form.suffixes

/-- What is no such character does not occur. -/
theorem Form.Around.ne {d : Char} (h : form.Around c) (hblank : Text.isBlank d = false)
    (hallows : form.allows d = false) (hsuffix : d ∉ form.suffixes) : c ≠ d := by
  rintro rfl
  rw [Form.Around, hblank, hallows] at h
  simp only [Bool.false_eq_true, false_or] at h
  exact hsuffix h

variable {w s w' : Text}

/-- What stands around a numeral: blanks, and a type suffix right behind it. -/
structure Surrounded (form : Form) (w s w' : Text) : Prop where
  before : ∀ c ∈ w, Text.isBlank c = true
  suffix : TypeSuffix form s
  after : ∀ c ∈ w', Text.isBlank c = true

theorem Surrounded.around (h : Surrounded form w s w') (hu : Spells form u n) :
    ∀ c ∈ w ++ (u ++ (s ++ w')), form.Around c := by
  simp only [List.forall_mem_append]
  refine ⟨fun c hc => .inl (h.before c hc), fun c hc => .inr (.inl (hu.allows c hc)), ?_,
    fun c hc => .inl (h.after c hc)⟩
  rcases h.suffix with rfl | ⟨d, hd, rfl⟩
  · exact List.forall_mem_nil _
  · rw [List.forall_mem_singleton]
    exact .inr (.inr hd)

theorem Surrounded.trimStart_eq (h : Surrounded form w s w') (hu : Spells form u n) :
    Text.trimStart (w ++ (u ++ (s ++ w'))) = u ++ (s ++ w') := by
  obtain ⟨c, r, rfl, hc⟩ := hu.exists_cons
  rw [Text.trimStart, List.dropWhile_append_of_pos h.before]
  exact trimStart_of_isDigit hc

/-- The form of a numeral is that of the token around it, where a real has one of
its marks. -/
theorem Surrounded.formOf_eq (h : Surrounded form w s w') (hu : Spells form u n)
    (hreal : form = .real → hasRealMark u = true) : formOf (w ++ (u ++ (s ++ w'))) = form := by
  have htrim := h.trimStart_eq hu
  have haround := h.around hu
  have hnone : form ≠ .hex → hexDigits? (w ++ (u ++ (s ++ w'))) = none := by
    intro hform
    refine hexDigits?_eq_none fun c hc => ?_
    have hc' := haround c ((List.dropWhile_sublist _).mem hc)
    constructor
    · refine hc'.ne (by decide) ?_ ?_ <;> revert hform <;> cases form <;> decide
    · refine hc'.ne (by decide) ?_ ?_ <;> revert hform <;> cases form <;> decide
  cases form with
  | hex =>
      cases hu with
      | @hex x digits hx hne hdigits =>
          have hsome : hexDigits? (w ++ ('0' :: x :: digits ++ (s ++ w'))) =
              some ((digits ++ (s ++ w')).takeWhile Text.isHexDigit) := by
            refine hexDigits?_eq_some_iff.mpr ⟨x, digits ++ (s ++ w'), htrim, hx, ?_, rfl⟩
            rw [List.takeWhile_append_of_pos hdigits]
            exact List.append_ne_nil_of_left_ne_nil hne _
          rw [formOf, hsome]
          rfl
  | whole =>
      have hmark : hasRealMark (w ++ (u ++ (s ++ w'))) = false := by
        refine hasRealMark_eq_false fun c hc => ?_
        have hne : ∀ d, Text.isBlank d = false → Form.whole.allows d = false →
            d ∉ Form.whole.suffixes → c ≠ d := fun d => (haround c hc).ne
        exact ⟨hne _ (by decide) (by decide) (by decide), hne _ (by decide) (by decide) (by decide),
          hne _ (by decide) (by decide) (by decide), hne _ (by decide) (by decide) (by decide)⟩
      rw [formOf, hnone (by decide), hmark]
      rfl
  | real =>
      have hmark : hasRealMark (w ++ (u ++ (s ++ w'))) = true := by
        have hu' := hreal rfl
        simp only [hasRealMark, List.any_append] at hu' ⊢
        rw [hu', Bool.true_or, Bool.or_true]
      rw [formOf, hnone (by decide), hmark]
      rfl

/-- **Suffixes are all that is dropped behind a numeral.**  A numeral that has a
mark of its form and digits that can be read, with a type suffix and blanks, is
read as its number. -/
theorem Surrounded.ofToken_eq (h : Surrounded form w s w') (hu : Spells form u n)
    (hreal : form = .real → hasRealMark u = true)
    (hlength : form = .whole → u.length ≤ Fault.digitLimit) :
    Atom.ofToken (w ++ (u ++ (s ++ w'))) = .ok (.numeral n) := by
  have htrim := h.trimStart_eq hu
  have hform := h.formOf_eq hu hreal
  have hbehind := head_not_allowed h.suffix h.after
  have hshort : ¬ Atom.Overlong (w ++ (u ++ (s ++ w'))) := by
    rintro ⟨hhex, hmark, hlong⟩
    rw [formOf, hhex, hmark] at hform
    subst hform
    cases hu with
    | whole _ hdigits =>
        rw [htrim, (Text.takeWhile_dropWhile_append hdigits hbehind).1] at hlong
        exact absurd (hlength rfl) (Nat.not_le.mpr hlong)
  obtain ⟨a, ha⟩ := Atom.exists_ofToken_eq_ok_of_not_overlong hshort
  obtain ⟨c, r, hcons, hc⟩ := hu.exists_cons
  have hstart : Text.trimStart (w ++ (u ++ (s ++ w'))) = c :: (r ++ (s ++ w')) := by
    rw [htrim, hcons, List.cons_append]
  -- its first character is a digit, so the token is neither a text nor an expression
  rcases Atom.ofToken_cases ha with ⟨hquote, -⟩ | ⟨n', -, hread, rfl⟩ | ⟨hother, -⟩
  · rw [hstart, List.head?_cons, Option.any_some, Atom.isQuote_eq_false_of_isDigit hc] at hquote
    cases hquote
  · obtain ⟨v, rest, hsplit, hv, hlongest⟩ := exists_spells_of_read hstart hc hread
    rw [hform] at hv hlongest
    rw [← hstart, htrim] at hsplit hlongest
    have hprefix : v <+: u ++ (s ++ w') := ⟨rest, hsplit.symm⟩
    obtain rfl := hv.eq_of_prefix (hlongest u n hu (List.prefix_append _ _)) hprefix hbehind
    rw [ha, hu.unique hv]
  · rw [hstart, List.head?_cons, Option.any_some, hc, Bool.or_true] at hother
    cases hother

end Number

end LogCalls
