/-
LogCalls/Pattern/CharSet.lean

Sets of characters: single ones, ranges, digits, word characters and blanks,
and the sets of all others.  A set may ignore case, and it knows the alphabet
whose digits, letters and blanks it means: the basic one or that of every
script.
-/
import LogCalls.Text.Digit
import LogCalls.Text.Twin
import LogCalls.Text.Word

namespace LogCalls.Pattern

/-- The alphabet whose letters count. -/
inductive Alphabet where
  | every
  | basic
  deriving DecidableEq, Repr

/-- A kind of character. -/
inductive Kind where
  | digit
  | word
  | blank
  deriving DecidableEq, Repr

/-- Whether a character is of a kind. -/
def Kind.holds (a : Alphabet) (k : Kind) (c : Char) : Bool :=
  (a = .every || c.toNat < 0x80) &&
    match k with
    | .digit => Text.isDigit c
    | .word => Text.isWord c
    | .blank =>
      -- the separators of files and records are blanks of the wide alphabet only
      if a = .every then Text.isBlank c else Text.isSpace c

/-- A part of a set; characters stand as their codes, so that a range may end
at a code that no character has. -/
inductive Member where
  | one (code : Nat)
  | range (low high : Nat)
  | kind (k : Kind) (wanted : Bool)
  deriving DecidableEq, Repr

/-- Whether a part has a character. -/
def Member.holds (a : Alphabet) (c : Char) : Member → Bool
  | .one code => c.toNat == code
  | .range low high => low ≤ c.toNat && c.toNat ≤ high
  | .kind k wanted => k.holds a c == wanted

/-- The greatest code of the first plane. -/
def firstPlane : Nat := 0xFFFF

/-- Whether a part has a character where case is ignored.  Beyond the first
plane, a range also has the letters whose capitals it has, and a single letter
that shares its set is compared with small letters as it stands. -/
def Member.holdsMate (a : Alphabet) (shared : Bool) (c : Char) (m : Member) : Bool :=
  let small := if a = .every then Text.smallLetter c else c.toLower
  let mates := if a = .every then Text.caseMates c else Text.basicCaseMates c
  match m with
  | .one code =>
    if shared && firstPlane < code then small.toNat == code else mates.any (·.toNat == code)
  | .range _ high =>
    mates.any (m.holds a ·) || (firstPlane < high && m.holds a (Text.capitalLetter small))
  | .kind .. => m.holds a small

/-- The characters of some parts, or all others. -/
structure CharSet where
  members : List Member
  negated : Bool
  ignoresCase : Bool
  alphabet : Alphabet
  deriving DecidableEq, Repr

/-- Whether a set has a character. -/
def CharSet.holds (s : CharSet) (c : Char) : Bool :=
  let inside :=
    if s.ignoresCase then s.members.any (·.holdsMate s.alphabet (1 < s.members.length) c)
    else s.members.any (·.holds s.alphabet c)
  inside != s.negated

/-- The set of one character, case not ignored. -/
def CharSet.only (c : Char) : CharSet := ⟨[.one c.toNat], false, false, .every⟩

/-! ### Small laws -/

/-- The set of all others has what the set has not. -/
theorem CharSet.holds_others (s : CharSet) (c : Char) :
    { s with negated := !s.negated }.holds c = !s.holds c := by
  unfold CharSet.holds
  cases s.negated <;> simp

@[simp] theorem CharSet.holds_only (d c : Char) : (CharSet.only d).holds c = (c == d) := by
  simp [CharSet.only, CharSet.holds, Member.holds, Bool.beq_eq_decide_eq, Char.ext_iff, ← UInt32.toNat_inj]

end LogCalls.Pattern
