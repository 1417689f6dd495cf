/-
LogCalls/Pattern/Search.lean

Where in a text a pattern occurs.  A pattern is read from a place on, and what
is to be read behind it is handed to it as a function from places; the ways to
read the pattern are tried in order until one of them goes on well.
-/
import LogCalls.Pattern.Basic

namespace LogCalls.Pattern

/-! ### Places -/

/-- Where a group was entered last, and where it was left last. -/
structure Span where
  start : Nat
  stop : Option Nat
  deriving DecidableEq, Repr

/-- A place in a text, as the number of characters before it, and the groups
read on the way to it. -/
structure Place where
  offset : Nat
  groups : List (Nat × Span)
  deriving DecidableEq, Repr

namespace Place

/-- The place, with a new span for a group. -/
def setGroup (p : Place) (number : Nat) (s : Span) : Place :=
  { p with groups := (number, s) :: p.groups.filter (·.1 != number) }

/-- The place, with a group entered. -/
def enter (p : Place) (number : Nat) : Place :=
  p.setGroup number ⟨p.offset, (p.groups.lookup number).bind Span.stop⟩

/-- The place, with a group left. -/
def leave (p : Place) (number : Nat) : Place :=
  match p.groups.lookup number with
  | some s => p.setGroup number { s with stop := some p.offset }
  | none => p

/-- The offsets between which a group has read, if it has. -/
def bounds? (p : Place) (number : Nat) : Option (Nat × Nat) :=
  match p.groups.lookup number with
  | some ⟨low, some high⟩ => if low ≤ high then some (low, high) else none
  | _ => none

end Place

/-! ### Reading on -/

/-- What is to be read from a place on: the place where it ends, if it can be
read. -/
abbrev Goal := Place → Option Place

/-- The first goal, or else the second. -/
@[inline] def orElse (a : Option Place) (b : Unit → Option Place) : Option Place :=
  match a with
  | some p => some p
  | none => b ()

/-- Reads `n` times and then goes on. -/
def exactly (f : Place → Goal → Option Place) : Nat → Place → Goal → Option Place
  | 0, p, goal => goal p
  | n + 1, p, goal => f p fun q => exactly f n q goal

/-- Reads up to `n` times and then goes on.  A reading that does not move on is
the last one. -/
def upTo (f : Place → Goal → Option Place) (sparing : Bool) : Nat → Place → Goal → Option Place
  | 0, p, goal => goal p
  | n + 1, p, goal =>
    let further (_ : Unit) : Option Place :=
      f p fun q => if q.offset = p.offset then goal q else upTo f sparing n q goal
    if sparing then orElse (goal p) further else orElse (further ()) fun _ => goal p

/-- Whether two characters are the same, perhaps but for their case. -/
def sameChar (ignoresCase : Bool) (a : Alphabet) (c d : Char) : Bool :=
  if !ignoresCase then c == d
  else if a = .every then Text.smallLetter c == Text.smallLetter d
  else c.toLower == d.toLower

/-- Whether the `count` characters from two offsets on are the same. -/
def sameRun (same : Char → Char → Bool) (text : Array Char) : Nat → Nat → Nat → Bool
  | 0, _, _ => true
  | count + 1, i, j =>
    match text[i]?, text[j]? with
    | some c, some d => same c d && sameRun same text count (i + 1) (j + 1)
    | _, _ => false

/-- The character before an offset. -/
def charBefore? (text : Array Char) (offset : Nat) : Option Char :=
  if offset = 0 then none else text[offset - 1]?

/-- Whether the place is one between a word character and none. -/
def isBoundary (a : Alphabet) (text : Array Char) (offset : Nat) : Bool :=
  (charBefore? text offset).any (Kind.word.holds a) != text[offset]?.any (Kind.word.holds a)

/-- Reads the pattern from a place on and goes on behind it. -/
def meets (text : Array Char) : Pattern → Place → Goal → Option Place
  | .empty, p, goal => goal p
  | .char set, p, goal =>
    match text[p.offset]? with
    | some c => if set.holds c then goal { p with offset := p.offset + 1 } else none
    | none => none
  | .boundary wanted a, p, goal =>
    if text.size ≠ 0 ∧ isBoundary a text p.offset = wanted then goal p else none
  | .start ofLine, p, goal =>
    if p.offset = 0 ∨ (ofLine ∧ charBefore? text p.offset = some '\n') then goal p else none
  | .stop ofLine, p, goal =>
    let atBreak := text[p.offset]? = some '\n'
    if text.size ≤ p.offset ∨ (atBreak ∧ (ofLine ∨ p.offset + 1 = text.size)) then goal p else none
  | .finish, p, goal => if text.size ≤ p.offset then goal p else none
  | .seq a b, p, goal => meets text a p fun q => meets text b q goal
  | .either a b, p, goal => orElse (meets text a p goal) fun _ => meets text b p goal
  | .repeated a least more sparing, p, goal =>
    exactly (meets text a) least p fun q =>
      let limit := text.size - q.offset + 1
      upTo (meets text a) sparing (min (more.getD limit) limit) q goal
  | .committed a, p, goal =>
    match meets text a p some with
    | some q => goal q
    | none => none
  | .group number a, p, goal => meets text a (p.enter number) fun q => goal (q.leave number)
  | .again number ignoresCase a, p, goal =>
    match p.bounds? number with
    | some (low, high) =>
      let count := high - low
      if sameRun (sameChar ignoresCase a) text count low p.offset then
        goal { p with offset := p.offset + count }
      else none
    | none => none
  | .given number a b, p, goal =>
    if (p.bounds? number).isSome then meets text a p goal else meets text b p goal
  | .ahead a wanted, p, goal =>
    match meets text a p some with
    | some q => if wanted then goal { p with groups := q.groups } else none
    | none => if wanted then none else goal p
  | .behind width a wanted, p, goal =>
    if p.offset < width then
      if wanted then none else goal p
    else
      match meets text a { p with offset := p.offset - width } some with
      | some q => if wanted then goal { p with groups := q.groups } else none
      | none => if wanted then none else goal p

/-! ### Searching -/

/-- Whether the pattern can be read from an offset on. -/
def occursAt (p : Pattern) (text : Array Char) (offset : Nat) : Bool :=
  (meets text p ⟨offset, []⟩ some).isSome

/-- Whether the pattern can be read from one of `count` offsets on. -/
def occursFrom (p : Pattern) (text : Array Char) : (count : Nat) → (offset : Nat) → Bool
  | 0, _ => false
  | count + 1, offset => p.occursAt text offset || p.occursFrom text count (offset + 1)

/-- Whether the pattern occurs in the text. -/
def occursIn (p : Pattern) (t : Text) : Bool :=
  p.occursFrom t.toArray (t.length + 1) 0

/-! ### Small laws -/

theorem occursFrom_iff (p : Pattern) (text : Array Char) (count offset : Nat) :
    p.occursFrom text count offset = true ↔
      ∃ k, k < count ∧ p.occursAt text (offset + k) = true := by
  induction count generalizing offset with
  | zero => simp [occursFrom]
  | succ count ih =>
    simp only [occursFrom, Bool.or_eq_true, ih]
    constructor
    · rintro (h | ⟨k, hk, h⟩)
      · exact ⟨0, by omega, h⟩
      · exact ⟨k + 1, by omega, by rw [Nat.add_right_comm] at h; exact h⟩
    · rintro ⟨k, hk, h⟩
      cases k with
      | zero => exact .inl h
      | succ k => exact .inr ⟨k, by omega, by rw [Nat.add_right_comm]; exact h⟩

/-- A pattern occurs in a text where it can be read from some offset on, the
end of the text among them. -/
theorem occursIn_iff (p : Pattern) (t : Text) :
    p.occursIn t = true ↔ ∃ k, k ≤ t.length ∧ p.occursAt t.toArray k = true := by
  simp only [occursIn, occursFrom_iff, Nat.zero_add, Nat.lt_succ_iff]

@[simp] theorem occursIn_empty (t : Text) : Pattern.empty.occursIn t = true :=
  (occursIn_iff .empty t).2 ⟨0, Nat.zero_le _, rfl⟩

end LogCalls.Pattern
