/-
LogCalls/Pattern/Basic.lean

Patterns over characters.  A pattern stands for a way to read on from a place
of a text; what it reads may be remembered as a numbered group, which the rest
of the pattern can ask for.  The width of a pattern bounds what it reads.
-/
import LogCalls.Pattern.CharSet

namespace LogCalls

/-- A pattern. -/
inductive Pattern where
  | empty
  | char (set : Pattern.CharSet)
  /-- A place between a word character and none, or any other place; an empty
  text has neither. -/
  | boundary (wanted : Bool) (alphabet : Pattern.Alphabet)
  /-- The start of the text, or of a line. -/
  | start (ofLine : Bool)
  /-- The end of the text or the place before its last line feed, or the end
  of a line. -/
  | stop (ofLine : Bool)
  /-- The end of the text. -/
  | finish
  | seq (p q : Pattern)
  /-- The first pattern or else the second. -/
  | either (p q : Pattern)
  /-- At least `least` times and at most `more` times more, as often as can be
  or, if `sparing`, as seldom. -/
  | repeated (p : Pattern) (least : Nat) (more : Option Nat) (sparing : Bool)
  /-- Only the first way to read the pattern. -/
  | committed (p : Pattern)
  /-- A pattern whose reading is remembered under a number. -/
  | group (number : Nat) (p : Pattern)
  /-- What the group of a number has read, once more. -/
  | again (number : Nat) (ignoresCase : Bool) (alphabet : Pattern.Alphabet)
  /-- The first pattern if the group of a number has read something, or else
  the second. -/
  | given (number : Nat) (p q : Pattern)
  /-- A place where the pattern can be read on, or cannot. -/
  | ahead (p : Pattern) (wanted : Bool)
  /-- A place where the pattern can be read from `width` characters before on,
  or cannot. -/
  | behind (width : Nat) (p : Pattern) (wanted : Bool)
  deriving Repr

namespace Pattern

/-! ### Width -/

/-- How many characters are read at least, and at most where there is a bound. -/
structure Width where
  least : Nat
  most : Option Nat
  deriving DecidableEq, Repr

namespace Width

/-- The width of a place. -/
def zero : Width := ⟨0, some 0⟩

/-- The width of one character. -/
def one : Width := ⟨1, some 1⟩

/-- The width of two readings in a row. -/
def append (v w : Width) : Width :=
  ⟨v.least + w.least, v.most.bind fun a => w.most.map (a + ·)⟩

/-- The width of one of two readings. -/
def union (v w : Width) : Width :=
  ⟨min v.least w.least, v.most.bind fun a => w.most.map (max a ·)⟩

/-- The width of `least` and up to `more` more readings in a row. -/
def times (w : Width) (least : Nat) (more : Option Nat) : Width :=
  ⟨w.least * least,
    match w.most, more with
    | some 0, _ => some 0
    | some a, some n => some (a * (least + n))
    | none, some 0 => if least = 0 then some 0 else none
    | _, _ => none⟩

/-- The width, if every reading has the same. -/
def fixed? (w : Width) : Option Nat := if w.most = some w.least then some w.least else none

end Width

/-- The width of a pattern, given those of its groups. -/
def width (groups : Nat → Width) : Pattern → Width
  | .empty | .boundary .. | .start _ | .stop _ | .finish | .ahead .. | .behind .. => .zero
  | .char _ => .one
  | .seq p q => (p.width groups).append (q.width groups)
  | .either p q | .given _ p q => (p.width groups).union (q.width groups)
  | .repeated p least more _ => (p.width groups).times least more
  | .committed p | .group _ p => p.width groups
  | .again number .. => groups number

/-! ### Small laws -/

@[simp] theorem Width.zero_append (w : Width) : Width.zero.append w = w := by
  cases w with
  | mk least most => cases most <;> simp [Width.zero, Width.append]

@[simp] theorem Width.append_zero (w : Width) : w.append Width.zero = w := by
  cases w with
  | mk least most => cases most <;> simp [Width.zero, Width.append]

@[simp] theorem Width.union_self (w : Width) : w.union w = w := by
  cases w with
  | mk least most => cases most <;> simp [Width.union]

@[simp] theorem Width.fixed?_one : Width.one.fixed? = some 1 := rfl

end Pattern

end LogCalls
