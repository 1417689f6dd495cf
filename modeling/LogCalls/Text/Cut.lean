/-
LogCalls/Text/Cut.lean

Cutting a text at a signed offset.  A negative offset counts from the end, and
an offset beyond either end means that end, so every integer names a place.
-/
import LogCalls.Text.Blank

namespace LogCalls.Text

/-- The place in a text of `length` characters that a signed offset names. -/
def place (length : Nat) (offset : Int) : Nat :=
  if offset < 0 then (offset + length).toNat else min offset.toNat length

/-- The text before a signed offset. -/
def upTo (t : Text) (offset : Int) : Text := t.take (place t.length offset)

/-- The text from a signed offset on. -/
def onFrom (t : Text) (offset : Int) : Text := t.drop (place t.length offset)

/-! ### Small laws -/

theorem place_le (length : Nat) (offset : Int) : place length offset ≤ length := by
  unfold place
  split <;> omega

theorem place_of_le {length n : Nat} (h : n ≤ length) : place length (n : Int) = n := by
  unfold place
  split <;> omega

@[simp] theorem upTo_append_onFrom (t : Text) (offset : Int) :
    upTo t offset ++ onFrom t offset = t := by
  simp [upTo, onFrom]

theorem onFrom_natCast (t : Text) {n : Nat} (h : n ≤ t.length) :
    onFrom t (n : Int) = t.drop n := by
  simp [onFrom, place_of_le h]

theorem upTo_natCast (t : Text) {n : Nat} (h : n ≤ t.length) :
    upTo t (n : Int) = t.take n := by
  simp [upTo, place_of_le h]

end LogCalls.Text
