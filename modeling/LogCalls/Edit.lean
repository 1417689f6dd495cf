/-
LogCalls/Edit.lean

Edits of a text: each replaces the characters between two offsets of the text
as it was.  Edits are ordered by their offsets, refused where one starts
inside the one before it, and applied from the last to the first, so that an
edit moves no text that a later one still has to find.
-/
import LogCalls.Fault
import LogCalls.Text.Cut

namespace LogCalls

/-- Replaces the characters from `start` up to `stop` by `newText`. -/
structure Edit where
  start : Int
  stop : Int
  newText : Text
  deriving DecidableEq, Repr

namespace Edit

/-- The order of edits: by start, and by stop where the starts are equal. -/
def precedes (a b : Edit) : Bool := a.start < b.start || (a.start == b.start && a.stop ≤ b.stop)

/-- The text after one edit. -/
def apply (e : Edit) (t : Text) : Text :=
  Text.upTo t e.start ++ e.newText ++ Text.onFrom t e.stop

/-- The first overlap of neighbouring edits. -/
def overlap? : List Edit → Option Fault
  | a :: b :: r => if b.start < a.stop then some (.overlap a.start a.stop b.start) else overlap? (b :: r)
  | _ => none

/-- The edits in their order; equal ones stay as they were. -/
def ordered (edits : List Edit) : List Edit := edits.mergeSort precedes

/-- The text after edits that are already in order, the last applied first. -/
def applyOrdered (edits : List Edit) (t : Text) : Text := edits.foldr apply t

/-- The text after some edits, unless two of them overlap. -/
def applyAll (t : Text) (edits : List Edit) : Except Fault Text :=
  match overlap? (ordered edits) with
  | some fault => .error fault
  | none => .ok (applyOrdered (ordered edits) t)

/-! ### Small laws -/

@[simp] theorem applyOrdered_nil (t : Text) : applyOrdered [] t = t := rfl

@[simp] theorem applyOrdered_cons (e : Edit) (r : List Edit) (t : Text) :
    applyOrdered (e :: r) t = e.apply (applyOrdered r t) := rfl

theorem precedes_total (a b : Edit) : (precedes a b || precedes b a) = true := by
  simp only [precedes, Bool.or_eq_true, Bool.and_eq_true, decide_eq_true_eq, beq_iff_eq]
  omega

theorem precedes_trans (a b c : Edit) (hab : precedes a b = true) (hbc : precedes b c = true) :
    precedes a c = true := by
  simp only [precedes, Bool.or_eq_true, Bool.and_eq_true, decide_eq_true_eq, beq_iff_eq] at *
  omega

theorem ordered_perm (edits : List Edit) : (ordered edits).Perm edits :=
  List.mergeSort_perm edits precedes

@[simp] theorem applyAll_nil (t : Text) : applyAll t [] = .ok t := by
  simp [applyAll, ordered, overlap?]

end Edit

end LogCalls
