/-
LogCalls/Template/Sorting.lean

Values put in order.  A run at the start that is in order already, forwards or
backwards, is kept, and every later value is inserted behind those that are not
greater; which values are compared, and so which comparison may fail, follows
from that.
-/
import LogCalls.Template.Compare

namespace LogCalls.Template

/-- The length of the run at the start of a list behind its first value: values
that are each less than the one before, or that are each not less. -/
def runLength {α : Type} (less : α → α → Eval Bool) (down : Bool) : α → List α → Eval Nat
  | _, [] => return 0
  | a, b :: r => do
    if (← less b a) == down then return (← runLength less down b r) + 1
    else return 0

/-- The place of a value between two places of a sorted array, behind all that
are not greater. -/
def placeAmong {α : Type} (less : α → α → Eval Bool) (a : α) (sorted : Array α) :
    Nat → Nat → Nat → Eval Nat
  | 0, low, _ => return low
  | fuel + 1, low, high => do
    if low < high then
      let middle := low + (high - low) / 2
      match sorted[middle]? with
      | some b =>
        if ← less a b then placeAmong less a sorted fuel low middle
        else placeAmong less a sorted fuel (middle + 1) high
      | none => return low
    else return low

/-- Inserts values into a sorted array, one after the other. -/
def insertAll {α : Type} (less : α → α → Eval Bool) (sorted : Array α) : List α → Eval (Array α)
  | [] => return sorted
  | a :: r => do
    let place ← placeAmong less a sorted (sorted.size + 1) 0 sorted.size
    insertAll less (sorted.insertIdxIfInBounds place a) r

/-- Values in order; those that are equal keep theirs. -/
def sortedBy {α : Type} (less : α → α → Eval Bool) : List α → Eval (List α)
  | [] => return []
  | [a] => return [a]
  | a :: b :: r => do
    let down ← less b a
    let n := (← runLength less down b r) + 2
    let all := a :: b :: r
    let run := all.take n
    let sorted := (if down then run.reverse else run).toArray
    return (← insertAll less sorted (all.drop n)).toList

/-- Values in the order of their keys, or in the reverse of it, where those
that are equal still keep theirs. -/
def sortedByKey {κ : Type} (less : κ → κ → Eval Bool) (backwards : Bool)
    (pairs : List (κ × Value)) : Eval (List Value) := do
  let pairs := if backwards then pairs.reverse else pairs
  let sorted ← sortedBy (fun p q => less p.1 q.1) pairs
  let sorted := if backwards then sorted.reverse else sorted
  return sorted.map (·.2)

/-- Whether a list of keys comes before another one. -/
def lessKeys (a b : List Value) : Eval Bool := do
  match ← firstDifference? (equalItem equal) a b with
  | some (v, w) => holdsOrder .lt v w
  | none => return a.length < b.length

/-! ### Small laws -/

@[simp] theorem sortedBy_nil {α : Type} (less : α → α → Eval Bool) :
    sortedBy less [] = pure [] := rfl

@[simp] theorem sortedBy_singleton {α : Type} (less : α → α → Eval Bool) (a : α) :
    sortedBy less [a] = pure [a] := rfl

end LogCalls.Template
