/-
LogCalls/Template/Iteration.lean

The next value of an iterator.  What is gone through may change meanwhile: a
list gives what it has when it is asked, a mapping must keep its size.
-/
import LogCalls.Template.Filter
import LogCalls.Template.Variables

namespace LogCalls.Template.Machine

/-- The next value of a loop, which becomes its current one. -/
def advance (m : Machine) (id : Nat) : Eval (Option Value) := do
  match ← Eval.object? id with
  | some (.loop l) =>
    let v? ← match l.after with
      | some v => pure (some v)
      | none => m.next l.iterator
    match v? with
    | none => return none
    | some v =>
      Eval.replace id (.loop { l with
        count := l.count + 1, after := none, before := l.current, current := some v })
      return some v
  | _ => return none

/-- A value as a filter or a lookup changes it. -/
def changed (m : Machine) (change : Change) (v : Value) : Eval Value := do
  match change with
  | .lookup g => m.follow g v
  | .filter name a =>
    requireKey comparisonDepth name
    match name.text? with
    | some s => m.filter s v a
    | none => Eval.refuse

/-- Whether a value is one of those wanted. -/
def isChosen (m : Machine) (c : Choice) (v : Value) : Eval Bool := do
  let w ← match c.getter with
    | some g => m.follow g v
    | none => pure v
  let answer ← match c.test with
    | none => m.holds w
    | some name => do
      requireKey comparisonDepth name
      match name.text? with
      | some s => m.holds (← m.test s w c.arguments)
      | none => Eval.refuse
  return answer == c.wanted

/-- The next value of an iterator for which a test holds, among so many. -/
def nextWhere (m : Machine) (source : Nat) (test : Value → Eval Bool) : Nat → Eval (Option Value)
  | 0 => return none
  | most + 1 => do
    match ← m.next source with
    | none => return none
    | some v => if ← test v then return some v else nextWhere m source test most

/-- The next value of an iterator, and what it then still has to give. -/
def step (m : Machine) (i : Iterator) : Eval (Option (Value × Iterator)) := do
  match i with
  | .values [] => return none
  | .values (v :: rest) => return some (v, .values rest)
  | .overList list index =>
    match ← Eval.object? list with
    | some (.list vs) => return vs[index]?.map fun v => (v, .overList list (index + 1))
    | _ => return none
  | .overMapping portion mapping index size =>
    match ← Eval.object? mapping with
    | some (.mapping entries) =>
      if entries.length ≠ size then
        Eval.wrong .running "dictionary changed size during iteration"
      return entries[index]?.map fun p =>
        let v := match portion with
          | .keys => p.1
          | .values => p.2
          | .items => .row [p.1, p.2]
        (v, .overMapping portion mapping (index + 1) size)
    | _ => return none
  | .overSpan next left by_ =>
    if left ≤ 0 then return none
    else return some (.whole next, .overSpan (next + by_) (left - 1) by_)
  | .loopItems loop =>
    return (← m.advance loop).map fun v => (.row [v, .object loop], .loopItems loop)
  | .pending _ => return none
  | .changed source change =>
    match ← m.next source with
    | none => return none
    | some v => return some (← m.changed change v, .changed source change)
  | .chosen source choice =>
    return (← nextWhere m source (m.isChosen choice) manyValues).map fun v =>
      (v, .chosen source choice)
  | .sifted source frame target test =>
    let holdsFor (v : Value) : Eval Bool := do
      m.assign frame target v
      m.holds (← m.eval frame test)
    return (← nextWhere m source holdsFor manyValues).map fun v =>
      (v, .sifted source frame target test)

/-- The next value of an iterator in the store; one that has none stays so. -/
def nextOf (m : Machine) (id : Nat) : Eval (Option Value) := do
  match ← Eval.object? id with
  | some (.iterator name i) =>
    let i ← match i with
      | .pending task => do
        -- an iterator that fails has nothing more to give
        Eval.replace id (.iterator name (.values []))
        m.begin task
      | i => pure i
    match ← m.step i with
    | some (v, rest) =>
      Eval.replace id (.iterator name rest)
      return some v
    | none =>
      Eval.replace id (.iterator name (.values []))
      return none
  | _ => return none

/-! ### Small laws -/

theorem step_values_nil (m : Machine) : m.step (.values []) = pure none := rfl

theorem step_values_cons (m : Machine) (v : Value) (rest : List Value) :
    m.step (.values (v :: rest)) = pure (some (v, .values rest)) := rfl

end LogCalls.Template.Machine
