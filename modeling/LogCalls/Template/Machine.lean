/-
LogCalls/Template/Machine.lean

What working out a value may ask of the template as a whole: calls, the next
value of an iterator, filters and tests by name, and expressions and statements
one level deeper.  Going through values and counting them need no more than
that.
-/
import LogCalls.Decimal.Arithmetic
import LogCalls.Template.Value

namespace LogCalls.Template

/-- What a step may ask of the template as a whole. -/
structure Machine where
  /-- Calls a value. -/
  call : Value → Arguments → Eval Value
  /-- The next value of an iterator in the store. -/
  next : Nat → Eval (Option Value)
  /-- Applies the filter of a name. -/
  filter : Text → Value → Arguments → Eval Value
  /-- Asks the test of a name. -/
  test : Text → Value → Arguments → Eval Value
  /-- The value of an expression. -/
  eval : Frame → Expr → Eval Value
  /-- Runs some statements. -/
  run : Frame → List Stmt → Eval Unit

namespace Machine

/-- The most values that are gone through at once. -/
def manyValues : Nat := 16777216

/-- The iterator over a value, if it can be gone through. -/
def iterator? (v : Value) : Eval (Option Nat) := do
  let new (name : String) (i : Iterator) : Eval (Option Nat) := do
    return some (← Eval.allocate (.iterator name i))
  match v with
  | .text t | .markup t => new "str_iterator" (.values (t.map fun c => .text [c]))
  | .bytes bs => new "bytes_iterator" (.values (bs.map fun b => .whole (Int.ofNat b)))
  | .row vs => new "tuple_iterator" (.values vs)
  | .span start stop step =>
    let left := if 0 < step then Int.fdiv (stop - start + step - 1) step
      else Int.fdiv (start - stop - step - 1) (-step)
    new "range_iterator" (.overSpan start left step)
  | .missing strict complaint =>
    if strict then Eval.needs complaint else new "generator" (.values [])
  | .object id =>
    match ← Eval.object? id with
    | some (.list _) => new "list_iterator" (.overList id 0)
    | some (.mapping entries) => new "dict_keyiterator" (.overMapping .keys id 0 entries.length)
    | some (.view p m) =>
      match ← Eval.object? m with
      | some (.mapping entries) => new "dict_itemiterator" (.overMapping p m 0 entries.length)
      | _ => return none
    | some (.iterator ..) => return some id
    | some (.loop _) => new "generator" (.loopItems id)
    | some (.group key values) => new "tuple_iterator" (.values [key, values])
    | _ => return none
  | _ => return none

/-- The iterator over a value. -/
def iterator (v : Value) : Eval Nat := do
  match ← iterator? v with
  | some id => return id
  | none => Eval.wrongType ("'" ++ (← Eval.kindName v) ++ "' object is not iterable")

/-- The values that an iterator still has, at most `bound`. -/
def drain (m : Machine) (id : Nat) : Nat → List Value → Eval (List Value)
  | 0, _ => Eval.wrong .memory ""
  | bound + 1, got => do
    match ← m.next id with
    | some v => m.drain id bound (v :: got)
    | none => return got.reverse

/-- The values in a value that can be gone through. -/
def items (m : Machine) (v : Value) : Eval (List Value) := do
  match v with
  | .row vs => return vs
  | v => m.drain (← iterator v) manyValues []

/-- The number of integers in a span. -/
def spanLength (start stop step : Int) : Int :=
  if 0 < step then max 0 (Int.fdiv (stop - start + step - 1) step)
  else max 0 (Int.fdiv (start - stop - step - 1) (-step))

/-- The number of values in a loop, which looks ahead for it where it has to. -/
def loopLength (m : Machine) (id : Nat) (l : Loop) : Eval Int := do
  let counted : Option Int ← match l.source with
    | .text t | .markup t => pure (some (t.length : Int))
    | .bytes bs => pure (some (bs.length : Int))
    | .row vs => pure (some (vs.length : Int))
    | .span a b c => pure (some (spanLength a b c))
    | .object o => do
      match ← Eval.object? o with
      | some (.list vs) => pure (some (vs.length : Int))
      | some (.mapping entries) => pure (some (entries.length : Int))
      | some (.view _ d) =>
        match ← Eval.object? d with
        | some (.mapping entries) => pure (some (entries.length : Int))
        | _ => pure none
      | _ => pure none
    | _ => pure none
  match l.length, counted with
  | some n, _ => return n
  | none, some n =>
    Eval.replace id (.loop { l with length := some n })
    return n
  | none, none =>
    let rest ← m.drain l.iterator manyValues []
    let it ← Eval.allocate (.iterator "list_iterator" (.values rest))
    let n : Int := rest.length + l.count + (if l.after.isSome then 1 else 0)
    Eval.replace id (.loop { l with iterator := it, length := some n })
    return n

/-- The number of values in a value, if it has one. -/
def length? (m : Machine) (v : Value) : Eval (Option Int) := do
  match v with
  | .text t | .markup t => return some t.length
  | .bytes bs => return some bs.length
  | .row vs => return some vs.length
  | .span a b c => return some (spanLength a b c)
  | .missing strict complaint => if strict then Eval.needs complaint else return some 0
  | .object id =>
    match ← Eval.object? id with
    | some (.list vs) => return some vs.length
    | some (.mapping entries) => return some entries.length
    | some (.view _ d) =>
      match ← Eval.object? d with
      | some (.mapping entries) => return some entries.length
      | _ => return none
    | some (.loop l) => return some (← m.loopLength id l)
    | some (.group ..) => return some 2
    | _ => return none
  | _ => return none

/-- The number of values in a value. -/
def length (m : Machine) (v : Value) : Eval Int := do
  match ← m.length? v with
  | some n => return n
  | none => Eval.wrongType ("object of type '" ++ (← Eval.kindName v) ++ "' has no len()")

/-- Whether a value counts as true. -/
def holds (m : Machine) (v : Value) : Eval Bool := do
  match v with
  | .none => return false
  | .truth b => return b
  | .whole n => return n != 0
  | .real x => return !x.isZero
  | .method .. | .function _ | .kind _ | .cut .. => return true
  | v =>
    match ← m.length? v with
    | some n => return n != 0
    | none => return true

end Machine

end LogCalls.Template
