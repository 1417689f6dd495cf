/-
LogCalls/Template/Filter/Basic.lean

How a filter or a test gets what it is given: the value it is applied to comes
first, behind what it takes from the template where it takes anything.
-/
import LogCalls.Template.Arithmetic
import LogCalls.Template.Methods

namespace LogCalls.Template

/-- The values of the parameters of a filter or test.  What it takes from the
template stands before them under a name of its own. -/
def Signature.apply (s : Signature) (fromTemplate : Option String) (v : Value) (a : Arguments) :
    Eval (List Value) := do
  match fromTemplate with
  | none => s.bind { a with given := v :: a.given }
  | some name =>
    let all : Signature := { s with parameters := needed name :: s.parameters }
    return (← all.bind { a with given := .none :: v :: a.given }).drop 1

/-- The value at a place, or none. -/
def valueAt (vs : List Value) (i : Nat) : Value := vs[i]?.getD .none

/-- Whether a value is none. -/
def Value.isNone : Value → Bool
  | .none => true
  | _ => false

/-- A function of one value that takes it without a name. -/
def takesValue (label : String) (v : Value) (a : Arguments) : Eval Value := do
  match a.named, a.given with
  | [], [] => return v
  | (_, _) :: _, _ => Eval.wrongType (label ++ "() takes no keyword arguments")
  | [], given =>
    Eval.wrongType (label ++ "() takes exactly one argument (" ++ toString (given.length + 1) ++
      " given)")

/-- The text of small letters of a text, any other value as it is. -/
def ignoringCase (v : Value) : Value :=
  match v with
  | .text t => .text (Text.small t)
  | .markup t => .markup (Text.small t)
  | v => v

namespace Machine

/-- The key that a lookup path and the case of letters give a value. -/
def keyOf (m : Machine) (path : List Value) (caseSensitive : Bool) (v : Value) : Eval Value := do
  let w ← m.follow ⟨path, none⟩ v
  return if caseSensitive then w else ignoringCase w

/-- The values of a row in reverse, if it can be gone through from its end. -/
def reversed? (v : Value) : Eval (Option (String × List Value)) := do
  match v with
  | .text t | .markup t => return some ("reversed", t.reverse.map fun c => .text [c])
  | .bytes bs => return some ("reversed", bs.reverse.map fun b => .whole (Int.ofNat b))
  | .row vs => return some ("reversed", vs.reverse)
  | .span a b c =>
    let n := spanLength a b c
    return some ("range_iterator",
      (List.range n.toNat).map fun (i : Nat) => Value.whole (a + (n - 1 - i) * c))
  | .missing strict complaint => if strict then Eval.needs complaint else return some ("reversed", [])
  | .object id =>
    match ← Eval.object? id with
    | some (.list vs) => return some ("list_reverseiterator", vs.reverse)
    | some (.group key values) => return some ("reversed", [values, key])
    | some (.mapping entries) =>
      return some ("dict_reversekeyiterator", entries.reverse.map (·.1))
    | some (.view p d) =>
      match ← Eval.object? d with
      | some (.mapping entries) =>
        return some ("dict_reverseitemiterator", entries.reverse.map fun e => match p with
          | .keys => e.1
          | .values => e.2
          | .items => .row [e.1, e.2])
      | _ => return none
    | _ => return none
  | _ => return none

end Machine

/-! ### Small laws -/

theorem ignoringCase_idem_of_not_text {v : Value} (h : v.text? = none) : ignoringCase v = v := by
  cases v <;> simp_all [ignoringCase, Value.text?]

end LogCalls.Template
