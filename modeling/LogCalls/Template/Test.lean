/-
LogCalls/Template/Test.lean

The tests of values, by name.
-/
import LogCalls.Template.Filter

namespace LogCalls.Template

/-- The relation that a test of two values asks for. -/
def relationTest? (name : String) : Option (String × Relation) :=
  match name with
  | "==" | "eq" | "equalto" => some ("eq", .eq)
  | "!=" | "ne" => some ("ne", .ne)
  | "<" | "lt" | "lessthan" => some ("lt", .lt)
  | "<=" | "le" => some ("le", .le)
  | ">" | "gt" | "greaterthan" => some ("gt", .gt)
  | ">=" | "ge" => some ("ge", .ge)
  | _ => none

/-- The names of the tests. -/
def testNames : List String := [
  "odd", "even", "divisibleby", "defined", "undefined", "filter", "test", "none", "boolean",
  "false", "true", "integer", "float", "lower", "upper", "string", "mapping", "number",
  "sequence", "iterable", "callable", "sameas", "escaped", "in", "==", "eq", "equalto", "!=",
  "ne", ">", "gt", "greaterthan", "ge", ">=", "<", "lt", "lessthan", "<=", "le"]

/-- Whether there is a test of a name. -/
def isTest (name : Text) : Bool := testNames.contains (String.ofList name)

/-- The name of the function behind a test in complaints about a call. -/
def testLabel (name : Text) : String :=
  match relationTest? (String.ofList name) with
  | some (label, _) => "_operator." ++ label
  | none =>
    match String.ofList name with
    | "callable" => "callable"
    | s => "jinja2.tests.test_" ++ s

namespace Machine

/-- Whether a value can be called. -/
def isCallable (v : Value) : Eval Bool := do
  match v with
  | .method .. | .function _ | .kind _ | .missing .. => return true
  | .object id =>
    match ← Eval.object? id with
    | some (.joiner ..) | some (.loop _) | some (.routine _) | some (.block ..)
    | some (.again ..) => return true
    | _ => return false
  | _ => return false

/-- Whether a value has a length and items. -/
def isSequence (v : Value) : Eval Bool := do
  match ← Eval.kindOf v with
  | .text | .markup | .bytes | .row | .list | .mapping | .span => return true
  | .lenient => return true
  | _ => return false

/-- The answer of a test that takes nothing else, if it is one. -/
def plainTest? (m : Machine) (name : String) (v : Value) : Option (Eval Bool) :=
  let kindIs (ks : List Kind) : Eval Bool := do return ks.contains (← Eval.kindOf v)
  let remainderIs (n : Int) : Eval Bool := do
    equal (← m.binary .mod v (.whole 2)) (.whole n)
  match name with
  | "odd" => some (remainderIs 1)
  | "even" => some (remainderIs 0)
  | "defined" => some (pure !v.isMissing)
  | "undefined" => some (pure v.isMissing)
  | "none" => some (pure v.isNone)
  | "boolean" => some (kindIs [.truth])
  | "true" => some (pure (identical v (.truth true)))
  | "false" => some (pure (identical v (.truth false)))
  | "integer" => some (kindIs [.whole])
  | "float" => some (kindIs [.real])
  | "number" => some (kindIs [.truth, .whole, .real])
  | "string" => some (kindIs [.text, .markup])
  | "mapping" => some (kindIs [.mapping])
  | "sequence" => some (isSequence v)
  | "escaped" => some (kindIs [.markup])
  | "lower" => some do return Text.isAllSmall (← m.shown v)
  | "upper" => some do return Text.isAllCapitals (← m.shown v)
  | "iterable" => some do return (← iterator? v).isSome
  | _ => none

/-- Asks the test of a name. -/
def applyTest (m : Machine) (name : Text) (v : Value) (a : Arguments) : Eval Value := do
  let s := String.ofList name
  match relationTest? s with
  | some (label, r) =>
    if !a.named.isEmpty then
      Eval.wrongType ("_operator." ++ label ++ "() takes no keyword arguments")
    match a.given with
    | [w] => return .truth (← m.related r v w)
    | given =>
      Eval.wrongType (label ++ " expected 2 arguments, got " ++ toString (given.length + 1))
  | none =>
    let two (second : String) : Eval Value := do
      return valueAt (← Signature.apply ⟨"test_" ++ s, [needed "value", needed second]⟩ none v a) 1
    match s, m.plainTest? s v with
    | _, some answer =>
      let _ ← Signature.apply ⟨"test_" ++ s, [needed "value"]⟩ none v a
      return .truth (← answer)
    | "callable", _ =>
      let w ← takesValue "callable" v a
      return .truth (← isCallable w)
    | "divisibleby", _ =>
      let n ← two "num"
      return .truth (← equal (← m.binary .mod v n) (.whole 0))
    | "sameas", _ => return .truth (identical v (← two "other"))
    | "in", _ => return .truth (← contains m (← two "seq") v)
    | "filter", _ | "test", _ =>
      let _ ← Signature.apply ⟨"test_" ++ s, [needed "value"]⟩ (some "env") v a
      requireKey comparisonDepth v
      let names := if s = "filter" then filterNames else testNames
      return .truth ((v.text?.map fun t => names.contains (String.ofList t)).getD false)
    | _, _ => Eval.refuse

end Machine

end LogCalls.Template
