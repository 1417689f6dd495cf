/-
LogCalls/Template/Evaluation.lean

The values of expressions.  The operands of an expression are worked out one
level deeper.  Where only what is written out is known, names, calls and
filters that ask the template have no value yet.
-/
import LogCalls.Template.Call
import LogCalls.Template.Iteration

namespace LogCalls.Template.Machine

/-- Says that a value is not known yet. -/
def unknown {α : Type} : Eval α := throw .unknown

/-- What spreading a value adds to the given values of a call. -/
def spreadValues (m : Machine) (label : String) (v : Value) : Eval (List Value) := do
  match ← iterator? v with
  | some id => m.drain id manyValues []
  | none =>
    Eval.wrongType (label ++ "() argument after * must be an iterable, not " ++
      (← Eval.kindName v))

/-- What spreading a value adds to the named values of a call. -/
def spreadNamed (label : String) (named : List (Text × Value)) (v : Value) :
    Eval (List (Text × Value)) := do
  let refuse : Eval (List (Text × Value)) := do
    Eval.wrongType (label ++ "() argument after ** must be a mapping, not " ++
      (← Eval.kindName v))
  match v with
  | .object id =>
    match ← Eval.object? id with
    | some (.mapping entries) =>
      entries.foldlM (fun named p => do
        match p.1.text? with
        | none => Eval.wrongType "keywords must be strings"
        | some name =>
          if named.any fun q => q.1 == name then
            Eval.wrongType (label ++ "() got multiple values for keyword argument " ++
              Text.quoted (String.ofList name))
          return named ++ [(name, p.2)]) named
    | _ => refuse
  | _ => refuse

/-- What a call is given. -/
def arguments (m : Machine) (f : Frame) (label : String) (given : List Expr)
    (named : List (Text × Expr)) (spread spreadNamed? : Option Expr) : Eval Arguments := do
  let values ← given.mapM (m.eval f)
  let more ← match spread with
    | some e => do m.spreadValues label (← m.eval f e)
    | none => pure []
  let byName ← named.mapM fun p => do return (p.1, ← m.eval f p.2)
  let byName ← match spreadNamed? with
    | some e => do spreadNamed label byName (← m.eval f e)
    | none => pure byName
  return ⟨values ++ more, byName⟩

/-- The name of calls in complaints about what they are given. -/
def callLabel : String := "jinja2.runtime.Context.call"

/-- The value of a call, with further named values. -/
def callOf (m : Machine) (f : Frame) (callee : Expr) (given : List Expr)
    (named : List (Text × Expr)) (spread spreadNamed? : Option Expr)
    (more : List (Text × Value)) : Eval Value := do
  if f.isConstant then unknown
  let v ← m.eval f callee
  let a ← m.arguments f callLabel given named spread spreadNamed?
  match a.named.find? fun p => more.any fun q => q.1 == p.1 with
  | some p =>
    Eval.wrongType (callLabel ++ "() got multiple values for keyword argument " ++
      Text.quoted (String.ofList p.1))
  | none => m.call v { a with named := a.named ++ more }

/-- The texts of some values joined. -/
def joinedText (m : Machine) (f : Frame) (vs : List Value) : Eval Value := do
  let isMarkup (v : Value) : Bool := match v with
    | .markup _ => true
    | _ => false
  if f.escapes == some true then
    let ts ← vs.mapM m.asText
    if ts.any isMarkup then return .markup (← ts.mapM m.escaped).flatten
    else return .text (ts.filterMap Value.text?).flatten
  else return .text (← vs.mapM m.shown).flatten

/-- Whether each of some relations holds to the value before. -/
def chained (m : Machine) (f : Frame) (v : Value) : List (Relation × Expr) → Eval Bool
  | [] => return true
  | (r, e) :: rest => do
    let w ← m.eval f e
    if ← m.related r v w then m.chained f w rest else return false

/-- The value of an expression. -/
def evaluate (m : Machine) (f : Frame) (e : Expr) : Eval Value := do
  match e with
  | .plain t => return if (← get).escapes then .markup t else .text t
  | .literal (.real x) =>
    if !f.isConstant && !x.isFinite then
      Eval.wrong .unnamed "name 'inf' is not defined"
    return .real x
  | .literal l => return l.value
  | .name s => if f.isConstant then unknown else f.valueOf s
  | .row es => return .row (← es.mapM (m.eval f))
  | .list es => Eval.list (← es.mapM (m.eval f))
  | .mapping entries =>
    let pairs ← entries.mapM fun p => do
      let k ← m.eval f p.1
      return (k, ← m.eval f p.2)
    pairs.forM fun p => requireKey comparisonDepth p.1
    Eval.mapping (pairs.foldl (fun es p => putEntry es p.1 p.2) [])
  | .part e name => m.partOrItem (← m.eval f e) name
  | .item e (.cut start stop step) =>
    let v ← m.eval f e
    let bound : Option Expr → Eval Value
      | some b => m.eval f b
      | none => return .none
    let a ← bound start
    let b ← bound stop
    m.item v (.cut a b (← bound step))
  | .item e key =>
    let v ← m.eval f e
    m.itemOrPart v (← m.eval f key)
  | .cut start stop step =>
    let bound : Option Expr → Eval Value
      | some b => m.eval f b
      | none => return .none
    let a ← bound start
    let b ← bound stop
    return .cut a b (← bound step)
  | .call callee given named spread spreadNamed =>
    m.callOf f callee given named spread spreadNamed []
  | .filtered none _ _ _ _ _ => unknown
  | .filtered (some e) name given named spread spreadNamed =>
    if f.isConstant && (!isFilter name || asksTemplate name) then unknown
    let v ← m.eval f e
    let a ← m.arguments f (filterLabel name) given named spread spreadNamed
    m.filter name v a
  | .tested e name given named spread spreadNamed =>
    if f.isConstant && !isTest name then unknown
    let v ← m.eval f e
    let a ← m.arguments f (testLabel name) given named spread spreadNamed
    m.test name v a
  | .unary op e => m.unary op (← m.eval f e)
  | .binary op a b =>
    let v ← m.eval f a
    m.binary op v (← m.eval f b)
  | .both a b =>
    let v ← m.eval f a
    if ← m.holds v then m.eval f b else return v
  | .either a b =>
    let v ← m.eval f a
    if ← m.holds v then return v else m.eval f b
  | .compare e steps => return .truth (← m.chained f (← m.eval f e) steps)
  | .joined es => m.joinedText f (← es.mapM (m.eval f))
  | .choice line condition yes no =>
    if ← m.holds (← m.eval f condition) then m.eval f yes
    else
      match no with
      | some e => m.eval f e
      | none =>
        if f.isConstant then unknown
        return .missing false ("the inline if-expression on line " ++ toString line ++
          " evaluated to false and no else section was defined.").toList

/-! ### What is written out -/

/-- The place where only what is written out is known. -/
def constantFrame (escapes : Option Bool) : Frame := ⟨[], 0, 0, escapes, false, true⟩

/-- The value of an expression that depends on nothing but what is written out,
as far as it has one. -/
def constant? (m : Machine) (escapes : Option Bool) (e : Expr) (s : Store) :
    Option (Value × Store) :=
  if escapes.isNone then none
  else
    match (m.eval (constantFrame escapes) e).run { s with escapes := escapes == some true } with
    | .ok found => some found
    | .error _ => none

end LogCalls.Template.Machine
