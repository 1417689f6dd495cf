/-
LogCalls/Template/Call.lean

Calls: of methods, of kinds, which make new values, and of what a template
defines itself, its routines, blocks and recursive loops.
-/
import LogCalls.Template.Test
import LogCalls.Template.Variables

namespace LogCalls.Template

namespace Machine

/-! ### New values -/

/-- A new span. -/
def newSpan (a : Arguments) : Eval Value := do
  noNamed "range" a
  match a.given with
  | [] => Eval.wrongType "range expected at least 1 argument, got 0"
  | [stop] => return .span 0 (← asWhole stop) 1
  | [start, stop] => do
    let start ← asWhole start
    return .span start (← asWhole stop) 1
  | [start, stop, step] => do
    let start ← asWhole start
    let stop ← asWhole stop
    let step ← asWhole step
    if step = 0 then Eval.wrongValue "range() arg 3 must not be zero"
    return .span start stop step
  | given => Eval.wrongType ("range expected at most 3 arguments, got " ++ toString given.length)

/-- A new value of a kind. -/
def newOf (m : Machine) (k : Kind) (a : Arguments) : Eval Value := do
  match k with
  | .span => newSpan a
  | .mapping => Eval.mapping (← m.updated "dict" [] a)
  | .fields =>
    let entries ← m.updated "dict" [] a
    let named := entries.filterMap fun p => p.1.text?.map fun t => (t, p.2)
    return .object (← Eval.allocate (.fields named))
  | .cycler =>
    let vs ← onlyGiven "Cycler.__init__" a
    if vs.isEmpty then Eval.wrong .running "at least one item has to be provided"
    return .object (← Eval.allocate (.cycler vs 0))
  | .joiner =>
    let vs ← Signature.bind ⟨"Joiner.__init__",
      [needed "self", optionalParameter "sep" (.ofString ", ")]⟩
      { a with given := .none :: a.given }
    return .object (← Eval.allocate (.joiner (valueAt vs 1) false))
  | .text =>
    match a.given with
    | [] => return .text []
    | v :: _ => return .text (← m.shown v)
  | .list =>
    match a.given with
    | [] => Eval.list []
    | v :: _ => Eval.list (← m.items v)
  | .row =>
    match a.given with
    | [] => return .row []
    | v :: _ => return .row (← m.items v)
  | .truth =>
    match a.given with
    | [] => return .truth false
    | v :: _ => return .truth (← m.holds v)
  | .whole =>
    match a.given with
    | [] => return .whole 0
    | v :: _ => toWhole v (.whole 0) (.whole 10)
  | k => Eval.wrongType ("cannot create '" ++ k.fullName ++ "' instances")

/-! ### Routines -/

/-- The values of the parameters of a routine, and the named values that are
left over. -/
def parameterValues (rest : List (Text × Value)) :
    List Text → List Value → List (Option Value) × List (Text × Value)
  | [], _ => ([], rest)
  | _ :: names, v :: given =>
    let (vs, left) := parameterValues rest names given
    (some v :: vs, left)
  | name :: names, [] =>
    let (vs, left) := parameterValues (rest.filter fun p => p.1 != name) names []
    (rest.lookup name :: vs, left)

/-- The default of the parameter at a place. -/
def Routine.default? (r : Routine) (i : Nat) : Option Expr :=
  let missing := r.parameters.length - r.defaults.length
  if i < missing then none else r.defaults[i - missing]?

/-- Gives the parameters without a value what they are without it. -/
def fillDefaults (m : Machine) (r : Routine) (f : Frame) : Nat → List Text → Eval Unit
  | _, [] => return ()
  | i, name :: rest => do
    match Symbols.find? f.levels name with
    | none => return ()
    | some slot =>
      if (← readSlot f.locals slot).isNone then
        match Routine.default? r i with
        | some e => f.setName name (← m.eval f e)
        | none =>
          f.setName name (Eval.lacking ("parameter " ++ Text.quoted (String.ofList name) ++
            " was not provided"))
      m.fillDefaults r f (i + 1) rest

/-- The text that a routine shows for what it is given. -/
def callRoutine (m : Machine) (r : Routine) (a : Arguments) : Eval Value := do
  let label := match r.name with
    | some name => String.ofList (Text.quote name)
    | none => "None"
  let count := r.parameters.length
  let (values, named) := parameterValues a.named r.parameters a.given
  let caller := "caller".toList
  let foundCaller := r.parameters.contains caller
  let (extra, named) ← if r.takesCaller && !foundCaller then do
      let given := match named.lookup caller with
        | none | some .none => Eval.lacking "No caller defined"
        | some v => v
      pure ([(caller, given)], named.filter fun p => p.1 != caller)
    else pure ([], named)
  let extra ← if r.takesNamed then do
      pure (extra ++ [("kwargs".toList,
        ← Eval.mapping (named.map fun p => (Value.text p.1, p.2)))])
    else
      match named with
      | [] => pure extra
      | (name, _) :: _ =>
        if named.any fun p => p.1 == caller then
          Eval.wrongType ("macro " ++ label ++ " was invoked with two values for the special " ++
            "caller argument. This is most likely a bug.")
        else
          Eval.wrongType ("macro " ++ label ++ " takes no keyword argument " ++
            Text.quoted (String.ofList name))
  let extra ← if r.takesRest then
      pure (extra ++ [("varargs".toList, Value.row (a.given.drop count))])
    else if count < a.given.length then
      Eval.wrongType ("macro " ++ label ++ " takes not more than " ++ toString count ++
        " argument(s)")
    else pure extra
  let f ← r.frame.withOwnVariables
  let level := (f.levels.head?.map (·.level)).getD 0
  (r.parameters.zip values).forM fun p => writeSlot f.locals ⟨level, p.1⟩ p.2
  extra.forM fun p => writeSlot f.locals ⟨level, p.1⟩ (some p.2)
  f.enter
  m.fillDefaults r f 0 r.parameters
  let escapes := (← get).escapes
  let t ← Eval.captured (m.run f r.body)
  return if escapes then .markup t else .text t

/-! ### Blocks -/

/-- The text of a block in some surroundings. -/
def runBlock (m : Machine) (name : Text) (context : Nat) : Eval Unit := do
  match (← get).blocks.lookup name with
  | none => return ()
  | some block =>
    let special := undeclared block.body ["self", "super"]
    let locals ← Eval.allocate (.locals none [])
    let f : Frame := ⟨[blockSymbols block.body], locals, context, some false, false, false⟩
    if special.contains "self".toList then
      f.setName "self".toList (.object (← Eval.allocate (.template context)))
    if special.contains "super".toList then
      f.setName "super".toList (Eval.lacking ("there is no parent block called " ++
        Text.quoted (String.ofList name) ++ "."))
    f.enter
    m.run f block.body

/-! ### Calls -/

/-- Refuses a value that cannot be called. -/
def notCallable {α : Type} (v : Value) : Eval α := do
  Eval.wrongType ("'" ++ (← Eval.kindName v) ++ "' object is not callable")

/-- Calls a value; `again` runs a recursive loop. -/
def callValue (m : Machine) (again : Nat → Value → Nat → Eval Value) (v : Value) (a : Arguments) :
    Eval Value := do
  match v with
  | .method (.kind .mapping) ['f', 'r', 'o', 'm', 'k', 'e', 'y', 's'] =>
    m.mappingMethod 0 [] "fromkeys" a
  | .method owner name => m.method owner name a
  | .kind k => m.newOf k a
  | .missing _ complaint => Eval.needs complaint
  | .object id =>
    match ← Eval.object? id with
    | some (.routine r) => m.callRoutine r a
    | some (.joiner separator used) =>
      onlyOwner "Joiner.__call__" a
      if used then return separator
      Eval.replace id (.joiner separator true)
      return .text []
    | some (.loop l) =>
      let vs ← Signature.bind ⟨"LoopContext.__call__", [needed "self", needed "iterable"]⟩
        { a with given := v :: a.given }
      match l.again with
      | some routine => again routine (valueAt vs 1) (l.depth + 1)
      | none =>
        Eval.wrongType "The loop must have the 'recursive' marker to be called recursively."
    | some (.block name context) =>
      onlyOwner "BlockReference.__call__" a
      let t ← Eval.captured (m.runBlock name context)
      return if (← get).escapes then .markup t else .text t
    | _ => notCallable v
  | v => notCallable v

end Machine

/-! ### Small laws -/

theorem Machine.parameterValues_nil (rest : List (Text × Value)) (given : List Value) :
    Machine.parameterValues rest [] given = ([], rest) := rfl

end LogCalls.Template
