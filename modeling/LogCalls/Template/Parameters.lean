/-
LogCalls/Template/Parameters.lean

What calls are given against what they take.  A filter or test names its
parameters, of which the last may be left out; the methods of values count what
they are given.  Each has its own words for what does not fit.
-/
import LogCalls.Template.Lookup

namespace LogCalls.Template

/-- A parameter and its value where none is given. -/
structure Parameter where
  name : String
  otherwise : Option Value

/-- A parameter that has to be given. -/
def needed (name : String) : Parameter := ⟨name, none⟩

/-- A parameter that may be left out. -/
def optionalParameter (name : String) (v : Value) : Parameter := ⟨name, some v⟩

/-- The name and the parameters of something that is called. -/
structure Signature where
  name : String
  parameters : List Parameter

/-- Names in quotes, separated as in a sentence. -/
def sentence : List String → String
  | [] => ""
  | [a] => "'" ++ a ++ "'"
  | [a, b] => "'" ++ a ++ "' and '" ++ b ++ "'"
  | names =>
    ", ".intercalate (names.dropLast.map fun a => "'" ++ a ++ "'") ++ ", and '" ++
      names.getLast?.getD "" ++ "'"

/-- The values that named arguments give to parameters. -/
def Signature.bindNamed (s : Signature) : List (Text × Value) → List (Option Value) →
    Eval (List (Option Value))
  | [], got => return got
  | (name, v) :: rest, got => do
    let n := String.ofList name
    match s.parameters.findIdx? fun p => p.name == n with
    | none =>
      Eval.wrongType (s.name ++ "() got an unexpected keyword argument '" ++ n ++ "'")
    | some i =>
      match got[i]? with
      | some (some _) =>
        Eval.wrongType (s.name ++ "() got multiple values for argument '" ++ n ++ "'")
      | _ => s.bindNamed rest (got.set i (some v))

/-- The values of the parameters, in order. -/
def Signature.bind (s : Signature) (a : Arguments) : Eval (List Value) := do
  let count := s.parameters.length
  let given := a.given.length
  let first := (a.given.take count).map some ++ List.replicate (count - given) none
  let got ← s.bindNamed a.named first
  let least := (s.parameters.filter fun p => p.otherwise.isNone).length
  if count < given then
    let takes := if least < count then "from " ++ toString least ++ " to " ++ toString count
      else toString count
    Eval.wrongType (s.name ++ "() takes " ++ takes ++ " positional argument" ++
      (if least = count ∧ count = 1 then "" else "s") ++ " but " ++ toString given ++
      (if given = 1 then " was" else " were") ++ " given")
  let filled := (s.parameters.zip got).map fun p => (p.1.name, p.2.orElse fun _ => p.1.otherwise)
  let lacking := (filled.filter fun p => p.2.isNone).map (·.1)
  if !lacking.isEmpty then
    Eval.wrongType (s.name ++ "() missing " ++ toString lacking.length ++
      " required positional argument" ++ (if lacking.length = 1 then "" else "s") ++ ": " ++
      sentence lacking)
  return filled.filterMap (·.2)

/-! ### Methods of values -/

/-- A number of arguments in words. -/
def argumentCount (n : Nat) : String :=
  toString n ++ " argument" ++ (if n = 1 then "" else "s")

/-- Refuses named arguments. -/
def noNamed (label : String) (a : Arguments) : Eval Unit :=
  if a.named.isEmpty then return ()
  else Eval.wrongType (label ++ "() takes no keyword arguments")

/-- Takes nothing. -/
def takesNothing (label : String) (a : Arguments) : Eval Unit := do
  noNamed label a
  if !a.given.isEmpty then
    Eval.wrongType (label ++ "() takes no arguments (" ++ toString a.given.length ++ " given)")

/-- Takes one value. -/
def takesOne (label : String) (a : Arguments) : Eval Value := do
  noNamed label a
  match a.given with
  | [v] => return v
  | vs =>
    Eval.wrongType (label ++ "() takes exactly one argument (" ++ toString vs.length ++ " given)")

/-- Takes between `least` and `most` values. -/
def takesBetween (owner name : String) (least most : Nat) (a : Arguments) : Eval (List Value) := do
  noNamed (owner ++ "." ++ name) a
  let n := a.given.length
  if least ≤ n ∧ n ≤ most then return a.given
  else if least = most then
    Eval.wrongType (name ++ " expected " ++ argumentCount most ++ ", got " ++ toString n)
  else if n < least then
    Eval.wrongType (name ++ " expected at least " ++ argumentCount least ++ ", got " ++ toString n)
  else
    Eval.wrongType (name ++ " expected at most " ++ argumentCount most ++ ", got " ++ toString n)

/-- Takes one value and up to two more. -/
def takesUpToThree (name : String) (a : Arguments) : Eval (Value × List Value) := do
  noNamed name a
  match a.given with
  | [] => Eval.wrongType (name ++ "() takes at least 1 argument (0 given)")
  | v :: r =>
    if 3 < a.given.length then
      Eval.wrongType (name ++ "() takes at most 3 arguments (" ++ toString a.given.length ++
        " given)")
    else return (v, r)

/-- Takes values by place or by name, none of which has to be given. -/
def takesNamed (name : String) (names : List String) (a : Arguments) :
    Eval (List (Option Value)) := do
  let total := a.given.length + a.named.length
  if names.length < total then
    Eval.wrongType (name ++ "() takes at most " ++ argumentCount names.length ++ " (" ++
      toString total ++ " given)")
  let first := a.given.map some ++ List.replicate (names.length - a.given.length) none
  a.named.foldlM (fun got p => do
    let n := String.ofList p.1
    match names.findIdx? (· == n) with
    | none =>
      Eval.wrongType ("'" ++ n ++ "' is an invalid keyword argument for " ++ name ++ "()")
    | some i =>
      match got[i]? with
      | some (some _) =>
        Eval.wrongType ("argument for " ++ name ++ "() given by name ('" ++ n ++
          "') and position (" ++ toString (i + 1) ++ ")")
      | _ => return got.set i (some p.2)) first

/-- A value that counts as an integer. -/
def asWhole (v : Value) : Eval Int := do
  match v.int? with
  | some n => return n
  | none =>
    Eval.wrongType ("'" ++ (← Eval.kindName v) ++ "' object cannot be interpreted as an integer")

/-- A value that counts as an integer of thirty-two bits. -/
def signArgument (v : Value) : Eval Int := do
  let n ← asWhole v
  if n < -2147483648 ∨ 2147483647 < n then
    Eval.wrong .overflow "Python int too large to convert to C int"
  return n

/-! ### Small laws -/

theorem sentence_pair (a b : String) : sentence [a, b] = "'" ++ a ++ "' and '" ++ b ++ "'" := rfl

end LogCalls.Template
