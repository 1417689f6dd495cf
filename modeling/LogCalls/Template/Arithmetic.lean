/-
LogCalls/Template/Arithmetic.lean

Operations on values.  Integers are exact, doubles take over where one operand
is a double, and texts, rows and lists are joined and repeated.  Markup stays
markup, with the other operand escaped.
-/
import LogCalls.Template.Format

namespace LogCalls.Template

/-- The sign of an operation in messages. -/
def BinaryOp.sign : BinaryOp → String
  | .add => "+"
  | .sub => "-"
  | .mul => "*"
  | .div => "/"
  | .floorDiv => "//"
  | .mod => "%"
  | .pow => "** or pow()"

namespace Machine

/-- Refuses two operands. -/
def unsupported {α : Type} (op : BinaryOp) (a b : Value) : Eval α := do
  Eval.wrongType ("unsupported operand type(s) for " ++ op.sign ++ ": '" ++ (← Eval.kindName a) ++
    "' and '" ++ (← Eval.kindName b) ++ "'")

/-- An operation on two integers. -/
def wholeOp (op : BinaryOp) (a b : Int) : Eval Value := do
  match op with
  | .add => return .whole (a + b)
  | .sub => return .whole (a - b)
  | .mul => return .whole (a * b)
  | .div =>
    if b = 0 then Eval.wrong .division "division by zero"
    let negative := (decide (a < 0)) != (decide (b < 0))
    match Binary64.ofQuotient (negative && a != 0) a.natAbs b.natAbs with
    | .infinite _ => Eval.wrong .overflow "integer division result too large for a float"
    | x => return .real x
  | .floorDiv =>
    if b = 0 then Eval.wrong .division "integer division or modulo by zero"
    return .whole (Int.fdiv a b)
  | .mod =>
    if b = 0 then Eval.wrong .division "integer modulo by zero"
    return .whole (Int.fmod a b)
  | .pow =>
    if 0 ≤ b then
      if widest < (a.natAbs.log2 + 1) * b.toNat ∧ 1 < a.natAbs then Eval.wrong .memory ""
      else return .whole (if a = 1 ∨ b = 0 then 1 else if a = 0 then 0
        else if a = -1 then (if b % 2 = 0 then 1 else -1) else Int.pow a b.toNat)
    else
      match ← asDouble (.whole a), ← asDouble (.whole b) with
      | some x, some y => powerOf x y
      | _, _ => return .none
where
  /-- The power of two doubles. -/
  powerOf (x y : Binary64) : Eval Value := do
    match x.power y with
    | .ok z => return .real z
    | .error .zeroToNegative => Eval.wrong .division "0.0 cannot be raised to a negative power"
    | .error .tooLarge => Eval.wrong .overflow "(34, 'Numerical result out of range')"
    | .error .notReal => return .real .nan

/-- An operation on two doubles. -/
def realOp (op : BinaryOp) (x y : Binary64) : Eval Value := do
  match op with
  | .add => return .real (x.add y)
  | .sub => return .real (x.sub y)
  | .mul => return .real (x.mul y)
  | .div =>
    if y.isZero then Eval.wrong .division "float division by zero"
    return .real (x.divide y)
  | .floorDiv =>
    if y.isZero then Eval.wrong .division "float floor division by zero"
    return .real (x.floorDivide y)
  | .mod =>
    if y.isZero then Eval.wrong .division "float modulo"
    return .real (x.remainder y)
  | .pow => wholeOp.powerOf x y

/-- A list repeated. -/
def repeated {α : Type} (vs : List α) (n : Int) : Eval (List α) := do
  if greatestSize < n.natAbs then
    Eval.wrong .overflow "cannot fit 'int' into an index-sized integer"
  if widest < vs.length * n.toNat then Eval.wrong .memory ""
  return (List.replicate n.toNat vs).flatten

/-- A text, row or list repeated, if the value is one. -/
def repeat? (v : Value) (n : Int) : Eval (Option Value) := do
  match v with
  | .text t => return some (.text (← repeated t n))
  | .markup t => return some (.markup (← repeated t n))
  | .bytes bs => return some (.bytes (← repeated bs n))
  | .row vs => return some (.row (← repeated vs n))
  | .object id =>
    match ← Eval.object? id with
    | some (.list vs) => return some (← Eval.list (← repeated vs n))
    | _ => return none
  | _ => return none

/-- Whether a value can be repeated. -/
def isRepeatable (v : Value) : Eval Bool := do
  match ← Eval.kindOf v with
  | .text | .markup | .bytes | .row | .list => return true
  | _ => return false

/-- Two values joined where they are no numbers. -/
def joined (m : Machine) (a b : Value) : Eval Value := do
  let refuse (kind : String) : Eval Value := do
    Eval.wrongType ("can only concatenate " ++ kind ++ " (not \"" ++ (← Eval.kindName b) ++
      "\") to " ++ kind)
  match a, b with
  | .text t, .text u => return .text (t ++ u)
  | .markup t, .text _ | .markup t, .markup _ => return .markup (t ++ (← m.escaped b))
  | .text _, .markup u => return .markup ((← m.escaped a) ++ u)
  | .text _, _ => refuse "str"
  | .bytes x, .bytes y => return .bytes (x ++ y)
  | .row vs, .row ws => return .row (vs ++ ws)
  | .row _, _ => refuse "tuple"
  | .object i, b =>
    match ← Eval.object? i, b with
    | some (.list vs), .object j =>
      match ← Eval.object? j with
      | some (.list ws) => Eval.list (vs ++ ws)
      | _ => refuse "list"
    | some (.list _), _ => refuse "list"
    | _, _ => unsupported .add a b
  | a, b => unsupported .add a b

/-- An operation on two values. -/
def binary (m : Machine) (op : BinaryOp) (a b : Value) : Eval Value := do
  match op, a, b with
  | .mod, .text t, b => return .text (← percent m t b)
  | .mod, .markup t, b => return .markup (← markupPercent t b)
  | _, .missing _ complaint, _ => Eval.needs complaint
  | _, _, .missing _ complaint => Eval.needs complaint
  | op, a, b =>
    match a.int?, b.int?, a, b with
    | some x, some y, _, _ => wholeOp op x y
    | _, _, .real x, b =>
      match ← asDouble b with
      | some y => realOp op x y
      | none => others op a b
    | _, _, a, .real y =>
      match ← asDouble a with
      | some x => realOp op x y
      | none => others op a b
    | _, _, a, b => others op a b
where
  /-- Operations on values that are not both numbers. -/
  others (op : BinaryOp) (a b : Value) : Eval Value := do
    match op with
    | .add => m.joined a b
    | .mul =>
      let refuse (other : Value) : Eval Value := do
        Eval.wrongType ("can't multiply sequence by non-int of type '" ++
          (← Eval.kindName other) ++ "'")
      if ← isRepeatable a then
        match b.int? with
        | some n => return (← repeat? a n).getD .none
        | none => refuse b
      else if ← isRepeatable b then
        match a.int? with
        | some n => return (← repeat? b n).getD .none
        | none => refuse a
      else unsupported op a b
    | op => unsupported op a b
  /-- Percent places of markup: what is filled in is escaped. -/
  markupPercent (t : Text) (b : Value) : Eval Text := do
    let escapeOne (v : Value) : Eval Value := do
      match v with
      | .text _ => return .markup (← m.escaped v)
      | v => return v
    match b with
    | .row vs => percent m t (.row (← vs.mapM escapeOne))
    | v => percent m t (← escapeOne v)

/-- An operation on one value. -/
def unary (m : Machine) (op : UnaryOp) (v : Value) : Eval Value := do
  match op, v with
  | .negation, v => return .truth !(← m.holds v)
  | _, .missing _ complaint => Eval.needs complaint
  | .negative, .real x => return .real x.neg
  | .positive, .real x => return .real x
  | op, v =>
    match v.int? with
    | some n => return .whole (if op = .negative then -n else n)
    | none =>
      Eval.wrongType ("bad operand type for unary " ++ (if op = .negative then "-" else "+") ++
        ": '" ++ (← Eval.kindName v) ++ "'")

/-- Whether a relation holds between two values. -/
def related (m : Machine) (r : Relation) (a b : Value) : Eval Bool := do
  match r with
  | .eq => equal a b
  | .ne => return !(← equal a b)
  | .isIn => contains m b a
  | .notIn => return !(← contains m b a)
  | r => holdsOrder r a b

end Machine

end LogCalls.Template
