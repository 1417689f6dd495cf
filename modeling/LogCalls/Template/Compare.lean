/-
LogCalls/Template/Compare.lean

When two values are equal and which of two comes first.  Numbers compare by
value whatever their kind, texts by their characters, rows and lists by their
first difference.  A value that is missing compares with nothing.
-/
import LogCalls.Template.Machine

namespace LogCalls.Template

/-- The order of two numbers, if both values are numbers and have one. -/
def numberOrder? (a b : Value) : Option (Option Ordering) :=
  match a, b with
  | .real x, .real y => some (x.order? y)
  | .real x, b => b.int?.map fun n => x.orderInt? n
  | a, .real y => a.int?.map fun n => (y.orderInt? n).map Ordering.swap
  | a, b =>
    match a.int?, b.int? with
    | some m, some n => some (some (compare m n))
    | _, _ => none

/-- The order of two texts by the numbers of their characters. -/
def textOrder : Text → Text → Ordering
  | [], [] => .eq
  | [], _ :: _ => .lt
  | _ :: _, [] => .gt
  | c :: r, d :: s => if c = d then textOrder r s else compare c.toNat d.toNat

/-- The order of two lists of numbers. -/
def natsOrder : List Nat → List Nat → Ordering
  | [], [] => .eq
  | [], _ :: _ => .lt
  | _ :: _, [] => .gt
  | m :: r, n :: s => if m = n then natsOrder r s else compare m n

mutual

/-- Whether two values that can be keys are the same key. -/
def sameKey (a b : Value) : Bool :=
  match a, b with
  | .none, .none => true
  | .text t, .text u | .text t, .markup u | .markup t, .text u | .markup t, .markup u => t == u
  | .bytes x, .bytes y => x == y
  | .row vs, .row ws => sameKeys vs ws
  | .span a b c, .span a' b' c' => a == a' && b == b' && c == c'
  | .missing strict _, .missing strict' _ => strict == strict'
  | .object i, .object j => i == j
  | .method v n, .method w k => sameKey v w && n == k
  | .function n, .function k => n == k
  | .kind k, .kind l => k == l
  | a, b =>
    match numberOrder? a b with
    | some o => o == some .eq
    | none => false

/-- Whether two rows of keys are the same. -/
def sameKeys : List Value → List Value → Bool
  | [], [] => true
  | a :: r, b :: s => sameKey a b && sameKeys r s
  | _, _ => false

end

/-- Whether two values are one and the same. -/
def identical (a b : Value) : Bool :=
  match a, b with
  | .none, .none => true
  | .truth x, .truth y => x == y
  | .whole m, .whole n => m == n
  | .real x, .real y => x == y
  | .text t, .text u => t == u
  | .markup t, .markup u => t == u
  | .row [], .row [] => true
  | .object i, .object j => i == j
  | .function n, .function k => n == k
  | .kind k, .kind l => k == l
  | _, _ => false

/-- The wording of a limit on comparisons inside of comparisons. -/
def deepComparison : String := "maximum recursion depth exceeded in comparison"

/-- How deep values are compared inside of values. -/
def comparisonDepth : Nat := 400

/-- Fails if a value is missing and strict. -/
def requireKnown (v : Value) : Eval Unit := do
  match v with
  | .missing true complaint => Eval.needs complaint
  | _ => return ()

/-- Whether two lists of values are equal under a comparison. -/
def equalAll (eq : Value → Value → Eval Bool) : List Value → List Value → Eval Bool
  | [], [] => return true
  | a :: r, b :: s => do
    if ← eq a b then equalAll eq r s else return false
  | _, _ => return false

/-- Whether two values in a list are equal: one and the same value is. -/
def equalItem (eq : Value → Value → Eval Bool) (a b : Value) : Eval Bool := do
  match a, b with
  | .object i, .object j => if i = j then return true else eq a b
  | a, b => eq a b

/-- Whether every entry of a mapping is in another one with an equal value. -/
def equalEntries (eq : Value → Value → Eval Bool) (other : List (Value × Value)) :
    List (Value × Value) → Eval Bool
  | [] => return true
  | (k, v) :: rest => do
    match other.find? fun p => sameKey p.1 k with
    | some p => if ← equalItem eq v p.2 then equalEntries eq other rest else return false
    | none => return false

/-- Whether two values are equal, looked at down to a depth. -/
def equalTo : Nat → Value → Value → Eval Bool
  | 0, _, _ => Eval.wrong .depth deepComparison
  | depth + 1, a, b => do
    requireKnown a
    requireKnown b
    match a, b with
    | .row vs, .row ws => equalAll (equalItem (equalTo depth)) vs ws
    | .span a b c, .span a' b' c' =>
      let n := Machine.spanLength a b c
      return n == Machine.spanLength a' b' c' && (n == 0 || (a == a' && (n == 1 || c == c')))
    | .object i, .object j =>
      if i = j then return true
      match ← Eval.object? i, ← Eval.object? j with
      | some (.list vs), some (.list ws) => equalAll (equalItem (equalTo depth)) vs ws
      | some (.mapping ps), some (.mapping qs) =>
        if ps.length != qs.length then return false
        else equalEntries (equalTo depth) qs ps
      | _, _ => return false
    | a, b => return sameKey a b

/-- Whether two values are equal. -/
def equal (a b : Value) : Eval Bool := equalTo comparisonDepth a b

/-- Whether an order is the one that a relation asks for. -/
def Relation.accepts : Relation → Ordering → Bool
  | .lt, o => o == .lt
  | .le, o => o != .gt
  | .gt, o => o == .gt
  | .ge, o => o != .lt
  | .ne, o => o != .eq
  | _, o => o == .eq

/-- The sign of a relation. -/
def Relation.sign : Relation → String
  | .eq => "=="
  | .ne => "!="
  | .lt => "<"
  | .le => "<="
  | .gt => ">"
  | .ge => ">="
  | .isIn => "in"
  | .notIn => "not in"

/-- The first two values at the same place in two lists that differ. -/
def firstDifference? (eq : Value → Value → Eval Bool) :
    List Value → List Value → Eval (Option (Value × Value))
  | a :: r, b :: s => do
    if ← eq a b then firstDifference? eq r s else return some (a, b)
  | _, _ => return none

/-- Whether an ordering relation holds between two values, looked at down to a
depth. -/
def ordered (r : Relation) : Nat → Value → Value → Eval Bool
  | 0, _, _ => Eval.wrong .depth deepComparison
  | depth + 1, a, b => do
    let lists (vs ws : List Value) : Eval Bool := do
      match ← firstDifference? (equalItem (equalTo depth)) vs ws with
      | some (v, w) => ordered r depth v w
      | none => return r.accepts (compare vs.length ws.length)
    let refuse : Eval Bool := do
      Eval.wrongType ("'" ++ r.sign ++ "' not supported between instances of '" ++
        (← Eval.kindName a) ++ "' and '" ++ (← Eval.kindName b) ++ "'")
    match a, b with
    | .missing _ complaint, _ => Eval.needs complaint
    | _, .missing _ complaint => Eval.needs complaint
    | .text t, .text u | .text t, .markup u | .markup t, .text u | .markup t, .markup u =>
      return r.accepts (textOrder t u)
    | .bytes x, .bytes y => return r.accepts (natsOrder x y)
    | .row vs, .row ws => lists vs ws
    | .object i, .object j =>
      match ← Eval.object? i, ← Eval.object? j with
      | some (.list vs), some (.list ws) => lists vs ws
      | _, _ => refuse
    | a, b =>
      match numberOrder? a b with
      | some (some o) => return r.accepts o
      | some none => return false
      | none => refuse

/-- Whether an ordering relation holds between two values. -/
def holdsOrder (r : Relation) (a b : Value) : Eval Bool := ordered r comparisonDepth a b

/-! ### Keys -/

/-- Fails if a value cannot be a key. -/
def requireKey : Nat → Value → Eval Unit
  | 0, _ => return ()
  | depth + 1, v => do
    match v with
    | .missing true complaint => Eval.needs complaint
    | .row vs => vs.forM (requireKey depth)
    | .cut .. => Eval.wrongType "unhashable type: 'slice'"
    | .object id =>
      match ← Eval.object? id with
      | some (.list _) => Eval.wrongType "unhashable type: 'list'"
      | some (.mapping _) => Eval.wrongType "unhashable type: 'dict'"
      | some (.view p _) => Eval.wrongType ("unhashable type: '" ++ (Kind.view p).name ++ "'")
      | _ => return ()
    | _ => return ()

/-- The entry of a key. -/
def keyValue? (entries : List (Value × Value)) (k : Value) : Option Value :=
  (entries.find? fun p => sameKey p.1 k).map (·.2)

/-- The entries with a value for a key; a key that is there keeps its place. -/
def putEntry (entries : List (Value × Value)) (k v : Value) : List (Value × Value) :=
  if entries.any fun p => sameKey p.1 k then
    entries.map fun p => if sameKey p.1 k then (p.1, v) else p
  else entries ++ [(k, v)]

/-! ### Membership -/

/-- Whether one of some values equals a value. -/
def anyEqual (v : Value) : List Value → Eval Bool
  | [] => return false
  | w :: rest => do
    if ← equalItem equal w v then return true else anyEqual v rest

/-- Whether a text is a part of another one. -/
def occursIn (t : Text) : Text → Bool
  | [] => t.isEmpty
  | c :: r => t.isPrefixOf (c :: r) || occursIn t r

/-- Whether an integer belongs to a span. -/
def inSpan (start stop step n : Int) : Bool :=
  if 0 < step then start ≤ n && n < stop && Int.fmod (n - start) step == 0
  else stop < n && n ≤ start && Int.fmod (start - n) (-step) == 0

/-- Whether a value is in another one. -/
def contains (m : Machine) (container v : Value) : Eval Bool := do
  let refuse : Eval Bool := do
    Eval.wrongType ("argument of type '" ++ (← Eval.kindName container) ++ "' is not iterable")
  let walk : Eval Bool := do
    match ← Machine.iterator? container with
    | some id => anyEqual v (← m.drain id Machine.manyValues [])
    | none => refuse
  match container with
  | .text t | .markup t =>
    match v.text? with
    | some u => return occursIn u t
    | none =>
      Eval.wrongType ("'in <string>' requires string as left operand, not " ++ (← Eval.kindName v))
  | .row vs => anyEqual v vs
  | .span a b c =>
    match v.int? with
    | some n => return inSpan a b c n
    | none => walk
  | .object id =>
    match ← Eval.object? id with
    | some (.list vs) => anyEqual v vs
    | some (.mapping entries) =>
      requireKey comparisonDepth v
      return (keyValue? entries v).isSome
    | some (.view .keys d) =>
      requireKey comparisonDepth v
      match ← Eval.object? d with
      | some (.mapping entries) => return (keyValue? entries v).isSome
      | _ => return false
    | _ => walk
  | _ => walk

/-! ### Small laws -/

theorem textOrder_self (t : Text) : textOrder t t = .eq := by
  induction t with
  | nil => rfl
  | cons c r ih => simp [textOrder, ih]

theorem occursIn_self (t : Text) : occursIn t t = true := by
  cases t <;> simp [occursIn]

end LogCalls.Template
