/-
LogCalls/Template/Lookup.lean

Parts and items of values.  A part that a value does not have by name is looked
up as an item, and an item under a text that is not there as a part; what is
found nowhere is a missing value that says so.
-/
import LogCalls.Template.Show
import LogCalls.Text.Letter

namespace LogCalls.Template

/-! ### Items -/

/-- The place in a row of `length` values that an index names. -/
def placeOf? (length : Nat) (index : Int) : Option Nat :=
  let i := if index < 0 then index + length else index
  if 0 ≤ i ∧ i < length then some i.toNat else none

/-- The bounds of a cut, each an integer or none. -/
def cutBound (v : Value) : Eval (Option Int) := do
  match v with
  | .none => return none
  | v =>
    match v.int? with
    | some n => return some n
    | none =>
      Eval.wrongType "slice indices must be integers or None or have an __index__ method"

/-- The first place, the place after the last, and the step of a cut through
`length` values. -/
def cutPlaces (length : Nat) (start stop step : Value) : Eval (Int × Int × Int) := do
  let step ← cutBound step
  let step := step.getD 1
  if step = 0 then Eval.wrongValue "slice step cannot be zero"
  let start ← cutBound start
  let stop ← cutBound stop
  let n : Int := length
  let clamp (low high : Int) (i : Int) : Int :=
    let i := if i < 0 then i + n else i
    if i < low then low else if high < i then high else i
  if 0 < step then
    return ((start.map (clamp 0 n)).getD 0, (stop.map (clamp 0 n)).getD n, step)
  else
    return ((start.map (clamp (-1) (n - 1))).getD (n - 1),
      (stop.map (clamp (-1) (n - 1))).getD (-1), step)

/-- The places of a cut, in order. -/
def placesFrom (start step : Int) : Nat → List Nat
  | 0 => []
  | count + 1 => start.toNat :: placesFrom (start + step) step count

/-- The values of a cut. -/
def cutValues {α : Type} (vs : List α) (start stop step : Value) : Eval (List α) := do
  let (a, b, c) ← cutPlaces vs.length start stop step
  if c = 1 then return (vs.take b.toNat).drop a.toNat
  else
    let all := vs.toArray
    return (placesFrom a c (Machine.spanLength a b c).toNat).filterMap fun i => all[i]?

namespace Machine

/-- The part of a value that a cut names. -/
def cutOf (v start stop step : Value) : Eval Value := do
  let refuse : Eval Value := do
    Eval.wrongType ("'" ++ (← Eval.kindName v) ++ "' object is not subscriptable")
  match v with
  | .text t => return .text (← cutValues t start stop step)
  | .markup t => return .markup (← cutValues t start stop step)
  | .bytes bs => return .bytes (← cutValues bs start stop step)
  | .row vs => return .row (← cutValues vs start stop step)
  | .span a b c =>
    let (i, j, k) ← cutPlaces (spanLength a b c).toNat start stop step
    return .span (a + i * c) (a + j * c) (c * k)
  | .missing _ complaint => Eval.needs complaint
  | .object id =>
    match ← Eval.object? id with
    | some (.list vs) => Eval.list (← cutValues vs start stop step)
    | some (.mapping _) => Eval.wrongType "unhashable type: 'slice'"
    | _ => refuse
  | _ => refuse

/-- The item of a value under a key. -/
def item (m : Machine) (v key : Value) : Eval Value := do
  let at? (what indices : String) (vs : List Value) : Eval Value := do
    match key.int? with
    | some i =>
      match (placeOf? vs.length i).bind (vs[·]?) with
      | some w => return w
      | none => Eval.wrong .index (what ++ " index out of range")
    | none =>
      let k ← Eval.kindName key
      Eval.wrongType (indices ++ ", not " ++ (if what = "string" then "'" ++ k ++ "'" else k))
  let refuse : Eval Value := do
    Eval.wrongType ("'" ++ (← Eval.kindName v) ++ "' object is not subscriptable")
  match v, key with
  | .missing _ complaint, _ => Eval.needs complaint
  | v, .cut a b c => cutOf v a b c
  | .text t, _ | .markup t, _ =>
    match ← at? "string" "string indices must be integers" (t.map fun c => .text [c]), v with
    | .text u, .markup _ => return .markup u
    | w, _ => return w
  | .bytes bs, _ =>
    at? "index" "byte indices must be integers or slices" (bs.map fun b => .whole (Int.ofNat b))
  | .row vs, _ => at? "tuple" "tuple indices must be integers or slices" vs
  | .span a b c, _ =>
    match key.int? with
    | some i =>
      match placeOf? (spanLength a b c).toNat i with
      | some k => return .whole (a + k * c)
      | none => Eval.wrong .index "range object index out of range"
    | none =>
      Eval.wrongType ("range indices must be integers or slices, not " ++ (← Eval.kindName key))
  | .object id, _ =>
    match ← Eval.object? id with
    | some (.list vs) => at? "list" "list indices must be integers or slices" vs
    | some (.mapping entries) =>
      requireKey comparisonDepth key
      match keyValue? entries key with
      | some w => return w
      | none => Eval.wrong .key (String.ofList (← m.written key))
    | some (.group k values) => at? "tuple" "tuple indices must be integers or slices" [k, values]
    | some (.template context) =>
      requireKey comparisonDepth key
      match key.text? with
      | some name =>
        if ((← get).blocks.lookup name).isSome then
          return .object (← Eval.allocate (.block name context))
        else Eval.wrong .key (String.ofList (← m.written key))
      | none => Eval.wrong .key (String.ofList (← m.written key))
    | _ => refuse
  | _, _ => refuse

/-- The mistakes that a lookup takes for an answer. -/
def lookupMistakes : List Mistake := [.type, .key, .index, .attribute]

/-! ### Parts -/

/-- The methods of texts. -/
def textMethods : List String := [
  "capitalize", "casefold", "center", "count", "encode", "endswith", "expandtabs", "find",
  "format", "format_map", "index", "isalnum", "isalpha", "isascii", "isdecimal", "isdigit",
  "isidentifier", "islower", "isnumeric", "isprintable", "isspace", "istitle", "isupper", "join",
  "ljust", "lower", "lstrip", "maketrans", "partition", "removeprefix", "removesuffix", "replace",
  "rfind", "rindex", "rjust", "rpartition", "rsplit", "rstrip", "split", "splitlines",
  "startswith", "strip", "swapcase", "title", "translate", "upper", "zfill"]

/-- The methods of a kind of values. -/
def methodsOf : Kind → List String
  | .text => textMethods
  | .markup => textMethods ++ ["striptags", "unescape", "escape", "__html__"]
  | .bytes => ["decode", "hex", "upper", "lower", "startswith", "endswith"]
  | .whole | .truth =>
    ["as_integer_ratio", "bit_count", "bit_length", "conjugate", "from_bytes", "to_bytes"]
  | .real => ["as_integer_ratio", "conjugate", "fromhex", "hex", "is_integer"]
  | .row => ["count", "index"]
  | .list =>
    ["append", "clear", "copy", "count", "extend", "index", "insert", "pop", "remove", "reverse",
      "sort"]
  | .mapping =>
    ["clear", "copy", "fromkeys", "get", "items", "keys", "pop", "popitem", "setdefault",
      "update", "values"]
  | .span => ["count", "index"]
  | .view .keys | .view .items => ["isdisjoint"]
  | .loop => ["cycle", "changed"]
  | .cycler => ["next", "reset"]
  | _ => []

/-- Methods that values of several kinds have. -/
def commonMethods (k : Kind) : List String :=
  let common := ["__str__", "__repr__", "__eq__", "__ne__", "__hash__", "__format__"]
  match k with
  | .text | .markup | .row | .list | .mapping | .span | .bytes =>
    common ++ ["__len__", "__contains__", "__getitem__", "__iter__"]
  | _ => common

/-- The part of a loop that looks one value ahead. -/
def peek (m : Machine) (id : Nat) (l : Loop) : Eval (Option Value) := do
  match l.after with
  | some v => return some v
  | none =>
    let v ← m.next l.iterator
    Eval.replace id (.loop { l with after := v })
    return v

/-- The parts of a loop. -/
def loopPart? (m : Machine) (id : Nat) (l : Loop) (name : String) : Eval (Option Value) := do
  let index : Int := l.count
  match name with
  | "index" => return some (.whole index)
  | "index0" => return some (.whole (index - 1))
  | "first" => return some (.truth (l.count == 1))
  | "last" => return some (.truth (← m.peek id l).isNone)
  | "length" => return some (.whole (← m.loopLength id l))
  | "revindex" => return some (.whole ((← m.loopLength id l) - (index - 1)))
  | "revindex0" => return some (.whole ((← m.loopLength id l) - index))
  | "depth" => return some (.whole (l.depth + 1))
  | "depth0" => return some (.whole l.depth)
  | "previtem" =>
    if l.count = 1 then return some (Eval.lacking "there is no previous item")
    else return some (l.before.getD (Eval.lacking "there is no previous item"))
  | "nextitem" =>
    match ← m.peek id l with
    | some v => return some v
    | none => return some (Eval.lacking "there is no next item")
  | _ => return none

/-- The parts of an object that are no methods. -/
def objectPart? (m : Machine) (id : Nat) (name : Text) : Eval (Option Value) := do
  match ← Eval.object? id, String.ofList name with
  | some (.fields entries), _ => return entries.lookup name
  | some (.loop l), s => m.loopPart? id l s
  | some (.cycler vs _), "items" => return some (.row vs)
  | some (.cycler _ position), "pos" => return some (.whole position)
  | some (.cycler vs position), "current" => return some (vs[position]?.getD .none)
  | some (.joiner separator _), "sep" => return some separator
  | some (.joiner _ used), "used" => return some (.truth used)
  | some (.routine r), "name" => return some ((r.name.map Value.text).getD .none)
  | some (.routine r), "arguments" => return some (.row (r.parameters.map Value.text))
  | some (.routine r), "caller" => return some (.truth r.takesCaller)
  | some (.routine r), "catch_kwargs" => return some (.truth r.takesNamed)
  | some (.routine r), "catch_varargs" => return some (.truth r.takesRest)
  | some (.routine r), "explicit_caller" => return some (.truth r.namesCaller)
  | some (.group key _), "grouper" => return some key
  | some (.group _ values), "list" => return some values
  | some (.block name _), "name" => return some (.text name)
  | some (.block name _), "super" =>
    return some (Eval.lacking ("there is no parent block called " ++ Text.quoted (String.ofList name)
      ++ "."))
  | _, _ => return none

/-- The part of a value under a name, items left aside. -/
def part? (m : Machine) (v : Value) (name : Text) : Eval (Option Value) := do
  let s := String.ofList name
  let k ← Eval.kindOf v
  match v with
  | .missing _ complaint => Eval.needs complaint
  | .object id =>
    match ← m.objectPart? id name with
    | some w => return some w
    | none => finish s k
  | .whole n =>
    match s with
    | "real" | "numerator" => return some (.whole n)
    | "imag" => return some (.whole 0)
    | "denominator" => return some (.whole 1)
    | _ => finish s k
  | .truth b =>
    match s with
    | "real" | "numerator" => return some (.whole (if b then 1 else 0))
    | "imag" => return some (.whole 0)
    | "denominator" => return some (.whole 1)
    | _ => finish s k
  | .real x =>
    match s with
    | "real" => return some (.real x)
    | "imag" => return some (.real (Binary64.zero false))
    | _ => finish s k
  | .span a b c =>
    match s with
    | "start" => return some (.whole a)
    | "stop" => return some (.whole b)
    | "step" => return some (.whole c)
    | _ => finish s k
  | .kind of_ =>
    match s with
    | "__name__" | "__qualname__" => return some (.ofString of_.name)
    | "__module__" => return some (.ofString (of_.family?.getD "builtins"))
    | _ =>
      if (methodsOf of_).contains s then return some (.method v name) else finish s k
  | _ => finish s k
where
  /-- Methods, and what every value has. -/
  finish (s : String) (k : Kind) : Eval (Option Value) := do
    if s = "__class__" then return some (.kind k)
    else if (methodsOf k).contains s || (k != .fields && (commonMethods k).contains s) then
      return some (.method v s.toList)
    else return none

/-- The missing value of an item that is not there. -/
def absent (m : Machine) (v key : Value) : Eval Value := do
  let what ← Eval.describe v
  match key.text? with
  | some _ =>
    return Eval.lacking (Text.quoted what ++ " has no attribute " ++
      String.ofList (← m.written key))
  | none => return Eval.lacking (what ++ " has no element " ++ String.ofList (← m.written key))

/-- The part of a value under a name, or its item under the name. -/
def partOrItem (m : Machine) (v : Value) (name : Text) : Eval Value := do
  match ← m.part? v name with
  | some w => return w
  | none =>
    match ← Eval.tryCatching lookupMistakes (m.item v (.text name)) with
    | some w => return w
    | none => m.absent v (.text name)

/-- The item of a value under a key, or its part of that name. -/
def itemOrPart (m : Machine) (v key : Value) : Eval Value := do
  match ← Eval.tryCatching lookupMistakes (m.item v key) with
  | some w => return w
  | none =>
    match key.text? with
    | some name =>
      match ← m.part? v name with
      | some w => return w
      | none => m.absent v key
    | none => m.absent v key

/-! ### Lookups in many values -/

/-- The steps of a lookup path that a value names. -/
def pathOf (named : Value) : List Value :=
  match named with
  | .none => []
  | .text t | .markup t =>
    (splitOn '.' t).map fun part =>
      if part ≠ [] ∧ part.all Text.isAnyDigit then .whole (Text.digitsValue part) else .text part
  | v => [v]
where
  /-- The parts of a text between the marks. -/
  splitOn (mark : Char) : Text → List Text
    | [] => [[]]
    | c :: r =>
      if c = mark then [] :: splitOn mark r
      else
        match splitOn mark r with
        | t :: ts => (c :: t) :: ts
        | [] => [[c]]

/-- What a lookup path leads to. -/
def follow (m : Machine) (g : Getter) (v : Value) : Eval Value :=
  g.path.foldlM (fun v key => do
    let w ← m.itemOrPart v key
    match w, g.otherwise with
    | .missing .., some d => return d
    | w, _ => return w) v

end Machine

end LogCalls.Template
