/-
LogCalls/Template/Methods.lean

What can be asked of a value by name, kind by kind.  Methods of lists and
mappings change what lies in the store; those of markup give markup again and
escape what they are given.
-/
import LogCalls.Template.Sorting
import LogCalls.Template.TextMethods
import LogCalls.Text.Tags

namespace LogCalls.Template

namespace Machine

/-! ### Rows and lists -/

/-- How many of some values equal a value. -/
def countEqual (v : Value) : List Value → Eval Nat
  | [] => return 0
  | w :: rest => do
    let here ← equalItem equal w v
    return (← countEqual v rest) + (if here then 1 else 0)

/-- The place of the first of some values that equals a value. -/
def indexOf? (v : Value) : List Value → Eval (Option Nat)
  | [] => return none
  | w :: rest => do
    if ← equalItem equal w v then return some 0
    else return (← indexOf? v rest).map (· + 1)

/-- A bound of a search in a row. -/
def searchBound (length : Nat) (usual : Nat) : Option Value → Eval Nat
  | none => return usual
  | some v => do
    match v.int? with
    | some n => return (if n < 0 then n + length else n).toNat
    | none => Eval.wrongType "slice indices must be integers or have an __index__ method"

/-- The place of a value in a row, between the bounds that a call is given. -/
def indexIn (owner : String) (vs : List Value) (complaint : Value → Eval String)
    (a : Arguments) : Eval Value := do
  let given ← takesBetween owner "index" 1 3 a
  let v := given[0]?.getD .none
  let start ← searchBound vs.length 0 given[1]?
  let stop ← searchBound vs.length vs.length given[2]?
  match ← indexOf? v ((vs.take stop).drop start) with
  | some i => return .whole (start + i : Nat)
  | none => Eval.wrongValue (← complaint v)

/-- The keys by which a list is sorted. -/
def sortKeys (m : Machine) (key : Option Value) (vs : List Value) :
    Eval (List (Value × Value)) := do
  match key with
  | none | some .none => return vs.map fun v => (v, v)
  | some f => vs.mapM fun v => do return (← m.call f ⟨[v], []⟩, v)

/-- What a list answers to a call by name. -/
def listMethod (m : Machine) (id : Nat) (vs : List Value) (name : String) (a : Arguments) :
    Eval Value := do
  let become (ws : List Value) : Eval Value := do
    Eval.replace id (.list ws)
    return .none
  match name with
  | "append" =>
    let v ← takesOne "list.append" a
    become (vs ++ [v])
  | "clear" =>
    takesNothing "list.clear" a
    become []
  | "copy" =>
    takesNothing "list.copy" a
    Eval.list vs
  | "count" => return .whole (← countEqual (← takesOne "list.count" a) vs)
  | "extend" =>
    let ws ← m.items (← takesOne "list.extend" a)
    become (vs ++ ws)
  | "index" =>
    indexIn "list" vs (fun v => do return String.ofList (← m.written v) ++ " is not in list") a
  | "insert" =>
    let given ← takesBetween "list" "insert" 2 2 a
    let i ← asWhole (given[0]?.getD .none)
    let place := min vs.length (if i < 0 then i + vs.length else i).toNat
    become (vs.take place ++ given[1]?.getD .none :: vs.drop place)
  | "pop" =>
    let given ← takesBetween "list" "pop" 0 1 a
    let i ← asWhole (given[0]?.getD (.whole (-1)))
    if vs.isEmpty then Eval.wrong .index "pop from empty list"
    match placeOf? vs.length i with
    | some k =>
      Eval.replace id (.list (vs.eraseIdx k))
      return vs[k]?.getD .none
    | none => Eval.wrong .index "pop index out of range"
  | "remove" =>
    match ← indexOf? (← takesOne "list.remove" a) vs with
    | some k => become (vs.eraseIdx k)
    | none => Eval.wrongValue "list.remove(x): x not in list"
  | "reverse" =>
    takesNothing "list.reverse" a
    become vs.reverse
  | _ =>
    if 2 < a.given.length + a.named.length then
      Eval.wrongType ("sort() takes at most 2 arguments (" ++
        toString (a.given.length + a.named.length) ++ " given)")
    if !a.given.isEmpty then Eval.wrongType "sort() takes no positional arguments"
    let got ← takesNamed "sort" ["key", "reverse"] a
    let backwards ← match (got[1]?).join with
      | some v => do pure ((← signArgument v) != 0)
      | none => pure false
    let keys ← m.sortKeys ((got[0]?).join) vs
    become (← sortedByKey (holdsOrder .lt) backwards keys)

/-- What a row answers to a call by name. -/
def rowMethod (vs : List Value) (name : String) (a : Arguments) : Eval Value := do
  match name with
  | "count" => return .whole (← countEqual (← takesOne "tuple.count" a) vs)
  | _ => indexIn "tuple" vs (fun _ => return "tuple.index(x): x not in tuple") a

/-- What a span answers to a call by name. -/
def spanMethod (m : Machine) (start stop step : Int) (name : String) (a : Arguments) :
    Eval Value := do
  let v ← takesOne ("range." ++ name) a
  let place? : Option Nat ← match v.int? with
    | some n =>
      pure (if inSpan start stop step n then some (Int.fdiv (n - start) step).toNat else none)
    | none => indexOf? v (← m.items (.span start stop step))
  match name, place? with
  | "count", p => return .whole (if p.isSome then 1 else 0)
  | _, some i => return .whole i
  | _, none =>
    match v.int? with
    | some _ => Eval.wrongValue (String.ofList (← m.written v) ++ " is not in range")
    | none => Eval.wrongValue "sequence.index(x): x not in sequence"

/-! ### Mappings -/

/-- The entries that a row of pairs adds. -/
def pairEntries (m : Machine) : Nat → List Value → List (Value × Value) →
    Eval (List (Value × Value))
  | _, [], entries => return entries
  | i, v :: rest, entries => do
    match ← iterator? v with
    | none =>
      Eval.wrongType ("cannot convert dictionary update sequence element #" ++ toString i ++
        " to a sequence")
    | some id =>
      match ← m.drain id manyValues [] with
      | [k, w] =>
        requireKey comparisonDepth k
        m.pairEntries (i + 1) rest (putEntry entries k w)
      | vs =>
        Eval.wrongValue ("dictionary update sequence element #" ++ toString i ++ " has length " ++
          toString vs.length ++ "; 2 is required")

/-- The entries with those that a call adds. -/
def updated (m : Machine) (label : String) (entries : List (Value × Value)) (a : Arguments) :
    Eval (List (Value × Value)) := do
  if 1 < a.given.length then
    Eval.wrongType (label ++ " expected at most 1 argument, got " ++ toString a.given.length)
  let withGiven ← match a.given with
    | [] => pure entries
    | v :: _ =>
      let pairs : Eval (List (Value × Value)) := do
        m.pairEntries 0 (← m.items v) entries
      match v with
      | .object id =>
        match ← Eval.object? id with
        | some (.mapping other) => pure (other.foldl (fun es p => putEntry es p.1 p.2) entries)
        | _ => pairs
      | _ => pairs
  return a.named.foldl (fun es p => putEntry es (.text p.1) p.2) withGiven

/-- What a mapping answers to a call by name. -/
def mappingMethod (m : Machine) (id : Nat) (entries : List (Value × Value)) (name : String)
    (a : Arguments) : Eval Value := do
  let become (es : List (Value × Value)) : Eval Unit := Eval.replace id (.mapping es)
  let keyed (least most : Nat) : Eval (Value × Option Value) := do
    let given ← takesBetween "dict" name least most a
    return (given[0]?.getD .none, given[1]?)
  match name with
  | "clear" =>
    takesNothing "dict.clear" a
    become []
    return .none
  | "copy" =>
    takesNothing "dict.copy" a
    Eval.mapping entries
  | "fromkeys" =>
    let (keys, v) ← keyed 1 2
    let ks ← m.items keys
    ks.forM (requireKey comparisonDepth)
    Eval.mapping (ks.foldl (fun es k => putEntry es k (v.getD .none)) [])
  | "get" =>
    let (k, v) ← keyed 1 2
    requireKey comparisonDepth k
    return (keyValue? entries k).getD (v.getD .none)
  | "items" | "keys" | "values" =>
    takesNothing ("dict." ++ name) a
    let p : Portion := if name = "items" then .items else if name = "keys" then .keys else .values
    return .object (← Eval.allocate (.view p id))
  | "pop" =>
    let (k, v) ← keyed 1 2
    if !entries.isEmpty then requireKey comparisonDepth k
    match keyValue? entries k, v with
    | some w, _ =>
      become (entries.filter fun p => !sameKey p.1 k)
      return w
    | none, some w => return w
    | none, none => Eval.wrong .key (String.ofList (← m.written k))
  | "popitem" =>
    takesNothing "dict.popitem" a
    match entries.getLast? with
    | some (k, v) =>
      become entries.dropLast
      return .row [k, v]
    | none => Eval.wrong .key "'popitem(): dictionary is empty'"
  | "setdefault" =>
    let (k, v) ← keyed 1 2
    requireKey comparisonDepth k
    match keyValue? entries k with
    | some w => return w
    | none =>
      become (putEntry entries k (v.getD .none))
      return v.getD .none
  | _ =>
    become (← m.updated "update" entries a)
    return .none

/-! ### Numbers -/

/-- The number of ones among the binary digits of a number. -/
def onesIn (n : Nat) : Nat := ((Nat.toDigits 2 n).filter (· == '1')).length

/-- The number of binary digits of a number. -/
def binaryLength (n : Nat) : Nat := if n = 0 then 0 else n.log2 + 1

/-- What an integer answers to a call by name. -/
def wholeMethod (owner : String) (n : Int) (name : String) (a : Arguments) : Eval Value := do
  takesNothing (owner ++ "." ++ name) a
  match name with
  | "bit_length" => return .whole (binaryLength n.natAbs)
  | "bit_count" => return .whole (onesIn n.natAbs)
  | "as_integer_ratio" => return .row [.whole n, .whole 1]
  | _ => return .whole n

/-- A double in hexadecimal digits with a binary exponent. -/
def hexText : Binary64 → Text
  | .nan => "nan".toList
  | .infinite negative => (if negative then "-inf" else "inf").toList
  | .finite negative m e =>
    let sign := if negative then ['-'] else []
    if m = 0 then sign ++ "0x0.0p+0".toList
    else
      -- numbers too small for a leading one keep a leading zero
      let top := Decimal.twoTo 52
      let lead := if m < top then '0' else '1'
      let exponent := e + 52
      sign ++ '0' :: 'x' :: lead :: '.' :: Text.hexPadded 13 (m % top) ++
        'p' :: (if exponent < 0 then '-' else '+') :: Text.numeral exponent.natAbs

/-- What a double answers to a call by name. -/
def realMethod (x : Binary64) (name : String) (a : Arguments) : Eval Value := do
  takesNothing ("float." ++ name) a
  match name, x.fraction? with
  | "is_integer", some (n, d) => return .truth (n.natAbs % d == 0)
  | "is_integer", none => return .truth false
  | "as_integer_ratio", some (n, d) =>
    let g := Nat.gcd n.natAbs d
    return .row [.whole (Int.tdiv n g), .whole (d / g : Nat)]
  | "as_integer_ratio", none =>
    match x with
    | .nan => Eval.wrongValue "cannot convert NaN to integer ratio"
    | _ => Eval.wrong .overflow "cannot convert Infinity to integer ratio"
  | "hex", _ => return .text (hexText x)
  | _, _ => return .real x

/-! ### Markup and bytes -/

/-- Values as markup. -/
def asMarkup (ts : List Text) : List Value := ts.map Value.markup

/-- What markup answers to a call by name. -/
def markupMethod (m : Machine) (t : Text) (name : String) (a : Arguments) : Eval Value := do
  let escapedAt (i : Nat) (a : Arguments) : Eval Arguments := do
    let given ← (a.given.zipIdx).mapM fun p => do
      if p.2 = i then return Value.markup (← m.escaped p.1) else return p.1
    return { a with given }
  match name with
  | "striptags" => takesNothing "Markup.striptags" a; return .text (Text.withoutTags t)
  | "unescape" => takesNothing "Markup.unescape" a; return .text (Text.unescaped t)
  | "__html__" => takesNothing "Markup.__html__" a; return .markup t
  | "escape" => return .markup (← m.escaped (← takesOne "Markup.escape" a))
  | "split" => Eval.list (asMarkup (← pieces false name t a))
  | "rsplit" => Eval.list (asMarkup (← pieces true name t a))
  | "splitlines" =>
    match ← m.textMethod t name a with
    | .object id =>
      match ← Eval.object? id with
      | some (.list vs) => Eval.list (asMarkup (vs.filterMap Value.text?))
      | _ => return .object id
    | v => return v
  | "partition" | "rpartition" =>
    let (x, y, z) ← parted name (name == "rpartition") t a
    return .row (asMarkup [x, y, z])
  | "join" =>
    let vs ← m.itemsToJoin (← takesOne "str.join" a)
    return .markup (Text.joinWith t (← vs.mapM m.escaped))
  | "format" | "format_map" =>
    let show_ (v : Value) (spec : Text) : Eval Text := do
      match v with
      | .markup u => return u
      | v => return (← specValue m v spec).flatMap escapeChar
    if name = "format" then return .markup (← bracesWith m (.ofArguments a) show_ t)
    else
      let v ← takesOne "str.format_map" a
      return .markup (← bracesWith m ⟨none, fun n => m.item v (.text n)⟩ show_ t)
  | "replace" | "ljust" | "rjust" | "center" =>
    match ← m.textMethod t name (← escapedAt 1 a) with
    | .text u => return .markup u
    | v => return v
  | _ =>
    match ← m.textMethod t name a with
    | .text u => return .markup u
    | v => return v

/-- What bytes answer to a call by name. -/
def bytesMethod (bs : List Nat) (name : String) (a : Arguments) : Eval Value := do
  match name with
  | "decode" =>
    match Text.Utf8.decode (bs.map UInt8.ofNat) with
    | .ok t => return .text t
    | .error flaw => Eval.wrong .decoding flaw.message
  | "hex" =>
    takesNothing "bytes.hex" a
    return .text (bs.flatMap (Text.hexPadded 2))
  | "upper" =>
    takesNothing "bytes.upper" a
    return .bytes (bs.map fun b => if 0x61 ≤ b ∧ b ≤ 0x7A then b - 0x20 else b)
  | "lower" =>
    takesNothing "bytes.lower" a
    return .bytes (bs.map fun b => if 0x41 ≤ b ∧ b ≤ 0x5A then b + 0x20 else b)
  | _ =>
    let (v, _) ← takesUpToThree name a
    match v with
    | .bytes cs =>
      return .truth (if name = "startswith" then cs.isPrefixOf bs
        else cs.reverse.isPrefixOf bs.reverse)
    | v =>
      Eval.wrongType (name ++ " first arg must be bytes or a tuple of bytes, not " ++
        (← Eval.kindName v))

/-! ### Loops and what goes around -/

/-- Takes no named arguments, as something of the template itself. -/
def onlyGiven (label : String) (a : Arguments) : Eval (List Value) := do
  match a.named with
  | [] => return a.given
  | (name, _) :: _ =>
    Eval.wrongType (label ++ "() got an unexpected keyword argument '" ++ String.ofList name ++ "'")

/-- Takes nothing but the value whose method is called. -/
def onlyOwner (label : String) (a : Arguments) : Eval Unit := do
  let given ← onlyGiven label a
  if !given.isEmpty then
    Eval.wrongType (label ++ "() takes 1 positional argument but " ++
      toString (given.length + 1) ++ " were given")

/-- What a loop answers to a call by name. -/
def loopMethod (id : Nat) (l : Loop) (name : String) (a : Arguments) : Eval Value := do
  match name with
  | "cycle" =>
    let given ← onlyGiven "LoopContext.cycle" a
    if given.isEmpty then Eval.wrongType "no items for cycling given"
    return given[(l.count - 1) % given.length]?.getD .none
  | _ =>
    let given ← onlyGiven "LoopContext.changed" a
    let same ← match l.lastSeen with
      | some vs => equal (.row vs) (.row given)
      | none => pure false
    if same then return .truth false
    Eval.replace id (.loop { l with lastSeen := some given })
    return .truth true

/-- What something that goes around answers to a call by name. -/
def cyclerMethod (id : Nat) (vs : List Value) (position : Nat) (name : String) (a : Arguments) :
    Eval Value := do
  onlyOwner ("Cycler." ++ name) a
  match name with
  | "next" =>
    Eval.replace id (.cycler vs ((position + 1) % vs.length))
    return vs[position]?.getD .none
  | _ =>
    Eval.replace id (.cycler vs 0)
    return .none

/-- The methods that values of several kinds have. -/
def commonMethod? (m : Machine) (v : Value) (name : String) (a : Arguments) :
    Eval (Option Value) := do
  let first := a.given[0]?.getD .none
  match name with
  | "__str__" => return some (.text (← m.shown v))
  | "__repr__" => return some (.text (← m.written v))
  | "__len__" => return some (.whole (← m.length v))
  | "__eq__" => return some (.truth (← equal v first))
  | "__ne__" => return some (.truth !(← equal v first))
  | "__contains__" => return some (.truth (← contains m v first))
  | "__getitem__" => return some (← m.item v first)
  | "__iter__" => return some (.object (← iterator v))
  | "__format__" => return some (.text (← specValue m v (first.text?.getD [])))
  | _ => return none

/-- What a value answers to a call by name. -/
def method (m : Machine) (owner : Value) (name : Text) (a : Arguments) : Eval Value := do
  let name := String.ofList name
  match ← m.commonMethod? owner name a with
  | some v => return v
  | none =>
    match owner with
    | .text t => m.textMethod t name a
    | .markup t => m.markupMethod t name a
    | .bytes bs => bytesMethod bs name a
    | .row vs => rowMethod vs name a
    | .span x y z => m.spanMethod x y z name a
    | .whole n => wholeMethod "int" n name a
    | .truth b => wholeMethod "bool" (if b then 1 else 0) name a
    | .real x => realMethod x name a
    | .object id =>
      match ← Eval.object? id with
      | some (.list vs) => m.listMethod id vs name a
      | some (.mapping entries) => m.mappingMethod id entries name a
      | some (.loop l) => loopMethod id l name a
      | some (.cycler vs position) => cyclerMethod id vs position name a
      | some (.view _ d) =>
        let v ← takesOne ((← Eval.kindName owner) ++ "." ++ name) a
        let others ← m.items v
        match ← Eval.object? d with
        | some (.mapping entries) =>
          return .truth !(others.any fun k => (keyValue? entries k).isSome)
        | _ => return .truth true
      | _ => return .none
    | _ => return .none

end Machine

end LogCalls.Template
