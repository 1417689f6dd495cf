/-
LogCalls/Template/Filter/OfRow.lean

The filters of values that can be gone through: their ends, their order, sums,
groups, and what is chosen from them.  A filter that gives an iterator does its
work when the iterator is asked.
-/
import LogCalls.Template.Filter.Basic

namespace LogCalls.Template.Machine

/-! ### Sums and extremes -/

/-- The sum of some values behind a start. -/
def summed (m : Machine) (start : Value) (vs : List Value) : Eval Value := do
  match start with
  | .text _ | .markup _ => Eval.wrongType "sum() can't sum strings [use ''.join(seq) instead]"
  | .bytes _ => Eval.wrongType "sum() can't sum bytes [use b''.join(seq) instead]"
  | start => vs.foldlM (fun total v => m.binary .add total v) start

/-- The value with the least or the greatest key, the first one of several. -/
def extreme (r : Relation) (best : Value × Value) : List (Value × Value) → Eval Value
  | [] => return best.2
  | p :: rest => do
    if ← holdsOrder r p.1 best.1 then extreme r p rest else extreme r best rest

/-- The least or the greatest of some values. -/
def extremeOf (m : Machine) (r : Relation) (v caseSensitive part : Value) : Eval Value := do
  let id ← iterator v
  match ← m.next id with
  | none => return Eval.lacking "No aggregated item, sequence was empty."
  | some first =>
    let sensitive ← m.holds caseSensitive
    let keyed (w : Value) : Eval (Value × Value) := do
      return (← m.keyOf (pathOf part) sensitive w, w)
    let best ← keyed first
    let rest ← m.drain id manyValues []
    extreme r best (← rest.mapM keyed)

/-! ### Order -/

/-- The paths that a value names, with commas between them. -/
def pathsOf (named : Value) : List (List Value) :=
  match named.text? with
  | some t => (Text.piecesUpTo [','] t.length t).map fun part => pathOf (.text part)
  | none => [pathOf named]

/-- Some values in order. -/
def sortedValues (m : Machine) (v backwards caseSensitive part : Value) : Eval Value := do
  let sensitive ← m.holds caseSensitive
  let vs ← m.items v
  let backwards ← signArgument backwards
  let paths := pathsOf part
  let keyed ← vs.mapM fun w => do
    return (← paths.mapM fun path => m.keyOf path sensitive w, w)
  Eval.list (← sortedByKey lessKeys (backwards != 0) keyed)

/-- The entries of a mapping in order. -/
def sortedEntries (m : Machine) (v caseSensitive by_ backwards : Value) : Eval Value := do
  let byKey ← match by_.text?.map String.ofList with
    | some "key" => pure true
    | some "value" => pure false
    | _ => Eval.refuse
  let refuse : Eval (List (Value × Value)) := do
    Eval.wrong .attribute ("'" ++ (← Eval.kindName v) ++ "' object has no attribute 'items'")
  let entries ← match v with
    | .missing _ complaint => Eval.needs complaint
    | .object id =>
      match ← Eval.object? id with
      | some (.mapping entries) => pure entries
      | _ => refuse
    | _ => refuse
  let backwards ← signArgument backwards
  let sensitive ← if entries.isEmpty then pure false else m.holds caseSensitive
  let keyed := entries.map fun p =>
    let k := if byKey then p.1 else p.2
    (if sensitive then k else ignoringCase k, Value.row [p.1, p.2])
  Eval.list (← sortedByKey (holdsOrder .lt) (backwards != 0) keyed)

/-- Neighbours with equal keys, together. -/
def neighbours : List (Value × Value) → Eval (List (Value × List Value))
  | [] => return []
  | (k, v) :: rest => do
    match ← neighbours rest with
    | (l, vs) :: groups =>
      if ← equal k l then return (k, v :: vs) :: groups else return (k, [v]) :: (l, vs) :: groups
    | [] => return [(k, [v])]

/-- Some values in groups by a part of them. -/
def grouped (m : Machine) (v part otherwise caseSensitive : Value) : Eval Value := do
  let usual := if otherwise.isNone then none else some otherwise
  let sensitive ← m.holds caseSensitive
  let keyed ← (← m.items v).mapM fun w => do
    let k ← m.follow ⟨pathOf part, usual⟩ w
    let k := if sensitive then k else ignoringCase k
    return (k, Value.row [k, w])
  let sorted ← sortedByKey (holdsOrder .lt) false keyed
  let pairs := sorted.map fun p => match p with
    | .row [k, w] => (k, w)
    | w => (Value.none, w)
  let groups ← neighbours pairs
  let made ← groups.mapM fun g => do
    let key ← if sensitive then pure g.1 else m.follow ⟨pathOf part, usual⟩ (g.2.headD .none)
    return Value.object (← Eval.allocate (.group key (← Eval.list g.2)))
  Eval.list made

/-! ### Tasks of iterators -/

/-- Values in rows of a size, the last one filled up. -/
def batches (m : Machine) (size filler : Value) : List Value → List Value → Eval (List Value)
  | row, [] => do
    if row.isEmpty then return []
    let n : Int := row.length
    let isShort ← if filler.isNone then pure false else holdsOrder .lt (.whole n) size
    if !isShort then return [← Eval.list row]
    match ← m.binary .sub size (.whole n) with
    | .whole k => return [← Eval.list (row ++ List.replicate k.toNat filler)]
    | w =>
      Eval.wrongType ("can't multiply sequence by non-int of type '" ++ (← Eval.kindName w) ++
        "'")
  | row, v :: rest => do
    if ← equal (.whole row.length) size then
      let done ← Eval.list row
      return done :: (← m.batches size filler [v] rest)
    else m.batches size filler (row ++ [v]) rest

/-- Values in a number of rows of nearly the same size. -/
def slices (filler : Value) (vs : List Value) (count : Nat) : List (List Value) :=
  let size := vs.length / count
  let extra := vs.length % count
  (List.range count).map fun i =>
    let start := i * size + min i extra
    let stop := (i + 1) * size + min (i + 1) extra
    let row := (vs.take stop).drop start
    if !filler.isNone && extra ≤ i then row ++ [filler] else row

/-- Values without those whose key was there before. -/
def firstOnly (m : Machine) (path : List Value) (sensitive : Bool) (seen : List Value) :
    List Value → Eval (List Value)
  | [] => return []
  | v :: rest => do
    let k ← m.keyOf path sensitive v
    requireKey comparisonDepth k
    if seen.any (sameKey k) then m.firstOnly path sensitive seen rest
    else return v :: (← m.firstOnly path sensitive (k :: seen) rest)

/-- What is done to the values of a map. -/
def changeOf (a : Arguments) : Eval Change := do
  match a.given with
  | name :: rest => return .filter name { a with given := rest }
  | [] =>
    match a.named.lookup "attribute".toList with
    | none => Eval.refuse
    | some part =>
      if a.named.any fun p => p.1 != "attribute".toList && p.1 != "default".toList then Eval.refuse
      let usual := match a.named.lookup "default".toList with
        | none | some .none => none
        | some w => some w
      return .lookup ⟨pathOf part, usual⟩

/-- Which values a selection takes. -/
def choiceOf (a : Arguments) (byPart wanted : Bool) : Eval Choice := do
  let getter ← if byPart then
      match a.given with
      | [] => Eval.refuse
      | part :: _ => pure (some (⟨pathOf part, none⟩ : Getter))
    else pure none
  let rest := if byPart then a.given.drop 1 else a.given
  return ⟨getter, rest.head?, { a with given := rest.drop 1 }, wanted⟩

/-- What an iterator gives once its task is begun. -/
def begin (m : Machine) (task : Task) : Eval Iterator := do
  match task with
  | .change source a =>
    if !(← m.holds source) then return .values []
    let change ← changeOf a
    return .changed (← iterator source) change
  | .choose source a byPart wanted =>
    if !(← m.holds source) then return .values []
    let choice ← choiceOf a byPart wanted
    return .chosen (← iterator source) choice
  | .batch source size filler => return .values (← m.batches size filler [] (← m.items source))
  | .slice source count filler =>
    let vs ← m.items source
    match ← m.binary .floorDiv (.whole vs.length) count with
    | .whole _ =>
      let rows := slices filler vs (count.int?.getD 0).toNat
      return .values (← rows.mapM Eval.list)
    | _ =>
      let n ← asWhole count
      return .values (← (slices filler vs n.toNat).mapM Eval.list)
  | .unique source caseSensitive part =>
    let sensitive ← m.holds caseSensitive
    return .values (← m.firstOnly (pathOf part) sensitive [] (← m.items source))
  | .items source =>
    match source with
    | .missing .. => return .values []
    | .object id =>
      match ← Eval.object? id with
      | some (.mapping entries) => return .overMapping .items id 0 entries.length
      | _ => Eval.wrongType "Can only get item pairs from a mapping."
    | _ => Eval.wrongType "Can only get item pairs from a mapping."
  | .sift frame target test source => return .sifted (← iterator source) frame target test

/-! ### Filters -/

/-- An iterator that has a task to do. -/
def later (task : Task) : Eval Value := Eval.iterator "generator" (.pending task)

/-- Values joined into one text. -/
def joinedValues (m : Machine) (v separator part : Value) : Eval Value := do
  let at_ (w : Value) : Eval Value :=
    if part.isNone then return w else m.follow ⟨pathOf part, none⟩ w
  if !(← get).escapes then
    -- with a part the values are asked for before the separator
    if !part.isNone then
      let _ ← iterator v
    let d ← m.shown separator
    let vs ← m.items v
    let ts ← vs.mapM fun w => do m.shown (← at_ w)
    return .text (Text.joinWith d ts)
  else
    let vs ← (← m.items v).mapM at_
    let isMarkup (w : Value) : Bool := match w with
      | .markup _ => true
      | _ => false
    if isMarkup separator || vs.any isMarkup then
      let d ← m.escaped separator
      return .markup (Text.joinWith d (← vs.mapM m.escaped))
    else
      let ts ← vs.mapM m.shown
      return .text (Text.joinWith (← m.shown separator) ts)

/-- Values in reverse. -/
def reversedValue (m : Machine) (v : Value) : Eval Value := do
  match v with
  | .text t => return .text t.reverse
  | .markup t => return .markup t.reverse
  | v =>
    match ← reversed? v with
    | some (name, vs) => Eval.iterator name (.values vs)
    | none =>
      match ← iterator? v with
      | some id =>
        match ← Eval.tryCatching [.type] (m.drain id manyValues []) with
        | some vs => Eval.list vs.reverse
        | none => Eval.refuse
      | none => Eval.refuse

/-- The first value. -/
def firstValue (m : Machine) (v : Value) : Eval Value := do
  match ← m.next (← iterator v) with
  | some w => return w
  | none => return Eval.lacking "No first item, sequence was empty."

/-- The last value. -/
def lastValue (v : Value) : Eval Value := do
  match ← reversed? v with
  | some (_, w :: _) => return w
  | some (_, []) => return Eval.lacking "No last item, sequence was empty."
  | none => Eval.wrongType ("'" ++ (← Eval.kindName v) ++ "' object is not reversible")

/-- Any value of a row: the only one, where there is one. -/
def someValue (m : Machine) (v : Value) : Eval Value := do
  if (← m.length v) = 0 then return Eval.lacking "No random item, sequence was empty."
  else m.item v (.whole 0)

/-- The part of a value under a name, items left aside. -/
def partFilter (m : Machine) (v name : Value) : Eval Value := do
  requireKey comparisonDepth name
  match name.text? with
  | none =>
    Eval.wrongType ("attribute name must be string, not '" ++ (← Eval.kindName name) ++ "'")
  | some t =>
    match ← m.part? v t with
    | some w => return w
    | none => m.absent v name

/-- The filters of values that can be gone through. -/
def rowFilter? (m : Machine) (name : String) (v : Value) (a : Arguments) :
    Option (Eval Value) :=
  let extremeFilter (label : String) (r : Relation) : Eval Value := do
    let vs ← Signature.apply ⟨label,
      [needed "value", optionalParameter "case_sensitive" (.truth false),
        optionalParameter "attribute" .none]⟩ (some "environment") v a
    m.extremeOf r (valueAt vs 0) (valueAt vs 1) (valueAt vs 2)
  match name with
  | "length" | "count" => some do return .whole (← m.length (← takesValue "len" v a))
  | "list" => some do
    let vs ← Signature.apply ⟨"sync_do_list", [needed "value"]⟩ none v a
    Eval.list (← m.items (valueAt vs 0))
  | "join" => some do
    let vs ← Signature.apply ⟨"sync_do_join",
      [needed "value", optionalParameter "d" (.text []), optionalParameter "attribute" .none]⟩
      (some "eval_ctx") v a
    m.joinedValues (valueAt vs 0) (valueAt vs 1) (valueAt vs 2)
  | "reverse" => some do
    let vs ← Signature.apply ⟨"do_reverse", [needed "value"]⟩ none v a
    m.reversedValue (valueAt vs 0)
  | "first" => some do
    let vs ← Signature.apply ⟨"sync_do_first", [needed "seq"]⟩ (some "environment") v a
    m.firstValue (valueAt vs 0)
  | "last" => some do
    let vs ← Signature.apply ⟨"do_last", [needed "seq"]⟩ (some "environment") v a
    lastValue (valueAt vs 0)
  | "random" => some do
    let vs ← Signature.apply ⟨"do_random", [needed "seq"]⟩ (some "context") v a
    m.someValue (valueAt vs 0)
  | "min" => some (extremeFilter "do_min" .lt)
  | "max" => some (extremeFilter "do_max" .gt)
  | "sum" => some do
    let vs ← Signature.apply ⟨"sync_do_sum",
      [needed "iterable", optionalParameter "attribute" .none,
        optionalParameter "start" (.whole 0)]⟩ (some "environment") v a
    let part := valueAt vs 1
    let items ← m.items (valueAt vs 0)
    let items ← if part.isNone then pure items else items.mapM (m.follow ⟨pathOf part, none⟩)
    m.summed (valueAt vs 2) items
  | "sort" => some do
    let vs ← Signature.apply ⟨"do_sort",
      [needed "value", optionalParameter "reverse" (.truth false),
        optionalParameter "case_sensitive" (.truth false), optionalParameter "attribute" .none]⟩
      (some "environment") v a
    m.sortedValues (valueAt vs 0) (valueAt vs 1) (valueAt vs 2) (valueAt vs 3)
  | "dictsort" => some do
    let vs ← Signature.apply ⟨"do_dictsort",
      [needed "value", optionalParameter "case_sensitive" (.truth false),
        optionalParameter "by" (.ofString "key"), optionalParameter "reverse" (.truth false)]⟩
      none v a
    m.sortedEntries (valueAt vs 0) (valueAt vs 1) (valueAt vs 2) (valueAt vs 3)
  | "groupby" => some do
    let vs ← Signature.apply ⟨"sync_do_groupby",
      [needed "value", needed "attribute", optionalParameter "default" .none,
        optionalParameter "case_sensitive" (.truth false)]⟩ (some "environment") v a
    m.grouped (valueAt vs 0) (valueAt vs 1) (valueAt vs 2) (valueAt vs 3)
  | "unique" => some do
    let vs ← Signature.apply ⟨"sync_do_unique",
      [needed "value", optionalParameter "case_sensitive" (.truth false),
        optionalParameter "attribute" .none]⟩ (some "environment") v a
    later (.unique (valueAt vs 0) (valueAt vs 1) (valueAt vs 2))
  | "batch" => some do
    let vs ← Signature.apply ⟨"do_batch",
      [needed "value", needed "linecount", optionalParameter "fill_with" .none]⟩ none v a
    later (.batch (valueAt vs 0) (valueAt vs 1) (valueAt vs 2))
  | "slice" => some do
    let vs ← Signature.apply ⟨"sync_do_slice",
      [needed "value", needed "slices", optionalParameter "fill_with" .none]⟩ none v a
    later (.slice (valueAt vs 0) (valueAt vs 1) (valueAt vs 2))
  | "items" => some do
    let vs ← Signature.apply ⟨"do_items", [needed "value"]⟩ none v a
    later (.items (valueAt vs 0))
  | "map" => some (later (.change v a))
  | "select" => some (later (.choose v a false true))
  | "reject" => some (later (.choose v a false false))
  | "selectattr" => some (later (.choose v a true true))
  | "rejectattr" => some (later (.choose v a true false))
  | "attr" => some do
    let vs ← Signature.apply ⟨"do_attr", [needed "obj", needed "name"]⟩ (some "environment") v a
    m.partFilter (valueAt vs 0) (valueAt vs 1)
  | "default" | "d" => some do
    let vs ← Signature.apply ⟨"do_default",
      [needed "value", optionalParameter "default_value" (.text []),
        optionalParameter "boolean" (.truth false)]⟩ none v a
    let w := valueAt vs 0
    if w.isMissing then return valueAt vs 1
    if !(← m.holds (valueAt vs 2)) then return w
    if ← m.holds w then return w else return valueAt vs 1
  | _ => none

end LogCalls.Template.Machine
