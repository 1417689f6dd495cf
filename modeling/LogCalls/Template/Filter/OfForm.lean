/-
LogCalls/Template/Filter/OfForm.lean

The filters that write a value in a form of its own: as data for scripts, as
the attributes of a tag, as a part of an address, with its addresses as links,
and in the form in which it is written out.
-/
import LogCalls.Pattern.Reader
import LogCalls.Template.Filter.Basic

namespace LogCalls.Template

/-! ### Data -/

/-- A code unit of sixteen bits, escaped. -/
def escapedUnit (n : Nat) : Text := '\\' :: 'u' :: Text.hexPadded 4 n

/-- A character of a text in data; only the basic characters stand for
themselves. -/
def dataChar (c : Char) : Text :=
  match c with
  | '"' => ['\\', '"']
  | '\\' => ['\\', '\\']
  | '\n' => ['\\', 'n']
  | '\r' => ['\\', 'r']
  | '\t' => ['\\', 't']
  | c =>
    let n := Text.Surrogate.codeOf c
    if n = 0x08 then ['\\', 'b']
    else if n = 0x0C then ['\\', 'f']
    else if 0x20 ≤ n ∧ n < 0x7F then [c]
    else if n < 0x10000 then escapedUnit n
    else
      let k := n - 0x10000
      escapedUnit (0xD800 + k / 0x400) ++ escapedUnit (0xDC00 + k % 0x400)

/-- A text in data. -/
def dataText (t : Text) : Text := '"' :: t.flatMap dataChar ++ ['"']

/-- A double in data. -/
def dataReal (x : Binary64) : Text :=
  match x with
  | .nan => "NaN".toList
  | .infinite negative => (if negative then "-Infinity" else "Infinity").toList
  | x => Decimal.plainLayout.write x

/-- A character that means something in markup, as data writes it there. -/
def safeChar (c : Char) : Text :=
  if c = '<' ∨ c = '>' ∨ c = '&' ∨ c = '\'' then escapedUnit c.toNat else [c]

namespace Machine

/-- A key in data. -/
def dataKey (k : Value) : Eval Text := do
  match k with
  | .none => return "null".toList
  | .truth b => return (if b then "true" else "false").toList
  | .whole n => Eval.ofExcept (Number.writeWhole n)
  | .real x => return dataReal x
  | k =>
    match k.text? with
    | some t => return t
    | none =>
      Eval.wrongType ("keys must be str, int, float, bool or None, not " ++ (← Eval.kindName k))

/-- Pieces of data between brackets; with a margin each has its own line. -/
def dataBlock (opening closing : Char) (margin : Option Text) (level : Nat) (pieces : List Text) :
    Text :=
  if pieces.isEmpty then [opening, closing]
  else
    match margin with
    | none => opening :: commaSeparated pieces ++ [closing]
    | some unit =>
      let line (n : Nat) : Text := '\n' :: (List.replicate n unit).flatten
      opening :: line (level + 1) ++ Text.joinWith (',' :: line (level + 1)) pieces ++
        line level ++ [closing]

/-- A value as data, inside of the objects in `inside`. -/
def dataIn (margin : Option Text) : Nat → List Nat → Value → Eval Text
  | 0, _, _ => Eval.wrong .depth "maximum recursion depth exceeded while encoding a JSON object"
  | depth + 1, inside, v => do
    let level := inside.length
    let refuse : Eval Text := do
      Eval.wrongType ("Object of type " ++ (← Eval.kindName v) ++ " is not JSON serializable")
    let row (now : List Nat) (vs : List Value) : Eval Text := do
      return dataBlock '[' ']' margin level (← vs.mapM (dataIn margin depth now))
    match v with
    | .none => return "null".toList
    | .truth b => return (if b then "true" else "false").toList
    | .whole n => Eval.ofExcept (Number.writeWhole n)
    | .real x => return dataReal x
    | .text t | .markup t => return dataText t
    | .row vs => row (0 :: inside) vs
    | .object id =>
      if (inside.contains (id + 1)) then Eval.wrongValue "Circular reference detected"
      let now := (id + 1) :: inside
      match ← Eval.object? id with
      | some (.list vs) => row now vs
      | some (.group key values) => row now [key, values]
      | some (.mapping entries) =>
        let sorted ← sortedBy (fun p q : Value × Value => lessKeys [p.1] [q.1]) entries
        let pieces ← sorted.mapM fun p => do
          let k ← dataKey p.1
          return dataText k ++ ": ".toList ++ (← dataIn margin depth now p.2)
        return dataBlock '{' '}' margin level pieces
      | _ => refuse
    | _ => refuse

/-- A value as data that may stand in markup. -/
def asData (m : Machine) (v indent : Value) : Eval Value := do
  let margin ← match v.text?, indent with
    | some _, _ | none, .none => pure none
    | none, .text t | none, .markup t => pure (some t)
    | none, w =>
      match ← m.binary .mul (.text [' ']) w with
      | .text t => pure (some t)
      | _ => pure none
  return .markup ((← dataIn margin 150 [] v).flatMap safeChar)

/-! ### Attributes and addresses -/

/-- The attributes that a mapping gives a tag. -/
def attributesOf (m : Machine) (v autospace : Value) : Eval Value := do
  let refuse : Eval (List (Value × Value)) := do
    Eval.wrong .attribute ("'" ++ (← Eval.kindName v) ++ "' object has no attribute 'items'")
  let entries ← match v with
    | .missing _ complaint => Eval.needs complaint
    | .object id =>
      match ← Eval.object? id with
      | some (.mapping entries) => pure entries
      | _ => refuse
    | _ => refuse
  let isForbidden (c : Char) : Bool :=
    (0x09 ≤ c.toNat && c.toNat ≤ 0x0D) || c == ' ' || c == '/' || c == '>' || c == '='
  let pieces ← entries.filterMapM fun p => do
    if p.2.isNone || p.2.isMissing then return none
    match p.1.text? with
    | none =>
      Eval.wrongType ("expected string or bytes-like object, got '" ++ (← Eval.kindName p.1) ++ "'")
    | some key =>
      if key.any isForbidden then
        Eval.wrongValue ("Invalid character in attribute name: " ++
          Text.quoted (String.ofList key))
      return some ((← m.escaped p.1) ++ '=' :: '"' :: (← m.escaped p.2) ++ ['"'])
  let body := Text.joinWith [' '] pieces
  let body := if (← m.holds autospace) && !body.isEmpty then ' ' :: body else body
  return if (← get).escapes then .markup body else .text body

/-- A byte in an address. -/
def addressByte (isSafe : Char → Bool) (b : Nat) : Text :=
  let c := Char.ofNat b
  if b < 128 && (c.isAlphanum || c == '_' || c == '.' || c == '-' || c == '~' || isSafe c) then [c]
  else '%' :: (Text.hexPadded 2 b).map Char.toUpper

/-- A value in an address, or in the query of one. -/
def addressPart (m : Machine) (inQuery : Bool) (v : Value) : Eval Text := do
  let bytes ← match v with
    | .bytes bs => pure bs
    | v => do utf8Bytes "strict".toList (← m.shown v)
  let isSafe (c : Char) : Bool := if inQuery then c == ' ' else c == '/'
  let written := bytes.flatMap (addressByte isSafe)
  return if inQuery then written.map fun c => if c = ' ' then '+' else c else written

/-- A value as a part of an address; several values make a query. -/
def asAddress (m : Machine) (v : Value) : Eval Value := do
  match v with
  | .text _ | .markup _ => return .text (← m.addressPart false v)
  | v =>
    match ← iterator? v with
    | none => return .text (← m.addressPart false v)
    | some id =>
      let pairs : List Value ← match v with
        | .object d => do
          match ← Eval.object? d with
          | some (.mapping entries) => pure (entries.map fun p => Value.row [p.1, p.2])
          | _ => m.drain id manyValues []
        | _ => m.drain id manyValues []
      let pieces ← pairs.mapM fun p => do
        match ← iterator? p with
        | none =>
          Eval.wrongType ("cannot unpack non-iterable " ++ (← Eval.kindName p) ++ " object")
        | some q =>
          match ← m.drain q manyValues [] with
          | [k, w] => return (← m.addressPart true k) ++ '=' :: (← m.addressPart true w)
          | [] | [_] => do
            let n := (← m.length? p).getD 0
            Eval.wrongValue ("not enough values to unpack (expected 2, got " ++ toString n ++ ")")
          | _ => Eval.wrongValue "too many values to unpack (expected 2)"
      return .text (Text.joinWith ['&'] pieces)

/-! ### Links -/

/-- The pattern of an address. -/
def addressPattern : String :=
  "(?i)^((https?://|www\\.)(([\\w%-]+\\.)+)?([a-z]\x7b2,63\x7d|xn--[\\w%]\x7b2,59\x7d)|" ++
  "([\\w%-]\x7b2,63\x7d\\.)+(com|net|int|edu|gov|org|info|mil)|" ++
  "(https?://)((([\\d]\x7b1,3\x7d)(\\.[\\d]\x7b1,3\x7d)\x7b3\x7d)|" ++
  "(\\[([\\da-f]\x7b0,4\x7d:)\x7b2\x7d([\\da-f]\x7b0,4\x7d:?)\x7b1,6\x7d\\])))" ++
  "(?::[\\d]\x7b1,5\x7d)?(?:[/?#]\\S*)?$"

/-- The pattern of a mailbox. -/
def mailPattern : String := "^\\S+@\\w[\\w.-]*\\.\\w+$"

/-- Whether a pattern occurs in a text. -/
def meets (pattern : String) (t : Text) : Bool :=
  match Pattern.read pattern.toList with
  | .ok p => p.occursIn t
  | .error _ => false

/-- Marks at the start of a word that are no part of an address. -/
def openingMarks : Nat → Text → Text × Text
  | 0, t => ([], t)
  | most + 1, t =>
    match t with
    | '(' :: r => let (a, b) := openingMarks most r; ('(' :: a, b)
    | '<' :: r => let (a, b) := openingMarks most r; ('<' :: a, b)
    | '&' :: 'l' :: 't' :: ';' :: r =>
      let (a, b) := openingMarks most r
      ("&lt;".toList ++ a, b)
    | t => ([], t)

/-- Marks at the end of a reversed word that are no part of an address. -/
def closingMarks : Nat → Text → Text × Text
  | 0, t => ([], t)
  | most + 1, t =>
    match t with
    | ';' :: 't' :: 'g' :: '&' :: r =>
      let (a, b) := closingMarks most r
      (";tg&".toList ++ a, b)
    | c :: r =>
      if c = ')' ∨ c = '>' ∨ c = '.' ∨ c = ',' ∨ c = '\n' then
        let (a, b) := closingMarks most r
        (c :: a, b)
      else ([], t)
    | [] => ([], [])

/-- Moves closing marks back into a word as long as it has an opening one. -/
def balanced (opening closing : Text) : Nat → Text → Text → Text × Text
  | 0, middle, tail => (middle, tail)
  | most + 1, middle, tail =>
    match Text.breakAt? closing tail with
    | some (before, rest) => balanced opening closing most (middle ++ before ++ closing) rest
    | none => (middle, tail)

/-- How links are written. -/
structure LinkStyle where
  limit : Option Int
  /-- What stands in the tag of a link behind its address. -/
  extra : Text

/-- A word with the address in it as a link. -/
def linked (style : LinkStyle) (word : Text) : Text :=
  let (head, rest) := openingMarks word.length word
  let (tail, middle) := closingMarks rest.length rest.reverse
  let marks : List (String × String) := [("(", ")"), ("<", ">"), ("&lt;", "&gt;")]
  let (middle, tail) := marks.foldl (fun p q =>
    let count := Text.occurrences q.1.toList p.1
    if count ≤ Text.occurrences q.2.toList p.1 then p
    else balanced q.1.toList q.2.toList (min count (Text.occurrences q.2.toList p.2)) p.1 p.2)
    (middle.reverse, tail.reverse)
  let trimmed := match style.limit with
    | some n =>
      if n < middle.length then
        (if 0 ≤ n then middle.take n.toNat else middle.take (n + middle.length).toNat) ++
          "...".toList
      else middle
    | none => middle
  let link (address shown extra : Text) : Text :=
    "<a href=\"".toList ++ address ++ ['"'] ++ extra ++ ['>'] ++ shown ++ "</a>".toList
  let starts (s : String) : Bool := s.toList.isPrefixOf middle
  let middle :=
    if meets addressPattern middle then
      if starts "https://" || starts "http://" then link middle trimmed style.extra
      else link ("https://".toList ++ middle) trimmed style.extra
    else if starts "mailto:" && meets mailPattern (middle.drop 7) then
      link middle (middle.drop 7) []
    else if middle.contains '@' && !starts "www." && !middle.contains ':' &&
        meets mailPattern middle then
      link ("mailto:".toList ++ middle) middle []
    else middle
  head ++ middle ++ tail

/-- The words of a text and the blanks between them, in order. -/
def wordsAndBlanks : Nat → Text → List Text
  | 0, _ => []
  | _, [] => []
  | most + 1, c :: r =>
    let same : Char → Bool := fun d => Text.isBlank d == Text.isBlank c
    (c :: r.takeWhile same) :: wordsAndBlanks most (r.dropWhile same)

/-- A text with its addresses as links. -/
def withLinks (m : Machine) (v limit nofollow target rel : Value) : Eval Value := do
  let t ← m.escaped v
  let words (w : Value) : Eval (List Text) := do
    if ← m.holds w then
      let u ← m.shown w
      return Text.wordsUpTo u.length u
    else return []
  let kinds := (← words rel) ++ (if ← m.holds nofollow then ["nofollow".toList] else []) ++
    ["noopener".toList]
  let kinds ← sortedBy (fun a b : Text => return textOrder a b == .lt) kinds.eraseDups
  let relation := Text.joinWith [' '] kinds
  let targetText ← if ← m.holds target then do
      pure (" target=\"".toList ++ (← m.escaped target) ++ ['"'])
    else pure []
  let extra := " rel=\"".toList ++ relation.flatMap escapeChar ++ ['"'] ++ targetText
  let most : Option Int ← match limit with
    | .none => pure none
    | w => do pure (some (← asWhole w))
  let style : LinkStyle := ⟨most, extra⟩
  let text := ((wordsAndBlanks t.length t).map (linked style)).flatten
  return if (← get).escapes then .markup text else .text text

/-! ### Written out -/

/-- A value with the entries of its mappings in order, down to a depth. -/
def inOrder : Nat → Value → Eval Value
  | 0, v => return v
  | depth + 1, v => do
    match v with
    | .row vs => return .row (← vs.mapM (inOrder depth))
    | .object id =>
      match ← Eval.object? id with
      | some (.list vs) => Eval.list (← vs.mapM (inOrder depth))
      | some (.mapping entries) =>
        let entries ← entries.mapM fun p => do return (p.1, ← inOrder depth p.2)
        match ← Eval.tryCatching [.type] (sortedBy (fun p q : Value × Value =>
            holdsOrder .lt p.1 q.1) entries) with
        | some sorted => Eval.mapping sorted
        | none => Eval.mapping entries
      | _ => return v
    | v => return v

/-- The filters that write a value in a form of its own. -/
def formFilter? (m : Machine) (name : String) (v : Value) (a : Arguments) :
    Option (Eval Value) :=
  match name with
  | "tojson" => some do
    let vs ← Signature.apply ⟨"do_tojson", [needed "value", optionalParameter "indent" .none]⟩
      (some "eval_ctx") v a
    m.asData (valueAt vs 0) (valueAt vs 1)
  | "xmlattr" => some do
    let vs ← Signature.apply ⟨"do_xmlattr",
      [needed "d", optionalParameter "autospace" (.truth true)]⟩ (some "eval_ctx") v a
    m.attributesOf (valueAt vs 0) (valueAt vs 1)
  | "urlencode" => some do
    let vs ← Signature.apply ⟨"do_urlencode", [needed "value"]⟩ none v a
    m.asAddress (valueAt vs 0)
  | "urlize" => some do
    let vs ← Signature.apply ⟨"do_urlize",
      [needed "value", optionalParameter "trim_url_limit" .none,
        optionalParameter "nofollow" (.truth false), optionalParameter "target" .none,
        optionalParameter "rel" .none, optionalParameter "extra_schemes" .none]⟩
      (some "eval_ctx") v a
    m.withLinks (valueAt vs 0) (valueAt vs 1) (valueAt vs 2) (valueAt vs 3) (valueAt vs 4)
  | "pprint" => some do
    let vs ← Signature.apply ⟨"do_pprint", [needed "value"]⟩ none v a
    return .text (← m.written (← inOrder 100 (valueAt vs 0)))
  | _ => none

end Machine

end LogCalls.Template
