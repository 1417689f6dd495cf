/-
LogCalls/Template/TextMethods.lean

What can be asked of a text by name: its letters changed, its parts searched,
cut off, replaced and joined, its width filled.  What a text is given is
checked before it is used, each in its own words.
-/
import LogCalls.Template.Format
import LogCalls.Template.Parameters
import LogCalls.Text.Case
import LogCalls.Text.Identifier
import LogCalls.Text.Pad
import LogCalls.Text.Search

namespace LogCalls.Template

/-! ### Arguments -/

/-- The name of the kind of a value in a complaint about an argument. -/
def argumentKind (v : Value) : Eval String := do
  match v with
  | .none => return "None"
  | v => Eval.kindName v

/-- The text of an argument that has to be one. -/
def textArgument (v : Value) : Eval Text := do
  match v.text? with
  | some t => return t
  | none => Eval.wrongType ("must be str, not " ++ (← Eval.kindName v))

/-- The text of an argument that has a name in complaints. -/
def textArgumentOf (what : String) (v : Value) : Eval Text := do
  match v.text? with
  | some t => return t
  | none => Eval.wrongType (what ++ " must be str, not " ++ (← argumentKind v))

/-- An argument that counts something. -/
def sizeArgument (v : Value) : Eval Int := do
  let n ← asWhole v
  if greatestSize < n.natAbs then
    Eval.wrong .overflow "Python int too large to convert to C ssize_t"
  return n

/-- A width, which must not be too large to be filled. -/
def widthArgument (v : Value) : Eval Nat := do
  let n ← sizeArgument v
  if widest < n.toNat then Eval.wrong .memory ""
  return n.toNat

/-- A limit that is none where it is negative. -/
def limitArgument (length : Nat) : Option Value → Eval Nat
  | none => return length + 1
  | some v => do
    let n ← sizeArgument v
    return if n < 0 then length + 1 else min n.toNat (length + 1)

/-- A text within two bounds, with its place; none where they cross. -/
def window? (t : Text) (bounds : List Value) : Eval (Option (Nat × Text)) := do
  let bound : Option Value → Eval (Option Int)
    | some v => cutBound v
    | none => return none
  let start ← bound bounds[0]?
  let stop ← bound bounds[1]?
  let n : Int := t.length
  let clamp (i : Int) : Int := if i < 0 then max 0 (i + n) else i
  let first := clamp (start.getD 0)
  let last := min n (clamp (stop.getD n))
  if last < first then return none
  else return some (first.toNat, (t.take last.toNat).drop first.toNat)

/-- The character that fills a width. -/
def fillArgument : Option Value → Eval Char
  | none => return ' '
  | some v => do
    match v.text? with
    | some [c] => return c
    | some _ => Eval.wrongType "The fill character must be exactly one character long"
    | none =>
      Eval.wrongType ("The fill character must be a unicode character, not " ++
        (← Eval.kindName v))

/-- The characters that are stripped off; none for blanks. -/
def stripArgument (name : String) : Option Value → Eval (Option Text)
  | none | some .none => return none
  | some v => do
    match v.text? with
    | some t => return some t
    | none => Eval.wrongType (name ++ " arg must be None or str")

/-- A separator that is not empty; none for blanks. -/
def separatorArgument : Option Value → Eval (Option Text)
  | none | some .none => return none
  | some v => do
    match v.text? with
    | some [] => Eval.wrongValue "empty separator"
    | some t => return some t
    | none => Eval.wrongType ("must be str or None, not " ++ (← Eval.kindName v))

/-! ### Bytes -/

/-- The first characters of a text from a place on that a code has no bytes for. -/
def unwritten (limit : Nat) (position : Nat) : Text → Option (Nat × Text)
  | [] => none
  | c :: r =>
    if limit ≤ c.toNat then
      some (position, c :: r.takeWhile fun d => decide (limit ≤ d.toNat))
    else unwritten limit (position + 1) r

/-- The complaint about characters that a code has no bytes for. -/
def unwrittenWording (code : String) (limit position : Nat) (t : Text) : String :=
  let what := match t with
    | [c] =>
      " character '" ++ String.ofList (Text.numberForm c) ++ "' in position " ++ toString position
    | t =>
      " characters in position " ++ toString position ++ "-" ++
        toString (position + t.length - 1)
  "'" ++ code ++ "' codec can't encode" ++ what ++ ": ordinal not in range(" ++
    toString limit ++ ")"

/-- The bytes of a text, of which those that `lacks` tells have none: an error
handler says what becomes of them, or that they are complained of. -/
def bytesBut (lacks : Char → Bool) (bytes : Char → List Nat) (complaint : String)
    (errors t : Text) : Eval (List Nat) := do
  let instead (f : Char → Text) : Eval (List Nat) :=
    return t.flatMap fun c => if lacks c then (f c).flatMap bytes else bytes c
  if !t.any lacks then return t.flatMap bytes
  match String.ofList errors with
  | "strict" => Eval.wrong .encoding complaint
  | "ignore" => instead fun _ => []
  | "replace" => instead fun _ => ['?']
  | "xmlcharrefreplace" =>
    instead fun c => ("&#" ++ toString (Text.Surrogate.codeOf c) ++ ";").toList
  | "backslashreplace" => instead fun c => asciiOnly [c]
  | other => Eval.wrong .lookup ("unknown error handler name " ++ Text.quoted other)

/-- A text in a code of one byte for each character below a limit. -/
def narrowBytes (code : String) (limit : Nat) (errors t : Text) : Eval (List Nat) :=
  let complaint := match unwritten limit 0 t with
    | some (position, wrong) => unwrittenWording code limit position wrong
    | none => ""
  bytesBut (fun c => limit ≤ c.toNat) (fun c => [c.toNat]) complaint errors t

/-- A text in UTF-8, which has no bytes for surrogates. -/
def utf8Bytes (errors t : Text) : Eval (List Nat) :=
  let complaint := match Text.Utf8.unencodable? Text.Surrogate.isStandIn t with
    | some u => u.message
    | none => ""
  bytesBut Text.Surrogate.isStandIn (fun c => (Text.Utf8.encode [c]).map UInt8.toNat) complaint
    errors t

/-- The name of a code without marks between its words. -/
def codeName (t : Text) : String :=
  String.ofList ((Text.small t).map fun c => if c = '-' ∨ c = ' ' then '_' else c)

/-- A text in a code of the given name. -/
def encoded (t code errors : Text) : Eval (List Nat) := do
  match codeName code with
  | "utf_8" | "utf8" | "u8" => utf8Bytes errors t
  | "ascii" | "us_ascii" | "646" => narrowBytes "ascii" 128 errors t
  | "latin_1" | "latin1" | "iso_8859_1" | "iso8859_1" | "l1" =>
    narrowBytes "latin-1" 256 errors t
  | _ => Eval.wrong .lookup ("unknown encoding: " ++ String.ofList code)

/-! ### Methods -/

namespace Machine

/-- A text in place of each character that a table names by number. -/
def translated (m : Machine) (table : Value) : Text → Eval Text
  | [] => return []
  | c :: r => do
    let code : Value := .whole (Text.Surrogate.codeOf c)
    let new ← match ← Eval.tryCatching [.key, .index] (m.item table code) with
      | none => pure [c]
      | some .none => pure []
      | some v =>
        match v.int?, v.text? with
        | some n, _ =>
          if n < 0 ∨ 0x110000 ≤ n then
            Eval.wrongValue "character mapping must be in range(0x110000)"
          charOf n
        | _, some t => pure t
        | none, none => Eval.wrongType "character mapping must return integer, None or str"
    return new ++ (← m.translated table r)

/-- A table for replacing characters. -/
def translationTable (a : Arguments) : Eval Value := do
  match ← takesBetween "str" "maketrans" 1 3 a with
  | [v] =>
    let refuse {α : Type} : Eval α :=
      Eval.wrongType "if you give only one argument to maketrans it must be a dict"
    match v with
    | .object id =>
      match ← Eval.object? id with
      | some (.mapping entries) =>
        let entries ← entries.mapM fun p => do
          match p.1, p.1.int? with
          | .text [c], _ => return (Value.whole (Text.Surrogate.codeOf c), p.2)
          | .text _, _ => Eval.wrongValue "string keys in translate table must be of length 1"
          | k, some _ => return (k, p.2)
          | _, none => Eval.wrongType "keys in translate table must be strings or integers"
        Eval.mapping (entries.foldl (fun es p => putEntry es p.1 p.2) [])
      | _ => refuse
    | _ => refuse
  | first :: rest =>
    match first.text? with
    | none =>
      Eval.wrongType "first maketrans argument must be a string if there is a second argument"
    | some old =>
      let new ← textArgumentOf "maketrans() argument 2" (rest[0]?.getD .none)
      let gone ← match rest[1]? with
        | some v => textArgumentOf "maketrans() argument 3" v
        | none => pure []
      if old.length ≠ new.length then
        Eval.wrongValue "the first two maketrans arguments must have equal length"
      let number (c : Char) : Value := .whole (Text.Surrogate.codeOf c)
      let pairs := (old.zip new).map fun p => (number p.1, number p.2)
      let removed := gone.map fun c => (number c, Value.none)
      Eval.mapping ((pairs ++ removed).foldl (fun es p => putEntry es p.1 p.2) [])
  | [] => return .none

/-- The texts of some values, which all have to be texts. -/
def textsToJoin : Nat → List Value → Eval (List Text)
  | _, [] => return []
  | i, v :: rest => do
    match v.text? with
    | some t => return t :: (← textsToJoin (i + 1) rest)
    | none =>
      Eval.wrongType ("sequence item " ++ toString i ++ ": expected str instance, " ++
        (← Eval.kindName v) ++ " found")

/-- The values that a text is to stand between. -/
def itemsToJoin (m : Machine) (v : Value) : Eval (List Value) := do
  match v with
  | .row vs => return vs
  | v =>
    match ← iterator? v with
    | some id => m.drain id manyValues []
    | none => Eval.wrongType "can only join an iterable"

/-- Whether a text starts or ends with one of the given ones. -/
def touches (name : String) (test : Text → Text → Bool) (t : Text) (a : Arguments) :
    Eval Value := do
  let (v, bounds) ← takesUpToThree name a
  let part ← window? t bounds
  let holdsFor (u : Text) : Bool :=
    match part with
    | some (_, w) => test u w
    | none => false
  match v with
  | .row vs =>
    return .truth (← vs.foldlM (fun found w => do
      if found then return true
      match w.text? with
      | some u => return holdsFor u
      | none =>
        Eval.wrongType ("tuple for " ++ name ++ " must only contain str, not " ++
          (← Eval.kindName w))) false)
  | v =>
    match v.text? with
    | some u => return .truth (holdsFor u)
    | none =>
      Eval.wrongType (name ++ " first arg must be str or a tuple of str, not " ++
        (← Eval.kindName v))

/-- The place of a text in another one. -/
def placeIn (name : String) (search : Text → Text → Option Nat) (required : Bool) (t : Text)
    (a : Arguments) : Eval Value := do
  let (v, bounds) ← takesUpToThree name a
  let part ← window? t bounds
  let u ← textArgument v
  match part.bind fun p => (search u p.2).map (· + p.1) with
  | some i => return .whole i
  | none => if required then Eval.wrongValue "substring not found" else return .whole (-1)

/-- A text without some characters at its start. -/
def stripStart (set : Option Text) (t : Text) : Text :=
  match set with
  | none => Text.trimStart t
  | some cs => t.dropWhile cs.contains

/-- A text without some characters at its end. -/
def stripEnd (set : Option Text) (t : Text) : Text := (stripStart set t.reverse).reverse

/-- The pieces of a text between separators. -/
def pieces (fromEnd : Bool) (name : String) (t : Text) (a : Arguments) : Eval (List Text) := do
  let got ← takesNamed name ["sep", "maxsplit"] a
  let most ← limitArgument t.length ((got[1]?).join)
  match ← separatorArgument ((got[0]?).join) with
  | some part =>
    return if fromEnd then Text.piecesFromEnd part most t else Text.piecesUpTo part most t
  | none => return if fromEnd then Text.wordsFromEnd most t else Text.wordsUpTo most t

/-- A text brought to a width. -/
def filledTo (name : String) (fill : Char → Nat → Text → Text) (t : Text) (a : Arguments) :
    Eval Value := do
  let vs ← takesBetween "str" name 1 2 a
  let width ← widthArgument (vs[0]?.getD .none)
  return .text (fill (← fillArgument vs[1]?) width t)

/-- The three parts of a text around a separator. -/
def parted (name : String) (last : Bool) (t : Text) (a : Arguments) :
    Eval (Text × Text × Text) := do
  let part ← textArgument (← takesOne ("str." ++ name) a)
  if part.isEmpty then Eval.wrongValue "empty separator"
  match if last then Text.breakAtLast? part t else Text.breakAt? part t with
  | some (before, behind) => return (before, part, behind)
  | none => return if last then ([], [], t) else (t, [], [])

/-- What a test on all characters of a text says; it fails for no characters. -/
def allOf (test : Char → Bool) (t : Text) : Bool := !t.isEmpty && t.all test

/-- The questions about a text that take nothing. -/
def textQuestion? (name : String) (t : Text) : Option Value :=
  match name with
  | "capitalize" => some (.text (Text.capitalized t))
  | "casefold" => some (.text (Text.folded t))
  | "lower" => some (.text (Text.small t))
  | "upper" => some (.text (Text.capitals t))
  | "swapcase" => some (.text (Text.swapped t))
  | "title" => some (.text (Text.titled t))
  | "isalnum" => some (.truth (allOf Text.isAlphanumeric t))
  | "isalpha" => some (.truth (allOf Text.isLetter t))
  | "isascii" => some (.truth (t.all fun c => c.toNat < 128))
  | "isdecimal" => some (.truth (allOf Text.isDigit t))
  | "isdigit" => some (.truth (allOf Text.isAnyDigit t))
  | "isidentifier" => some (.truth (Text.isName t))
  | "islower" => some (.truth (Text.isAllSmall t))
  | "isnumeric" => some (.truth (allOf Text.isNumeric t))
  | "isprintable" => some (.truth (t.all Text.isPrintable))
  | "isspace" => some (.truth (allOf Text.isBlank t))
  | "istitle" => some (.truth (Text.isTitled t))
  | "isupper" => some (.truth (Text.isAllCapitals t))
  | _ => none

/-- What a text answers to a call by name. -/
def textMethod (m : Machine) (t : Text) (name : String) (a : Arguments) : Eval Value := do
  match textQuestion? name t with
  | some v =>
    takesNothing ("str." ++ name) a
    return v
  | none =>
    match name with
    | "center" => filledTo name Text.centered t a
    | "ljust" => filledTo name Text.padEnd t a
    | "rjust" => filledTo name Text.padStart t a
    | "zfill" => return .text (Text.zeroFilled (← widthArgument (← takesOne "str.zfill" a)) t)
    | "count" =>
      let (v, bounds) ← takesUpToThree name a
      let part ← window? t bounds
      let u ← textArgument v
      return .whole ((part.map fun p => Text.occurrences u p.2).getD 0)
    | "find" => placeIn name Text.find? false t a
    | "rfind" => placeIn name Text.findLast? false t a
    | "index" => placeIn name Text.find? true t a
    | "rindex" => placeIn name Text.findLast? true t a
    | "startswith" => touches name (fun u w => u.isPrefixOf w) t a
    | "endswith" => touches name (fun u w => u.reverse.isPrefixOf w.reverse) t a
    | "encode" =>
      let got ← takesNamed name ["encoding", "errors"] a
      let text (what : String) (usual : String) : Option (Option Value) → Eval Text
        | some (some v) => textArgumentOf ("encode() argument '" ++ what ++ "'") v
        | _ => return usual.toList
      let code ← text "encoding" "utf-8" got[0]?
      let errors ← text "errors" "strict" got[1]?
      return .bytes (← encoded t code errors)
    | "expandtabs" =>
      let got ← takesNamed name ["tabsize"] a
      let size ← match (got[0]?).join with
        | some v => do pure (← signArgument v).toNat
        | none => pure 8
      return .text (Text.withoutTabs size 0 t)
    | "format" => return .text (← braces m t a)
    | "format_map" =>
      let v ← takesOne "str.format_map" a
      return .text (← bracesOf m t v)
    | "join" =>
      let v ← takesOne "str.join" a
      return .text (Text.joinWith t (← textsToJoin 0 (← m.itemsToJoin v)))
    | "strip" =>
      let set ← stripArgument name (← takesBetween "str" name 0 1 a)[0]?
      return .text (stripEnd set (stripStart set t))
    | "lstrip" =>
      return .text (stripStart (← stripArgument name (← takesBetween "str" name 0 1 a)[0]?) t)
    | "rstrip" =>
      return .text (stripEnd (← stripArgument name (← takesBetween "str" name 0 1 a)[0]?) t)
    | "partition" | "rpartition" =>
      let (x, y, z) ← parted name (name == "rpartition") t a
      return .row [.text x, .text y, .text z]
    | "removeprefix" =>
      let u ← textArgumentOf "removeprefix() argument" (← takesOne "str.removeprefix" a)
      return .text (if u.isPrefixOf t then t.drop u.length else t)
    | "removesuffix" =>
      let u ← textArgumentOf "removesuffix() argument" (← takesOne "str.removesuffix" a)
      return .text (if u.reverse.isPrefixOf t.reverse then t.take (t.length - u.length) else t)
    | "replace" =>
      let vs ← takesBetween "str" name 2 3 a
      let old ← textArgumentOf "replace() argument 1" (vs[0]?.getD .none)
      let new ← textArgumentOf "replace() argument 2" (vs[1]?.getD .none)
      return .text (Text.replaced old new (← limitArgument t.length vs[2]?) t)
    | "split" => Eval.list ((← pieces false name t a).map Value.text)
    | "rsplit" => Eval.list ((← pieces true name t a).map Value.text)
    | "splitlines" =>
      let got ← takesNamed name ["keepends"] a
      let keep ← match (got[0]?).join with
        | some v => do pure ((← signArgument v) != 0)
        | none => pure false
      Eval.list ((Text.anyLines keep t).map Value.text)
    | "translate" =>
      let table ← takesOne "str.translate" a
      return .text (← m.translated table t)
    | _ => translationTable a

end Machine

end LogCalls.Template
