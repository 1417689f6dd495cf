/-
LogCalls/Template/Format.lean

Texts with places for values, in two notations.  In the first a percent sign
opens a place, in the second a pair of braces holds the name of the value, how
it is shown, and a specification of width, alignment, sign, grouping and
digits.
-/
import LogCalls.Decimal.Arithmetic
import LogCalls.Decimal.Fixed
import LogCalls.Template.Lookup

namespace LogCalls.Template

/-- The widest place that is filled. -/
def widest : Nat := 50000000

/-- The greatest width or precision that can be written. -/
def greatestSize : Nat := 9223372036854775807

/-- The numeral of a number in a base up to sixteen. -/
def numeralIn (base n : Nat) : Text := Nat.toDigits base n

/-- A number as a double, unless it is too large for one. -/
def asDouble (v : Value) : Eval (Option Binary64) := do
  match v with
  | .real x => return some x
  | v =>
    match v.int? with
    | some n =>
      match Binary64.ofInt n with
      | .infinite _ => Eval.wrong .overflow "int too large to convert to float"
      | x => return some x
    | none => return none

/-- The integer part of a double. -/
def wholePart (x : Binary64) : Eval Int := do
  match x with
  | .nan => Eval.wrongValue "cannot convert float NaN to integer"
  | .infinite _ => Eval.wrong .overflow "cannot convert float infinity to integer"
  | x => return x.truncated?.getD 0

/-- The text of a double without its sign, with the given number of digits, in
the form that a letter names: `f`, `e` or `g`. -/
def digitsOf (form : Char) (keep fraction : Bool) (precision : Nat) (x : Binary64) : Text :=
  let capital := form.isUpper
  match x with
  | .nan => (if capital then "NAN" else "nan").toList
  | .infinite _ => (if capital then "INF" else "inf").toList
  | .finite _ m e =>
    let q := Binary64.quotient m e
    let mark := if capital then 'E' else 'e'
    match form.toLower with
    | 'f' => Decimal.fixedPlaces keep precision q.1 q.2
    | 'e' => Decimal.exponentPlaces mark keep precision q.1 q.2
    | _ => Decimal.generalPlaces mark keep fraction precision q.1 q.2

/-- The sign in front of a number, by its sign and the wanted marking. -/
def signText (marking : Option Char) (negative : Bool) : Text :=
  if negative then ['-']
  else
    match marking with
    | some '+' => ['+']
    | some ' ' => [' ']
    | _ => []

/-- A text with every character outside of the basic alphabet as an escape. -/
def asciiOnly (t : Text) : Text :=
  t.flatMap fun c => if c.toNat < 0x80 then [c] else Text.numberForm c

/-! ### Percent signs -/

/-- A place behind a percent sign. -/
structure Place where
  key : Option Text
  left : Bool
  sign : Option Char
  alternate : Bool
  zero : Bool
  width : Nat
  precision : Option Nat
  form : Char

/-- What is left to fill into places. -/
structure Supply where
  /-- The values that have not been used. -/
  rest : List Value
  /-- The value as a whole, where it is no row. -/
  single : Option Value
  isMapping : Bool

/-- The next value of a supply. -/
def Supply.take (s : Supply) : Eval (Value × Supply) := do
  match s.rest with
  | v :: r => return (v, { s with rest := r })
  | [] => Eval.wrongType "not enough arguments for format string"

/-- The text up to the parenthesis that closes the first one, and what follows. -/
def keyText? : Nat → Text → Option (Text × Text)
  | _, [] => none
  | depth, c :: r =>
    if c = ')' then
      if depth = 0 then some ([], r) else (keyText? (depth - 1) r).map fun p => (c :: p.1, p.2)
    else if c = '(' then (keyText? (depth + 1) r).map fun p => (c :: p.1, p.2)
    else (keyText? depth r).map fun p => (c :: p.1, p.2)

/-- Fills a text out to a width. -/
def padded (left : Bool) (width : Nat) (t : Text) : Text :=
  let fill := List.replicate (width - t.length) ' '
  if left then t ++ fill else fill ++ t

/-- A number in a place: the zeros stand between sign and digits. -/
def placed (p : Place) (sign digits : Text) : Text :=
  if p.zero && !p.left then
    sign ++ List.replicate (p.width - sign.length - digits.length) '0' ++ digits
  else padded p.left p.width (sign ++ digits)

/-- An integer in a place. -/
def placedWhole (p : Place) (base : Nat) (n : Int) : Eval Text := do
  let plain ← if base = 10 then (do
      let t ← Eval.ofExcept (Number.writeWhole n)
      return if n < 0 then t.drop 1 else t)
    else pure (numeralIn base n.natAbs)
  let digits := if p.form = 'X' then plain.map Char.toUpper else plain
  let digits := List.replicate (p.precision.getD 0 - digits.length) '0' ++ digits
  let mark : Text :=
    if !p.alternate then []
    else if p.form = 'x' then ['0', 'x']
    else if p.form = 'X' then ['0', 'X']
    else if p.form = 'o' then ['0', 'o']
    else []
  return placed p (signText p.sign (n < 0) ++ mark) digits

/-- The character of a number. -/
def charOf (n : Int) : Eval Text := do
  if n < 0 ∨ 0x110000 ≤ n then Eval.wrong .overflow "%c arg not in range(0x110000)"
  else return [Text.Surrogate.charOf n.toNat]

/-- A value in a place at the given index of the text. -/
def fillPlace (m : Machine) (p : Place) (index : Nat) (v : Value) : Eval Text := do
  let cut (t : Text) : Text := match p.precision with
    | some n => t.take n
    | none => t
  let whole (base : Nat) : Eval Text := do
    match v with
    | .missing _ complaint => Eval.needs complaint
    | v =>
      match v.int? with
      | some n => placedWhole p base n
      | none =>
        Eval.wrongType ("%" ++ String.singleton p.form ++ " format: an integer is required, not " ++
          (← Eval.kindName v))
  match p.form with
  | 's' => return padded p.left p.width (cut (← m.shown v))
  | 'r' => return padded p.left p.width (cut (← m.written v))
  | 'a' => return padded p.left p.width (cut (asciiOnly (← m.written v)))
  | 'd' | 'i' | 'u' =>
    match v with
    | .real x => placedWhole p 10 (← wholePart x)
    | .missing _ complaint => Eval.needs complaint
    | v =>
      match v.int? with
      | some n => placedWhole p 10 n
      | none =>
        Eval.wrongType ("%" ++ String.singleton p.form ++
          " format: a real number is required, not " ++ (← Eval.kindName v))
  | 'o' => whole 8
  | 'x' | 'X' => whole 16
  | 'e' | 'E' | 'f' | 'F' | 'g' | 'G' =>
    match v with
    | .missing _ complaint => Eval.needs complaint
    | v =>
      match ← asDouble v with
      | some x =>
        return placed p (signText p.sign x.isNegative)
          (digitsOf p.form p.alternate false (p.precision.getD 6) x)
      | none => Eval.wrongType ("must be real number, not " ++ (← Eval.kindName v))
  | 'c' =>
    match v, v.int? with
    | _, some n => return padded p.left p.width (← charOf n)
    | .text [c], _ | .markup [c], _ => return padded p.left p.width [c]
    | .missing _ complaint, _ => Eval.needs complaint
    | _, _ => Eval.wrongType "%c requires int or char"
  | c =>
    let shown := if 32 ≤ c.toNat ∧ c.toNat < 128 then c else '?'
    Eval.wrongValue ("unsupported format character '" ++ String.singleton shown ++ "' (0x" ++
      String.ofList (numeralIn 16 c.toNat) ++ ") at index " ++ toString index)

/-- Flags at the start of a place. -/
def placeFlags (p : Place) : Text → Place × Text
  | '-' :: r => placeFlags { p with left := true } r
  | '+' :: r => placeFlags { p with sign := some '+' } r
  | ' ' :: r => placeFlags { p with sign := p.sign.orElse fun _ => some ' ' } r
  | '#' :: r => placeFlags { p with alternate := true } r
  | '0' :: r => placeFlags { p with zero := true } r
  | t => (p, t)

/-- A size written in digits or taken from the supply, if there is one. -/
def placeSize (s : Supply) (t : Text) : Eval (Option Int × Supply × Text) := do
  match t with
  | '*' :: r =>
    let (v, s) ← s.take
    match v.int? with
    | some n => return (some n, s, r)
    | none => Eval.wrongType "* wants int"
  | t =>
    let digits := t.takeWhile Char.isDigit
    if digits = [] then return (none, s, t)
    else return (some (Text.digitsValue digits : Int), s, t.dropWhile Char.isDigit)

/-- Fills the places of a text, which starts at the given index. -/
def percentFrom (m : Machine) : Nat → Nat → Supply → Text → Eval (Text × Supply)
  | 0, _, s, _ => return ([], s)
  | _, _, s, [] => return ([], s)
  | fuel + 1, index, s, '%' :: r => do
    let start := r.length
    let (key, s, r) ← match r with
      | '(' :: r' =>
        if !s.isMapping then Eval.wrongType "format requires a mapping"
        match keyText? 0 r', s.single with
        | some (key, r''), some whole =>
          let v ← m.item whole (.text key)
          pure (some key, { s with rest := [v] }, r'')
        | _, _ => Eval.wrongValue "incomplete format key"
      | r => pure (none, s, r)
    let (p, r) := placeFlags ⟨key, false, none, false, false, 0, none, 's'⟩ r
    let (width, s, r) ← placeSize s r
    let p := match width with
      | some n => { p with left := p.left || n < 0, width := n.natAbs }
      | none => p
    let (p, s, r) ← match r with
      | '.' :: r' => do
        let (precision, s, r'') ← placeSize s r'
        pure ({ p with precision := some (max 0 (precision.getD 0)).toNat }, s, r'')
      | r => pure (p, s, r)
    let r := match r with
      | c :: r' => if c = 'h' ∨ c = 'l' ∨ c = 'L' then r' else c :: r'
      | [] => []
    if widest < p.width then Eval.wrong .memory ""
    if widest < p.precision.getD 0 then Eval.wrongValue "precision too big"
    match r with
    | [] => Eval.wrongValue "incomplete format"
    | c :: r' =>
      let here := index + 1 + (start - r.length)
      if c = '%' ∧ start = r.length then
        let (t, s) ← percentFrom m fuel (here + 1) s r'
        return ('%' :: t, s)
      let (v, s) ← s.take
      let shown ← fillPlace m { p with form := c } here v
      let (t, s) ← percentFrom m fuel (here + 1) s r'
      return (shown ++ t, s)
  | fuel + 1, index, s, c :: r => do
    let (t, s) ← percentFrom m fuel (index + 1) s r
    return (c :: t, s)

/-- A text with its percent places filled from a value. -/
def percent (m : Machine) (t : Text) (v : Value) : Eval Text := do
  let isMapping ← match v with
    | .object id => do
      match ← Eval.object? id with
      | some (.mapping _) | some (.list _) => pure true
      | _ => pure false
    | .span .. | .bytes _ | .missing .. => pure true
    | _ => pure false
  let supply : Supply := match v with
    | .row vs => ⟨vs, none, false⟩
    | v => ⟨[v], some v, isMapping⟩
  let (shown, rest) ← percentFrom m (t.length + 1) 0 supply t
  if !rest.rest.isEmpty && !isMapping then
    Eval.wrongType "not all arguments converted during string formatting"
  return shown

/-! ### Specifications -/

/-- How a value is to be shown between braces. -/
structure Spec where
  fill : Char
  align : Char
  sign : Option Char
  positiveZero : Bool
  alternate : Bool
  width : Nat
  grouping : Option Char
  precision : Option Nat
  form : Option Char

/-- Whether the character names an alignment. -/
def isAlignment (c : Char) : Bool := c == '<' || c == '>' || c == '=' || c == '^'

/-- A size in a specification, and what follows. -/
def specSize (t : Text) : Eval (Option Nat × Text) := do
  let digits := t.takeWhile Text.isDigit
  if digits = [] then return (none, t)
  let n := Text.digitsValue digits
  if greatestSize < n then Eval.wrongValue "Too many decimal digits in format string"
  return (some n, t.dropWhile Text.isDigit)

/-- A specification, for values of the named kind. -/
def readSpec (kind : String) (usualAlign : Char) (usualForm : Option Char) (t : Text) :
    Eval Spec := do
  let (fill, align, rest) : Option Char × Option Char × Text := match t with
    | c :: d :: r => if isAlignment d then (some c, some d, r)
      else if isAlignment c then (none, some c, d :: r) else (none, none, t)
    | [c] => if isAlignment c then (none, some c, []) else (none, none, [c])
    | [] => (none, none, [])
  let (sign, rest) : Option Char × Text := match rest with
    | c :: r => if c = ' ' ∨ c = '+' ∨ c = '-' then (some c, r) else (none, rest)
    | [] => (none, [])
  let (positiveZero, rest) : Bool × Text := match rest with
    | 'z' :: r => (true, r)
    | r => (false, r)
  let (alternate, rest) : Bool × Text := match rest with
    | '#' :: r => (true, r)
    | r => (false, r)
  let (fill, align, rest) : Option Char × Option Char × Text := match fill, rest with
    | none, '0' :: r =>
      (some '0', if align.isNone ∧ usualAlign = '>' then some '=' else align, r)
    | fill, r => (fill, align, r)
  let (width, rest) ← specSize rest
  let (comma, rest) : Bool × Text := match rest with
    | ',' :: r => (true, r)
    | r => (false, r)
  let (line, rest) : Bool × Text := match rest with
    | '_' :: r => (true, r)
    | r => (false, r)
  if (comma && line) || (line && rest.head? == some ',') then
    Eval.wrongValue "Cannot specify both ',' and '_'."
  let (precision, rest) ← match rest with
    | '.' :: r => do
      let (p, r) ← specSize r
      if p.isNone then Eval.wrongValue "Format specifier missing precision"
      pure (p, r)
    | r => pure (none, r)
  let form ← match rest with
    | [] => pure usualForm
    | [c] => pure (some c)
    | _ =>
      Eval.wrongValue ("Invalid format specifier " ++ Text.quoted (String.ofList t) ++
        " for object of type '" ++ kind ++ "'")
  let grouping : Option Char := if comma then some ',' else if line then some '_' else none
  match grouping, form with
  | some g, some c =>
    let allowed := "defgEG%F".toList.contains c || (g == '_' && "boxX".toList.contains c)
    if !allowed then
      Eval.wrongValue ("Cannot specify '" ++ String.singleton g ++ "' with '" ++
        (if 32 < c.toNat ∧ c.toNat < 128 then String.singleton c
        else "\\x" ++ String.ofList (numeralIn 16 c.toNat)) ++ "'.")
  | _, _ => pure ()
  if widest < width.getD 0 then Eval.wrong .memory ""
  if widest < precision.getD 0 then Eval.wrongValue "precision too big"
  return ⟨fill.getD ' ', align.getD usualAlign, sign, positiveZero, alternate, width.getD 0,
    grouping, precision, form⟩

/-- Refuses the form of a specification. -/
def unknownForm {α : Type} (kind : String) (c : Char) : Eval α :=
  Eval.wrongValue ("Unknown format code '" ++
    (if 32 < c.toNat ∧ c.toNat < 128 then String.singleton c
    else "\\x" ++ String.ofList (numeralIn 16 c.toNat)) ++ "' for object of type '" ++ kind ++ "'")

/-- A text filled out to the width of a specification; `lead` stays in front
where the filling goes between it and the rest. -/
def Spec.fillOut (s : Spec) (lead rest : Text) : Text :=
  let missing := s.width - lead.length - rest.length
  let fill (n : Nat) : Text := List.replicate n s.fill
  match s.align with
  | '<' => lead ++ rest ++ fill missing
  | '^' => fill (missing / 2) ++ lead ++ rest ++ fill (missing - missing / 2)
  | '=' => lead ++ fill missing ++ rest
  | _ => fill missing ++ lead ++ rest

/-- Digits in groups of a size, from the right. -/
def grouped (mark : Char) (size : Nat) (digits : Text) : Text :=
  let rec go : Nat → Text → Text
    | _, [] => []
    | i, c :: r => (if i != 0 && i % size == 0 then [mark, c] else [c]) ++ go (i + 1) r
  (go 0 digits.reverse).reverse

/-- The whole digits of a number in groups; zeros that fill it out are grouped
too.  `other` is the length of everything beside them. -/
def Spec.groupDigits (s : Spec) (size other : Nat) (digits : Text) : Text :=
  match s.grouping with
  | none => digits
  | some mark =>
    let wanted := if s.fill = '0' ∧ s.align = '=' then s.width - other else 0
    let rec count : Nat → Nat → Nat
      | 0, n => n
      | fuel + 1, n => if n + (n - 1) / size < wanted then count fuel (n + 1) else n
    let n := count (wanted + 1) digits.length
    grouped mark size (List.replicate (n - digits.length) '0' ++ digits)

/-- A text by a specification. -/
def specText (t spec : Text) : Eval Text := do
  let s ← readSpec "str" '<' (some 's') spec
  match s.form with
  | some 's' =>
    match s.sign with
    | some ' ' => Eval.wrongValue "Space not allowed in string format specifier"
    | some _ => Eval.wrongValue "Sign not allowed in string format specifier"
    | none => pure ()
    if s.positiveZero then
      Eval.wrongValue "Negative zero coercion (z) not allowed in string format specifier"
    if s.alternate then
      Eval.wrongValue "Alternate form (#) not allowed in string format specifier"
    if s.align = '=' then
      Eval.wrongValue "'=' alignment not allowed in string format specifier"
    return s.fillOut [] (match s.precision with
      | some n => t.take n
      | none => t)
  | some c => unknownForm "str" c
  | none => return t

/-- A double by a specification that has been read. -/
def Spec.real (s : Spec) (kind : String) (x : Binary64) : Eval Text := do
  let c := s.form
  let percentSign := c == some '%'
  let x := if percentSign then x.mul (Binary64.ofInt 100) else x
  let body ← match c with
    | none =>
      match s.precision with
      | none => do
        let t := Decimal.plainLayout.write x.magnitude
        pure t
      | some p => pure (digitsOf 'g' s.alternate true p x)
    | some '%' => pure (digitsOf 'f' s.alternate false (s.precision.getD 6) x)
    | some 'n' => pure (digitsOf 'g' s.alternate false (s.precision.getD 6) x)
    | some c =>
      if "eEfFgG".toList.contains c then
        pure (digitsOf c s.alternate false (s.precision.getD 6) x)
      else unknownForm kind c
  let isZeroText := body.all fun c => c == '0' || c == '.' || !c.isDigit
  let negative := x.isNegative && !(s.positiveZero && x.isFinite && isZeroText)
  let sign := signText s.sign negative
  let tail := if percentSign then ['%'] else []
  -- only the digits before the point are grouped
  let whole := if x.isFinite then body.takeWhile Char.isDigit else []
  let rest := body.drop whole.length
  let whole := if whole = [] then []
    else s.groupDigits 3 (sign.length + rest.length + tail.length) whole
  return s.fillOut sign (whole ++ rest ++ tail)

/-- An integer by a specification. -/
def specWhole (kind : String) (n : Int) (spec : Text) : Eval Text := do
  let s ← readSpec kind '>' (some 'd') spec
  let c := s.form.getD 'd'
  if "eEfFgG%".toList.contains c then
    match ← asDouble (.whole n) with
    | some x => s.real kind x
    | none => return []
  else
    if !("bcdonxX".toList.contains c) then unknownForm kind c
    if s.precision.isSome then
      Eval.wrongValue "Precision not allowed in integer format specifier"
    if s.positiveZero then
      Eval.wrongValue "Negative zero coercion (z) not allowed in integer format specifier"
    if c = 'c' then
      if s.sign.isSome then
        Eval.wrongValue "Sign not allowed with integer format specifier 'c'"
      if s.alternate then
        Eval.wrongValue "Alternate form (#) not allowed with integer format specifier 'c'"
      return s.fillOut [] (← charOf n)
    let base : Nat := if c = 'b' then 2 else if c = 'o' then 8 else if c = 'x' ∨ c = 'X' then 16 else 10
    let plain ← if base = 10 then (do
        let t ← Eval.ofExcept (Number.writeWhole n)
        return if n < 0 then t.drop 1 else t)
      else pure (numeralIn base n.natAbs)
    let digits := if c = 'X' then plain.map Char.toUpper else plain
    let lead := signText s.sign (n < 0) ++ if s.alternate ∧ base ≠ 10 then ['0', c] else []
    return s.fillOut lead (s.groupDigits (if base = 10 then 3 else 4) lead.length digits)

/-- A value by a specification. -/
def specValue (m : Machine) (v : Value) (spec : Text) : Eval Text := do
  if spec = [] then m.shown v
  else
    match v with
    | .text t | .markup t => specText t spec
    | .whole n => specWhole "int" n spec
    | .truth b => specWhole "bool" (if b then 1 else 0) spec
    | .real x => do
      let s ← readSpec "float" '>' none spec
      s.real "float" x
    | .missing true complaint => Eval.needs complaint
    | v =>
      Eval.wrongType ("unsupported format string passed to " ++ (← Eval.kindName v) ++
        ".__format__")

/-! ### Braces -/

/-- How the fields of a text are numbered. -/
inductive Numbering where
  | undecided
  | automatic (next : Nat)
  | manual

/-- The name of a field, its conversion and its specification, whether the
specification has fields of its own, and what follows. -/
structure Field where
  name : Text
  conversion : Option Char
  spec : Text
  nested : Bool
  rest : Text

theorem length_lt_of_dropWhile_eq_cons {p : Char → Bool} {c d : Char} {r r' : Text}
    (h : r.dropWhile p = d :: r') : r'.length < (c :: r).length := by
  have hle : (d :: r').length ≤ r.length := h ▸ (List.dropWhile_suffix p).length_le
  rw [List.length_cons] at hle ⊢
  omega

/-- The name of a field up to the character that ends it, and what follows. -/
def fieldName : Text → Eval (Text × Option Char × Text)
  | [] => return ([], none, [])
  | c :: r => do
    if c = '{' then Eval.wrongValue "unexpected '\x7b' in field name"
    else if c = '}' ∨ c = ':' ∨ c = '!' then return ([], some c, r)
    else if c = '[' then
      let inner := r.takeWhile (· != ']')
      match _h : r.dropWhile (· != ']') with
      | [] => return (c :: inner, none, [])
      | d :: r' =>
        let (t, e, rest) ← fieldName r'
        return (c :: inner ++ d :: t, e, rest)
    else
      let (t, e, rest) ← fieldName r
      return (c :: t, e, rest)
termination_by t => t.length
decreasing_by
  · exact length_lt_of_dropWhile_eq_cons _h
  · exact Nat.lt_succ_self _

/-- A specification up to the brace that closes its field, whether it has
fields, and what follows. -/
def fieldSpec? : Nat → Text → Option (Text × Bool × Text)
  | _, [] => none
  | depth, c :: r =>
    if c = '}' ∧ depth = 0 then some ([], false, r)
    else
      let deeper := if c = '{' then depth + 1 else if c = '}' then depth - 1 else depth
      (fieldSpec? deeper r).map fun p => (c :: p.1, p.2.1 || c == '{', p.2.2)

/-- The field behind an opening brace. -/
def readField (t : Text) : Eval Field := do
  let (name, ended, rest) ← fieldName t
  let spec (conversion : Option Char) (rest : Text) : Eval Field := do
    match fieldSpec? 0 rest with
    | some (s, nested, rest) => return ⟨name, conversion, s, nested, rest⟩
    | none => Eval.wrongValue "unmatched '\x7b' in format spec"
  match ended, rest with
  | some '}', rest => return ⟨name, none, [], false, rest⟩
  | some ':', rest => spec none rest
  | some '!', [] => Eval.wrongValue "end of string while looking for conversion specifier"
  | some '!', c :: '}' :: rest => return ⟨name, some c, [], false, rest⟩
  | some '!', c :: ':' :: rest => spec (some c) rest
  | some '!', [c] => spec (some c) []
  | some '!', _ => Eval.wrongValue "expected ':' after conversion specifier"
  | _, _ => Eval.wrongValue "expected '\x7d' before end of string"

/-- The number that a text of digits denotes, if it is one. -/
def fieldIndex? (t : Text) : Eval (Option Nat) := do
  if t = [] ∨ !t.all Text.isDigit then return none
  let n := Text.digitsValue t
  if greatestSize < n then Eval.wrongValue "Too many decimal digits in format string"
  return some n

/-- The parts and items behind the first word of a field. -/
def fieldPath (m : Machine) : Nat → Value → Text → Eval Value
  | 0, v, _ => return v
  | _, v, [] => return v
  | fuel + 1, v, '.' :: r => do
    let name := r.takeWhile fun c => c != '.' && c != '['
    if name = [] then Eval.wrongValue "Empty attribute in format string"
    match ← m.part? v name with
    | some w => fieldPath m fuel w (r.drop name.length)
    | none =>
      Eval.wrong .attribute ("'" ++ (← Eval.kindName v) ++ "' object has no attribute " ++
        Text.quoted (String.ofList name))
  | fuel + 1, v, '[' :: r => do
    let key := r.takeWhile (· != ']')
    match r.dropWhile (· != ']') with
    | [] => Eval.wrongValue "Missing ']' in format string"
    | _ :: rest =>
      if key = [] then Eval.wrongValue "Empty attribute in format string"
      let k : Value ← match ← fieldIndex? key with
        | some n => pure (.whole n)
        | none => pure (.text key)
      fieldPath m fuel (← m.item v k) rest
  | _, _, _ :: _ => Eval.wrongValue "Only '.' or '[' may follow ']' in format field specifier"

/-- Where the fields of a text get their values. -/
structure FieldSource where
  /-- The values by number, if fields may have numbers. -/
  given : Option (List Value)
  named : Text → Eval Value

/-- The value of a field, and how the next fields are numbered. -/
def fieldValue (m : Machine) (s : FieldSource) (n : Numbering) (name : Text) :
    Eval (Value × Numbering) := do
  let first := name.takeWhile fun c => c != '.' && c != '['
  let given (i : Nat) : Eval Value := do
    match s.given.map (·[i]?) with
    | some (some v) => return v
    | none => Eval.wrongValue "Format string contains positional fields"
    | some none =>
      Eval.wrong .index ("Replacement index " ++ toString i ++
        " out of range for positional args tuple")
  let (v, n) ← match ← fieldIndex? first, first, n with
    | none, [], .manual =>
      Eval.wrongValue
        "cannot switch from manual field specification to automatic field numbering"
    | none, [], .undecided => do pure (← given 0, .automatic 1)
    | none, [], .automatic k => do pure (← given k, .automatic (k + 1))
    | some _, _, .automatic _ =>
      Eval.wrongValue
        "cannot switch from automatic field numbering to manual field specification"
    | some i, _, _ => do pure (← given i, .manual)
    | none, _, n => do pure (← s.named first, n)
  return (← fieldPath m name.length v (name.drop first.length), n)

/-- A text with its braces filled, fields in specifications down to a depth. -/
def bracesFrom (m : Machine) (s : FieldSource) (show_ : Value → Text → Eval Text) :
    Nat → Nat → Numbering → Text → Eval (Text × Numbering)
  | 0, _, n, _ => return ([], n)
  | _, _, n, [] => return ([], n)
  | fuel + 1, depth, n, c :: r => do
    let go (t : Text) (n : Numbering) (rest : Text) : Eval (Text × Numbering) := do
      let (u, n) ← bracesFrom m s show_ fuel depth n rest
      return (t ++ u, n)
    match c, r with
    | '{', '{' :: r' => go ['{'] n r'
    | '}', '}' :: r' => go ['}'] n r'
    | '}', _ => Eval.wrongValue "Single '\x7d' encountered in format string"
    | '{', [] => Eval.wrongValue "Single '\x7b' encountered in format string"
    | '{', r =>
      let f ← readField r
      let (v, n) ← fieldValue m s n f.name
      let v ← match f.conversion with
        | none => pure v
        | some 's' => Value.text <$> m.shown v
        | some 'r' => Value.text <$> m.written v
        | some 'a' => do pure (.text (asciiOnly (← m.written v)))
        | some c =>
          Eval.wrongValue ("Unknown conversion specifier " ++
            (if 32 < c.toNat ∧ c.toNat < 127 then String.singleton c
            else "\\x" ++ String.ofList (numeralIn 16 c.toNat)))
      let (spec, n) ← if f.nested then
          (if depth = 0 then Eval.wrongValue "Max string recursion exceeded"
          else bracesFrom m s show_ fuel (depth - 1) n f.spec)
        else pure (f.spec, n)
      go (← show_ v spec) n f.rest
    | c, r => go [c] n r

/-- A text with its braces filled, each value shown in the given way. -/
def bracesWith (m : Machine) (s : FieldSource) (show_ : Value → Text → Eval Text) (t : Text) :
    Eval Text := do
  return (← bracesFrom m s show_ (2 * t.length + 2) 1 .undecided t).1

/-- What a call is given as a source for fields. -/
def FieldSource.ofArguments (a : Arguments) : FieldSource where
  given := some a.given
  named name :=
    match a.named.lookup name with
    | some v => return v
    | none => Eval.wrong .key (Text.quoted (String.ofList name))

/-- A text with its braces filled from what a call is given. -/
def braces (m : Machine) (t : Text) (a : Arguments) : Eval Text :=
  bracesWith m (.ofArguments a) (specValue m) t

/-- A text with its braces filled from the items of a value. -/
def bracesOf (m : Machine) (t : Text) (v : Value) : Eval Text :=
  bracesWith m ⟨none, fun name => m.item v (.text name)⟩ (specValue m) t

end LogCalls.Template
