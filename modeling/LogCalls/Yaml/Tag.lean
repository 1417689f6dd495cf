/-
LogCalls/Yaml/Tag.lean

The sorts of nodes.  A tag names the sort of a node by a handle, which stands
for the start of the name, and the rest of it.  Without a tag a quoted scalar is
a text, and a plain scalar is of the first sort whose form it has: truth values,
reals, integers, the two marks for keys, null, moments, and text otherwise.
-/
import LogCalls.Number
import LogCalls.Text.Utf8
import LogCalls.Yaml.Alphabet

namespace LogCalls.Yaml

/-- The sort of a node. -/
inductive Tag where
  | null
  | truth
  | whole
  | real
  | moment
  | text
  | bytes
  /-- The key under which mappings are merged in. -/
  | merge
  /-- The mark of a default value. -/
  | default
  | list
  | mapping
  /-- The keys of a mapping without its values. -/
  | set
  /-- A list of mappings of one entry each, as the list of these entries. -/
  | pairs
  /-- A sort that settings do not have. -/
  | other
  deriving DecidableEq, Repr

/-- Whether the character is one of the ten digits. -/
def isTenDigit (c : Char) : Bool := c.isDigit

/-- Whether the character is a digit or the mark that divides digits. -/
def isSpacedDigit (c : Char) : Bool := c.isDigit || c == '_'

namespace Form

/-! ### The forms of plain scalars -/

/-- A sign that may be missing is taken off. -/
def unsigned (t : Text) : Text := (Number.takeSign t).2

/-- `e` or `E`, a sign, and digits; or nothing. -/
def isExponent : Text → Bool
  | [] => true
  | e :: s :: r =>
    (e == 'e' || e == 'E') && (s == '-' || s == '+') && !r.isEmpty && r.all isTenDigit
  | _ => false

/-- A part of a number to the base sixty: one digit, or two of which the first
is at most five. -/
def isSixtieth : Text → Bool
  | [a] => isTenDigit a
  | [a, b] => '0' ≤ a && a ≤ '5' && isTenDigit b
  | _ => false

/-- A digit, then digits and marks between them. -/
def isSpacedNumeral (t : Text) : Bool := t.head?.any isTenDigit && t.all isSpacedDigit

/-- A number to the base sixty with a point in its last part. -/
def isSixtiethReal (t : Text) : Bool :=
  match Text.splitAtFirst? '.' t with
  | none => false
  | some (before, after) =>
    match Text.splitAll ':' before with
    | first :: second :: parts =>
      isSpacedNumeral first && (second :: parts).all isSixtieth && after.all isSpacedDigit
    | _ => false

/-- Digits, a point, digits that may be missing, and an exponent. -/
def isPointed (t : Text) : Bool :=
  match Text.splitAtFirst? '.' t with
  | none => false
  | some (before, after) =>
    isSpacedNumeral before && isExponent (after.dropWhile isSpacedDigit)

/-- A point, digits, and an exponent. -/
def isPointLed : Text → Bool
  | '.' :: d :: r => isTenDigit d && isExponent (r.dropWhile isSpacedDigit)
  | _ => false

/-- The words for infinity. -/
def isInfinity (t : Text) : Bool :=
  t == ".inf".toList || t == ".Inf".toList || t == ".INF".toList

/-- The words for what is not a number. -/
def isNotANumber (t : Text) : Bool :=
  t == ".nan".toList || t == ".NaN".toList || t == ".NAN".toList

/-- A real. -/
def isReal (t : Text) : Bool :=
  isPointed (unsigned t) || isPointLed t || isSixtiethReal (unsigned t) ||
    isInfinity (unsigned t) || isNotANumber t

/-- An integer without its sign: to the base two, eight, ten, sixteen or
sixty. -/
def isUnsignedWhole : Text → Bool
  | ['0'] => true
  | '0' :: 'b' :: r => !r.isEmpty && r.all fun c => c == '0' || c == '1' || c == '_'
  | '0' :: 'x' :: r => !r.isEmpty && r.all fun c => Text.isHexDigit c || c == '_'
  | '0' :: r => r.all fun c => ('0' ≤ c && c ≤ '7') || c == '_'
  | t =>
    match Text.splitAll ':' t with
    | first :: parts => isSpacedNumeral first && parts.all isSixtieth
    | [] => false

/-- An integer. -/
def isWhole (t : Text) : Bool := isUnsignedWhole (unsigned t)

/-- The words for true. -/
def isYes (t : Text) : Bool :=
  ["yes", "Yes", "YES", "true", "True", "TRUE", "on", "On", "ON"].any fun w => w.toList == t

/-- The words for false. -/
def isNo (t : Text) : Bool :=
  ["no", "No", "NO", "false", "False", "FALSE", "off", "Off", "OFF"].any fun w => w.toList == t

/-- The words for null, of which the empty one is one. -/
def isNull (t : Text) : Bool := ["", "~", "null", "Null", "NULL"].any fun w => w.toList == t

end Form

/-! ### Moments -/

/-- Up to `most` digits at the start of a text, and what follows them. -/
def takeDigits (most : Nat) (t : Text) : Text × Text :=
  let digits := (t.take most).takeWhile isTenDigit
  (digits, t.drop digits.length)

/-- A number of `least` to `most` digits, and what follows it. -/
def number? (least most : Nat) (t : Text) : Option (Nat × Text) :=
  let (digits, rest) := takeDigits most t
  if least ≤ digits.length then some (Text.digitsValue digits, rest) else none

/-- What follows a character. -/
def past? (c : Char) : Text → Option Text
  | [] => none
  | d :: r => if d = c then some r else none

/-- A zone as it is written, west or east of universal time. -/
structure WrittenZone where
  west : Bool
  hours : Nat
  minutes : Nat
  deriving DecidableEq, Repr

/-- A time of day as it is written. -/
structure WrittenClock where
  hour : Nat
  minute : Nat
  second : Nat
  micro : Nat
  zone : Option WrittenZone
  deriving DecidableEq, Repr

/-- A moment as it is written. -/
structure WrittenMoment where
  year : Nat
  month : Nat
  day : Nat
  clock : Option WrittenClock
  deriving DecidableEq, Repr

/-- A day: a year of four digits, and a month and a day of up to two, each of
which has at least `least`. -/
def day? (least : Nat) (t : Text) : Option WrittenMoment := do
  let (year, r) ← number? 4 4 t
  let (month, r) ← number? least 2 (← past? '-' r)
  let (day, r) ← number? least 2 (← past? '-' r)
  guard (r = [])
  return ⟨year, month, day, none⟩

/-- The zone at the end of a moment: none, `Z`, or a sign with hours and
perhaps minutes. -/
def zone? (t : Text) : Option (Option WrittenZone) :=
  match t.dropWhile fun c => c = ' ' || c = '\t' with
  | [] => if t = [] then some none else none
  | ['Z'] => some (some ⟨false, 0, 0⟩)
  | s :: r => do
    guard (s = '-' ∨ s = '+')
    let (hours, r) ← number? 1 2 r
    if r = [] then return some ⟨s == '-', hours, 0⟩
    let (minutes, r) ← number? 2 2 (← past? ':' r)
    guard (r = [])
    return some ⟨s == '-', hours, minutes⟩

/-- The fraction of a second in millionths, and what follows it. -/
def fraction (t : Text) : Nat × Text :=
  match t with
  | '.' :: r =>
    let digits := r.takeWhile isTenDigit
    let six := digits.take 6
    (Text.digitsValue (six ++ List.replicate (6 - six.length) '0'), r.drop digits.length)
  | _ => (0, t)

/-- A day and a time on it. -/
def time? (t : Text) : Option WrittenMoment := do
  let (year, r) ← number? 4 4 t
  let (month, r) ← number? 1 2 (← past? '-' r)
  let (day, r) ← number? 1 2 (← past? '-' r)
  let r ← match r with
    | c :: s =>
      if c = 'T' ∨ c = 't' then some s
      else if c = ' ' ∨ c = '\t' then some (s.dropWhile fun d => d = ' ' || d = '\t')
      else none
    | [] => none
  let (hour, r) ← number? 1 2 r
  let (minute, r) ← number? 2 2 (← past? ':' r)
  let (second, r) ← number? 2 2 (← past? ':' r)
  let (micro, r) := fraction r
  let zone ← zone? r
  return ⟨year, month, day, some ⟨hour, minute, second, micro, zone⟩⟩

/-- Reads a moment; a day without a time has two digits for its month and two
for itself. -/
def WrittenMoment.read? (t : Text) : Option WrittenMoment := (day? 2 t).or (time? t)

/-- Reads a moment where nothing else can be meant: a day may be written with
fewer digits. -/
def WrittenMoment.readTagged? (t : Text) : Option WrittenMoment := (day? 1 t).or (time? t)

/-- The text without the line feed at its end, if it has one. -/
def withoutLastFeed (t : Text) : Text := if t.getLast? = some '\n' then t.dropLast else t

/-! ### Tags -/

namespace Tag

/-- The sort of a plain scalar. -/
def ofPlain (t : Text) : Tag :=
  if Form.isYes t || Form.isNo t then .truth
  else if Form.isReal t then .real
  else if Form.isWhole t then .whole
  else if t = "<<".toList then .merge
  else if Form.isNull t then .null
  else if (WrittenMoment.read? t).isSome then .moment
  else if t = "=".toList then .default
  else .text

/-- The sort of a scalar that is to be taken for a plain one.  A line feed at
its end does not count, unless there is nothing before it. -/
def ofUntagged (t : Text) : Tag := if t = ['\n'] then .text else ofPlain (withoutLastFeed t)

/-- The start of the names of the standard sorts. -/
def standardStart : Text := "tag:yaml.org,2002:".toList

/-- The sort that a full name stands for. -/
def ofName (name : String) : Tag :=
  match name with
  | "tag:yaml.org,2002:null" => .null
  | "tag:yaml.org,2002:bool" => .truth
  | "tag:yaml.org,2002:int" => .whole
  | "tag:yaml.org,2002:float" => .real
  | "tag:yaml.org,2002:timestamp" => .moment
  | "tag:yaml.org,2002:str" => .text
  | "tag:yaml.org,2002:seq" => .list
  | "tag:yaml.org,2002:map" => .mapping
  | "tag:yaml.org,2002:binary" => .bytes
  | "tag:yaml.org,2002:set" => .set
  | "tag:yaml.org,2002:omap" => .pairs
  | "tag:yaml.org,2002:pairs" => .pairs
  | "tag:yaml.org,2002:merge" => .merge
  | "tag:yaml.org,2002:value" => .default
  | _ => .other

end Tag

/-- A tag in front of a node: a sort, or the mark that leaves the sort to the
node. -/
inductive Tagging where
  | sort (tag : Tag)
  | unspecific
  deriving DecidableEq, Repr

/-! ### Written tags -/

/-- A tag as it is written: a handle, unless the whole name is given, and the
rest of the name.  The mark that leaves the sort to the node is a whole name. -/
structure WrittenTag where
  handle : Option Text
  rest : Text
  deriving DecidableEq, Repr

namespace WrittenTag

/-- Whether the character may stand in the name of a tag as it is. -/
def isNamePart (c : Char) : Bool :=
  c.isAlphanum || "-;/?:@&=+$,_.!~*'()[]".toList.contains c

/-- The bytes written as `%` and two digits that a text starts with, and what
follows them. -/
def escapedBytes : Text → Option (List UInt8 × Text)
  | '%' :: a :: b :: r => do
    let high ← Text.hexValue? a
    let low ← Text.hexValue? b
    let (bytes, rest) ← escapedBytes r
    return (UInt8.ofNat (16 * high + low) :: bytes, rest)
  | '%' :: _ => none
  | t => some ([], t)

/-- The name at the start of a text and what follows it, in which bytes may be
written by their digits; `fuel` bounds the number of its parts. -/
def nameFrom : (fuel : Nat) → Text → Option (Text × Text)
  | 0, t => some ([], t)
  | fuel + 1, t => do
    let plain := t.takeWhile isNamePart
    match t.drop plain.length with
    | '%' :: r =>
      let (bytes, rest) ← escapedBytes ('%' :: r)
      let decoded ← (Text.Utf8.decode bytes).toOption
      let (further, rest) ← nameFrom fuel rest
      return (plain ++ decoded ++ further, rest)
    | rest => return (plain, rest)

/-- The name at the start of a text, which is not empty, and what follows it. -/
def name? (t : Text) : Option (Text × Text) := do
  let (name, rest) ← nameFrom (t.length + 1) t
  -- a name of escapes only may stand for nothing
  guard (rest.length < t.length)
  return (name, rest)

/-- A handle behind its first `!`, and what follows it.  Before a space the `!`
is a handle by itself. -/
def handle? (t : Text) : Option (Text × Text) :=
  if t.head? = some ' ' then some (['!'], t)
  else
    let word := t.takeWhile isNameChar
    match t.drop word.length with
    | '!' :: rest => some ('!' :: word ++ ['!'], rest)
    | _ => none

/-- The tag behind its first `!`, and what follows it. -/
def read? (t : Text) : Option (WrittenTag × Text) :=
  match t with
  | '<' :: r =>
    match name? r with
    | some (name, '>' :: rest) => some (⟨none, name⟩, rest)
    | _ => none
  | _ =>
    if endsWord t then some (⟨none, ['!']⟩, t)
    else do
      let word := t.takeWhile fun c => !(c == ' ' || isBreak c)
      let (handle, r) ← if word.contains '!' then handle? t else some (['!'], t)
      let (name, rest) ← name? r
      return (⟨some handle, name⟩, rest)

/-- The handles that need no directive. -/
def usualHandles : List (Text × Text) := [(['!'], ['!']), (['!', '!'], Tag.standardStart)]

/-- What a tag says, given what its handle stands for. -/
def resolve (handles : List (Text × Text)) (w : WrittenTag) : Option Tagging := do
  let name ← match w.handle with
    | none => some w.rest
    | some handle => ((handles ++ usualHandles).lookup handle).map (· ++ w.rest)
  return if name = ['!'] then .unspecific else .sort (Tag.ofName (String.ofList name))

end WrittenTag

end LogCalls.Yaml
