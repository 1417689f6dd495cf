/-
LogCalls/Yaml/Meaning.lean

What a document means as a value of the settings.  A node that cannot be read is
a fault; of several, the one in the least depth is found, and of those the first
in the order of the document.
-/
import LogCalls.Numeral
import LogCalls.Settings.Value
import LogCalls.Text.Base64
import LogCalls.Yaml.Node.Reader
import LogCalls.Yaml.Token.Scan

namespace LogCalls.Yaml

/-! ### Scalars -/

/-- The integer that a word is the numeral of in a base. -/
def readNumeral (base : Nat) (word : Text) : Except Fault Int :=
  match Numeral.whole? base word with
  | some n => .ok n
  | none =>
    let digits := (Numeral.joinedDigits? Text.isDigit (Numeral.sign (Text.trim word)).2).getD []
    if base = 10 ∧ Fault.digitLimit < digits.length then .error (.tooManyDigits digits.length)
    else .error (.noNumeral base (String.ofList word))

/-- A number to the base sixty from its parts. -/
def readSixtieths (parts : List Text) : Except Fault Int := do
  return (← parts.mapM (readNumeral 10)).foldl (fun v n => 60 * v + n) 0

/-- A word without the sign that it may start with, and whether that is a minus;
an empty word has no first character to look at. -/
def unsigned : Text → Except Fault (Bool × Text)
  | [] => .error (.mistaken .index "string index out of range")
  | t => .ok (Number.takeSign t)

/-- An integer without sign and marks between its digits. -/
def readUnsigned : Text → Except Fault Int
  | [] => .error (.mistaken .index "string index out of range")
  | '0' :: 'b' :: r => readNumeral 2 r
  | '0' :: 'x' :: r => readNumeral 16 r
  | '0' :: r => readNumeral 8 ('0' :: r)
  | t => if t.contains ':' then readSixtieths (Text.splitAll ':' t) else readNumeral 10 t

/-- An integer. -/
def readWhole (t : Text) : Except Fault Int := do
  let (negative, digits) ← unsigned (t.filter (· ≠ '_'))
  let n ← readUnsigned digits
  return if negative then -n else n

/-- A decimal. -/
def readDecimal (t : Text) : Except Fault Binary64 :=
  match Numeral.real? t with
  | some x => .ok x
  | none => .error (.noReal (String.ofList t))

/-- The sum of the parts of a number to the base sixty, the last one first, where
the weight of a part has to be a real. -/
def sumSixtieths (base : Nat) : List Binary64 → Binary64 → Except Fault Binary64
  | [], sum => .ok sum
  | part :: parts, sum =>
    match Binary64.ofInt base with
    | .infinite _ => .error (.mistaken .overflow "int too large to convert to float")
    | weight => sumSixtieths (60 * base) parts (Binary64.add sum (Binary64.mul part weight))

/-- A real. -/
def readReal (t : Text) : Except Fault Binary64 := do
  let (negative, digits) ← unsigned (Text.small (t.filter (· ≠ '_')))
  let size ←
    if digits = ".inf".toList then pure (.infinite false)
    else if digits = ".nan".toList then pure .nan
    else if digits.contains ':' then do
      let parts ← (Text.splitAll ':' digits).mapM readDecimal
      sumSixtieths 1 parts.reverse (Binary64.zero false)
    else readDecimal digits
  return if negative then size.neg else size

/-- A truth value, in any case of its letters. -/
def readTruth (t : Text) : Except Fault Bool :=
  let word := String.ofList (Text.small t)
  if ["yes", "true", "on"].contains word then .ok true
  else if ["no", "false", "off"].contains word then .ok false
  else .error (.mistaken .key (Text.quoted word))

/-- Bytes written with sixty-four characters. -/
def readBytes (t : Text) : Except Fault (List UInt8) :=
  match if t.all (·.toNat < 0x80) then Text.Base64.decode t else none with
  | some bytes => .ok bytes
  | none => .error .malformedYaml

/-- The offset of a zone in minutes. -/
def WrittenZone.offset (z : WrittenZone) : Int :=
  let minutes : Int := 60 * z.hours + z.minutes
  if z.west then -minutes else minutes

/-- A clock, unless its zone is a day away or further. -/
def WrittenClock.read (c : WrittenClock) : Except Fault Clock :=
  let offset := c.zone.map WrittenZone.offset
  match offset with
  | some minutes =>
    if 1440 ≤ minutes.natAbs then .error (.calendar (.zone minutes))
    else .ok ⟨c.hour, c.minute, c.second, c.micro, offset⟩
  | none => .ok ⟨c.hour, c.minute, c.second, c.micro, offset⟩

/-- A moment, unless it does not exist. -/
def readMoment (t : Text) : Except Fault Moment := do
  let some w := WrittenMoment.readTagged? (withoutLastFeed t)
    | throw (.mistaken .attribute "'NoneType' object has no attribute 'groupdict'")
  let clock ← w.clock.mapM WrittenClock.read
  let m : Moment := ⟨w.year, w.month, w.day, clock⟩
  match m.flaw? with
  | some part => throw (.calendar part)
  | none => return m

/-- A scalar as a key, and so as a value. -/
def readScalar (tag : Tag) (t : Text) : Except Fault Key :=
  match tag with
  | .null => .ok .null
  | .truth => (readTruth t).map .truth
  | .whole => (readWhole t).map .whole
  | .real => (readReal t).map .real
  | .moment => (readMoment t).map .moment
  | .text => .ok (.text (String.ofList t))
  | .bytes => (readBytes t).map .bytes
  | .merge | .default | .list | .mapping | .set | .pairs | .other => .error .malformedYaml

/-! ### Nodes -/

/-- A result, or the fault found first with the depth it lies in. -/
abbrev Found (α : Type) := Except (Nat × Fault) α

namespace Found

variable {α β : Type}

/-- A result at a depth. -/
def atDepth (depth : Nat) (r : Except Fault α) : Found α := r.mapError fun f => (depth, f)

/-- Two results, or the fault that lies less deep, the first one if neither
does. -/
def both : Found α → Found β → Found (α × β)
  | .ok a, .ok b => .ok (a, b)
  | .error f, .ok _ => .error f
  | .ok _, .error g => .error g
  | .error f, .error g => .error (if g.1 < f.1 then g else f)

end Found

namespace Node

/-- The sort of a node; a place further out is a list or a mapping. -/
def tag : Node → Tag
  | .scalar tag _ | .list tag _ | .mapping tag _ => tag
  | .around ofMapping => if ofMapping then .mapping else .list

mutual

/-- The content of a node that is to be taken for a scalar: a mapping stands for
its default value. -/
def content? : Node → Option Text
  | .scalar _ content => some content
  | .mapping _ entries => defaultContent? entries
  | .list .. | .around _ => none

/-- The content of the first default value among some entries. -/
def defaultContent? : List (Node × Node) → Option Text
  | [] => none
  | e :: r => entryContent? e (defaultContent? r)

/-- The content of an entry that is the default value, or else the given one. -/
def entryContent? : Node × Node → Option Text → Option Text
  | (k, v), other => if k.tag = .default then content? v else other

end

/-- The key that a node is: a scalar, of which the mark of a default value is a
text here. -/
def keyAt (depth : Nat) (n : Node) : Found Key :=
  let tag := if n.tag = .default then .text else n.tag
  match n.content? with
  | some content => Found.atDepth depth (readScalar tag content)
  | none => .error (depth, .malformedYaml)

/-- The scalar that a node is; a moment is a scalar by itself. -/
def scalarAt (depth : Nat) (n : Node) : Found Value :=
  match n, n.content? with
  | .mapping .moment _, some _ =>
    .error (depth, .mistaken .type "expected string or bytes-like object, got 'list'")
  | _, some content => (Found.atDepth depth (readScalar n.tag content)).map Value.ofKey
  | _, none => .error (depth, .malformedYaml)

/-- The mapping of some entries, of which later ones replace earlier ones. -/
def mappingOf (entries : List (Key × Value)) : Mapping :=
  entries.foldl (fun m e => Mapping.put m e.1 e.2) []

mutual

/-- The value of a node at a depth. -/
def valueAt (depth : Nat) : Node → Found Value
  | .scalar tag content =>
    match tag with
    | .list | .mapping | .set | .pairs => .error (depth + 1, .malformedYaml)
    | _ => scalarAt depth (.scalar tag content)
  | .list tag items =>
    match tag with
    | .list => (itemsAt (depth + 1) items).map .list
    | .pairs => (pairsAt (depth + 1) items).map .list
    | .mapping | .set => .error (depth + 1, .malformedYaml)
    | _ => .error (depth, .malformedYaml)
  | .mapping tag entries =>
    match tag with
    | .mapping => (entriesAt (depth + 1) entries).map fun es => .mapping (mappingOf es)
    | .set => (entriesAt (depth + 1) entries).map fun es => .set ((mappingOf es).map (·.1))
    | .list | .pairs => .error (depth + 1, .malformedYaml)
    | _ => scalarAt depth (.mapping tag entries)
  -- how it goes on is not looked at
  | .around ofMapping => .ok (if ofMapping then .mapping [] else .list [])

/-- The values of some nodes at a depth. -/
def itemsAt (depth : Nat) : List Node → Found (List Value)
  | [] => .ok []
  | n :: r => (Found.both (valueAt depth n) (itemsAt depth r)).map fun p => p.1 :: p.2

/-- The keys and values of some mappings of one entry at a depth. -/
def pairsAt (depth : Nat) : List Node → Found (List Value)
  | [] => .ok []
  | n :: r => (Found.both (pairAt depth n) (pairsAt depth r)).map fun p => p.1 :: p.2

/-- The key and the value of a mapping of one entry at a depth. -/
def pairAt (depth : Nat) : Node → Found Value
  | .mapping _ [e] => pairOf depth e
  | _ => .error (depth, .malformedYaml)

/-- The key and the value of an entry at a depth, as values. -/
def pairOf (depth : Nat) : Node × Node → Found Value
  | (k, v) => (Found.both (valueAt depth k) (valueAt depth v)).map fun p => .list [p.1, p.2]

/-- The keys and values of some entries at a depth. -/
def entriesAt (depth : Nat) : List (Node × Node) → Found (List (Key × Value))
  | [] => .ok []
  | e :: r => (Found.both (entryAt depth e) (entriesAt depth r)).map fun p => p.1 :: p.2

/-- The key and the value of an entry at a depth. -/
def entryAt (depth : Nat) : Node × Node → Found (Key × Value)
  | (k, v) => Found.both (keyAt depth k) (valueAt depth v)

end

/-- The fault of a mapping that holds itself. -/
def endless : Fault :=
  .mistaken .depth "maximum recursion depth exceeded while calling a Python object"

mutual

/-- Whether the values of mappings lead from the node into itself. -/
def isEndless : Node → Bool
  | .around ofMapping => ofMapping
  | .mapping tag entries => tag == .mapping && anyEndless entries
  | .scalar .. | .list .. => false

/-- Whether the value of one of some entries is endless. -/
def anyEndless : List (Node × Node) → Bool
  | [] => false
  | e :: r => entryEndless e || anyEndless r

/-- Whether the value of an entry is endless. -/
def entryEndless : Node × Node → Bool
  | (_, v) => isEndless v

end

/-- The value of a node, unless it is one without end. -/
def value (n : Node) : Except Fault Value := do
  let v ← (valueAt 0 n.merged).mapError (·.2)
  if n.merged.isEndless then throw endless
  return v

end Node

/-- The text without a byte order mark in front. -/
def dropByteOrderMark : Text → Text
  | '\uFEFF' :: r => r
  | t => t

/-- The tokens of a document. -/
def documentTokens? (t : Text) : Option (List Token) := do
  guard (t.all isAllowed)
  tokens? (normal (dropByteOrderMark t))

/-- The value of a document. -/
def read (t : Text) : Except Fault Value :=
  match documentTokens? t with
  | none => .error .malformedYaml
  | some tokens =>
    match tokens.findSome? Token.defect? with
    | some d => .error d.fault
    | none =>
      match Node.ofTokens? tokens with
      | some n => n.value
      | none => .error .malformedYaml

end LogCalls.Yaml
