/-
LogCalls/Settings/Check.lean

Reading values as what is expected of them.  A reader gives a result or every
issue it finds, in the order of the parts; readers of the parts of a record
are put together with `both`, which keeps the issues of both sides.
-/
import LogCalls.Issue
import LogCalls.Settings.Value
import LogCalls.Text.Lines
import LogCalls.Text.Utf8

namespace LogCalls.Settings

/-- A result, or all that is not as expected. -/
abbrev Checked (α : Type) := Except (List Issue) α

namespace Checked

variable {α β : Type}

/-- What was expected of the value itself. -/
def refuse (e : Expectation) : Checked α := .error [⟨[], e⟩]

/-- The result seen from one level further out. -/
def within (step : Step) : Checked α → Checked α
  | .ok a => .ok a
  | .error issues => .error (issues.map (Issue.within step))

/-- Two results, or the issues of both. -/
def both : Checked α → Checked β → Checked (α × β)
  | .ok a, .ok b => .ok (a, b)
  | .ok _, .error j => .error j
  | .error i, .ok _ => .error i
  | .error i, .error j => .error (i ++ j)

/-- The results of some readings from `index` on, or the issues of all. -/
def items (read : Value → Checked α) (index : Nat) : List Value → Checked (List α)
  | [] => .ok []
  | v :: r =>
    match both (within (.item index) (read v)) (items read (index + 1) r) with
    | .ok (a, as) => .ok (a :: as)
    | .error issues => .error issues

end Checked

/-- A text; bytes are one where they are UTF-8. -/
def readText : Value → Checked String
  | .text s => .ok s
  | .bytes b =>
    match Text.Utf8.decode b with
    | .ok t => .ok (String.ofList t)
    | .error _ => Checked.refuse .pairedText
  | _ => Checked.refuse .text

/-- A list of things that `read` reads; the keys of a set are one. -/
def readList {α : Type} (read : Value → Checked α) : Value → Checked (List α)
  | .list vs => Checked.items read 0 vs
  | .set keys => Checked.items read 0 (keys.map Value.ofKey)
  | _ => Checked.refuse .list

/-! ### Integers -/

/-- A numeral without the low lines that divide its digits; one that starts or
ends with a low line or has two in a row keeps them all. -/
def dropDividers (t : Text) : Text :=
  let groups := Text.splitAll '_' t
  if groups.all (!·.isEmpty) then groups.flatten else t

/-- A numeral without its point, if nothing but zeros follows it. -/
def dropZeroFraction (t : Text) : Text :=
  match Text.splitAtFirst? '.' t with
  | some (whole, fraction) => if fraction.all (· == '0') then whole else t
  | none => t

/-- What follows zeros and low lines in front of a numeral, of which the last
character is kept where nothing but a fraction follows; `last` is the one read
before. -/
def dropZerosAfter (last : Char) : Text → Option Text
  | [] => some [last]
  | c :: r =>
    if c = '0' ∨ c = '_' then dropZerosAfter c r
    else if c.isDigit then some (c :: r)
    else if c = '.' then some (last :: c :: r)
    else none

/-- A numeral without the zeros in front of it, among which low lines may stand
as they like; a numeral below zero keeps its zeros. -/
def dropLeadingZeros : Text → Option Text
  | [] => none
  | c :: r =>
    if c = '0' then dropZerosAfter c r
    else if c.isDigit ∨ c = '-' then some (c :: r)
    else none

/-- The digits of a numeral: zero alone, or digits of which the first is no
zero. -/
def properDigits? (t : Text) : Option Text :=
  if t ≠ [] ∧ t.all Char.isDigit ∧ (t.head? = some '0' → t = ['0']) then some t else none

/-- The digits of an integer written in a text, with its sign. -/
def writtenWhole? (t : Text) : Option (Bool × Text) := do
  let unsigned ← match Text.trimSpace t with
    | '+' :: '-' :: _ => none
    | '+' :: r => some r
    | r => some r
  match dropDividers (dropZeroFraction (← dropLeadingZeros unsigned)) with
  | '-' :: r => return (true, ← properDigits? r)
  | r => return (false, ← properDigits? r)

/-- The integers of 64 bits lie below this in absolute value, but for the least:
a real stands for an integer below it alone. -/
def wordLimit : Nat := Decimal.twoTo 63

/-- An integer that a text writes. -/
def readWrittenWhole (t : Text) : Checked Int :=
  match writtenWhole? t with
  | some (negative, digits) =>
    if Fault.digitLimit < digits.length then Checked.refuse .smallerWhole
    else .ok (if negative then -(Text.digitsValue digits : Int) else Text.digitsValue digits)
  | none => Checked.refuse .wholeFromText

/-- An integer, a truth value as zero or one, a real without fraction, or a
text or bytes that write an integer. -/
def readWhole : Value → Checked Int
  | .whole n => .ok n
  | .truth b => .ok (if b then 1 else 0)
  | .real x =>
    match x with
    | .finite .. =>
      match x.toInt? with
      | some n => if n.natAbs < wordLimit then .ok n else Checked.refuse .smallerWhole
      | none => Checked.refuse .wholeFromReal
    | _ => Checked.refuse .finite
  | .text s => readWrittenWhole s.toList
  | .bytes b =>
    match Text.Utf8.decode b with
    | .ok t => readWrittenWhole t
    | .error _ => Checked.refuse .wholeFromText
  | _ => Checked.refuse .whole

/-! ### Truth values -/

/-- The truth value of a word, in any case of its letters. -/
def truthOfWord? (s : String) : Option Bool :=
  let word := String.ofList (s.toList.map Char.toLower)
  if ["0", "off", "f", "false", "n", "no"].contains word then some false
  else if ["1", "on", "t", "true", "y", "yes"].contains word then some true
  else none

/-- The truth value of an integer; one of more than 64 bits is not taken for
one at all. -/
def truthOfWhole (n : Int) : Checked Bool :=
  if n = 0 then .ok false
  else if n = 1 then .ok true
  else if -(wordLimit : Int) ≤ n ∧ n < wordLimit then Checked.refuse .truthFromText
  else Checked.refuse .truth

/-- A truth value that a word stands for. -/
def readTruthWord (s : String) : Checked Bool :=
  match truthOfWord? s with
  | some b => .ok b
  | none => Checked.refuse .truthFromText

/-- A truth value, zero or one, or a word for one of the two. -/
def readTruth : Value → Checked Bool
  | .truth b => .ok b
  | .whole n => truthOfWhole n
  | .real x =>
    match x.toInt? with
    | some n => if n.natAbs < wordLimit then truthOfWhole n else Checked.refuse .truth
    | none => Checked.refuse .truth
  | .text s => readTruthWord s
  | .bytes b =>
    match Text.Utf8.decode b with
    | .ok t => readTruthWord (String.ofList t)
    | .error _ => Checked.refuse .truthFromText
  | _ => Checked.refuse .truth

/-! ### Records -/

/-- The entries of a record. -/
def readRecord (name : String) : Value → Checked Mapping
  | .mapping entries => .ok entries
  | _ => Checked.refuse (.record name)

/-- A field that has to be there. -/
def field {α : Type} (m : Mapping) (name : String) (read : Value → Checked α) : Checked α :=
  Checked.within (.field name) <|
    match m.get? (.text name) with
    | some v => read v
    | none => Checked.refuse .present

/-- A field that may be missing. -/
def fieldOr {α : Type} (m : Mapping) (name : String) (read : Value → Checked α) (absent : α) :
    Checked α :=
  match m.get? (.text name) with
  | some v => Checked.within (.field name) (read v)
  | none => .ok absent

/-- The result of a check as that of an operation. -/
def verdict {α : Type} (record : String) : Checked α → Except Fault α
  | .ok a => .ok a
  | .error issues => .error (.invalid record issues)

/-! ### Small laws -/

section

variable {α β : Type} {x : Checked α} {y : Checked β} {a : α} {b : β}

@[simp] theorem within_eq_ok_iff {step : Step} : Checked.within step x = .ok a ↔ x = .ok a := by
  cases x <;> simp [Checked.within]

@[simp] theorem both_eq_ok_iff : Checked.both x y = .ok (a, b) ↔ x = .ok a ∧ y = .ok b := by
  cases x <;> cases y <;> simp [Checked.both]

@[simp] theorem verdict_eq_ok_iff {record : String} : verdict record x = .ok a ↔ x = .ok a := by
  cases x <;> simp [verdict]

end

end LogCalls.Settings
