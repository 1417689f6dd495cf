/-
LogCalls/Template/Filter/OfNumber.lean

The filters that make numbers and change them.  A text is read as a numeral:
blanks around it do not count, and single underscores may stand between its
digits.
-/
import LogCalls.Numeral
import LogCalls.Template.Filter.Basic

namespace LogCalls.Template

namespace Machine

/-! ### Filters -/

/-- A value as a double, if it has one; texts are read. -/
def asReal? (v : Value) : Eval (Option Binary64) := do
  match v with
  | .missing _ complaint => Eval.needs complaint
  | v =>
    match v.text? with
    | some t => return Numeral.real? t
    | none => asDouble v

/-- A value as an integer, or a value in place of it. -/
def toWhole (v otherwise base : Value) : Eval Value := do
  let second : Eval Value := do
    match ← Eval.tryCatching [.overflow] (asReal? v) with
    | some (some x) =>
      match x.truncated? with
      | some n => return .whole n
      | none => return otherwise
    | _ => return otherwise
  match v with
  | .missing _ complaint => Eval.needs complaint
  | .whole n => return .whole n
  | .truth b => return .whole (if b then 1 else 0)
  | .real x =>
    match x with
    | .nan => return otherwise
    | x => return .whole (← wholePart x)
  | v =>
    match v.text?, base.int? with
    | some t, some b =>
      if b = 0 ∨ (2 ≤ b ∧ b ≤ 36) then
        match Numeral.whole? b.toNat t with
        | some n => return .whole n
        | none => second
      else second
    | _, _ => second

/-- An integer rounded to a power of ten, halves to the even neighbour. -/
def roundWhole (n : Int) (places : Int) : Int :=
  if 0 ≤ places then n
  else
    let unit : Int := Decimal.tenTo places.natAbs
    let below := Int.fdiv n unit
    let rest := n - below * unit
    let up := unit < 2 * rest || (2 * rest == unit && below % 2 != 0)
    (if up then below + 1 else below) * unit

/-- A number rounded to a number of places. -/
def rounded (v precision : Value) : Eval Value := do
  match v.int?, v, precision with
  | some n, _, .none => return .whole n
  | some n, _, p =>
    let places ← asWhole p
    if places < -5000 then return .whole 0
    return .whole (roundWhole n places)
  | none, .real x, .none =>
    match x.nearest? with
    | some n => return .whole n
    | none => return .whole (← wholePart x)
  | none, .real x, p => return .real (x.roundTo (← asWhole p))
  | none, v, _ =>
    Eval.wrongType ("type " ++ (← Eval.kindName v) ++ " doesn't define __round__ method")

/-- A number brought to the next one up or down with a number of places. -/
def roundedTowards (m : Machine) (up : Bool) (v precision : Value) : Eval Value := do
  let unit ← m.binary .pow (.whole 10) precision
  let scaled ← m.binary .mul v unit
  let whole ← match scaled with
    | .real x =>
      match if up then x.ceiling? else x.floor? with
      | some n => pure n
      | none => wholePart x
    | w =>
      match w.int? with
      | some n => pure n
      | none => Eval.wrongType ("must be real number, not " ++ (← Eval.kindName w))
  m.binary .div (.whole whole) (← m.binary .pow (.whole 10) precision)

/-- The names of the units of sizes. -/
def sizeUnits (binary : Bool) : List String :=
  if binary then ["KiB", "MiB", "GiB", "TiB", "PiB", "EiB", "ZiB", "YiB"]
  else ["kB", "MB", "GB", "TB", "PB", "EB", "ZB", "YB"]

/-- A size in the first unit in which it is less than a unit of the next, or in
the last unit. -/
def sizeIn (m : Machine) (base : Nat) (x : Binary64) : Nat → List String → Eval Text
  | _, [] => return []
  | unit, name :: rest => do
    let whole := Binary64.ofInt (unit * base : Nat)
    if rest.isEmpty || x.order? whole == some .lt then
      let y := ((Binary64.ofInt base).mul x).divide whole
      return (← specValue m (.real y) ".1f".toList) ++ ' ' :: name.toList
    else m.sizeIn base x (unit * base) rest

/-- A number of bytes in words. -/
def sizeText (m : Machine) (v binary : Value) : Eval Text := do
  let x ← match ← asReal? v with
    | some x => pure x
    | none =>
      match v.text? with
      | some t =>
        Eval.wrongValue ("could not convert string to float: " ++ Text.quoted (String.ofList t))
      | none =>
        Eval.wrongType ("float() argument must be a string or a real number, not '" ++
          (← Eval.kindName v) ++ "'")
  let binary ← m.holds binary
  let base : Nat := if binary then 1024 else 1000
  if x.orderInt? 1 == some .eq then return "1 Byte".toList
  else if x.orderInt? base == some .lt then
    return Text.signedNumeral (← wholePart x) ++ " Bytes".toList
  else m.sizeIn base x base (sizeUnits binary)

/-- The filters of numbers. -/
def numberFilter? (m : Machine) (name : String) (v : Value) (a : Arguments) :
    Option (Eval Value) :=
  match name with
  | "abs" => some do
    match ← takesValue "abs" v a with
    | .real x => return .real x.magnitude
    | v =>
      match v.int? with
      | some n => return .whole n.natAbs
      | none => Eval.wrongType ("bad operand type for abs(): '" ++ (← Eval.kindName v) ++ "'")
  | "int" => some do
    let vs ← Signature.apply ⟨"do_int",
      [needed "value", optionalParameter "default" (.whole 0),
        optionalParameter "base" (.whole 10)]⟩ none v a
    toWhole (valueAt vs 0) (valueAt vs 1) (valueAt vs 2)
  | "float" => some do
    let vs ← Signature.apply ⟨"do_float",
      [needed "value", optionalParameter "default" (.real (Binary64.zero false))]⟩ none v a
    match ← asReal? (valueAt vs 0) with
    | some x => return .real x
    | none => return valueAt vs 1
  | "round" => some do
    let vs ← Signature.apply ⟨"do_round",
      [needed "value", optionalParameter "precision" (.whole 0),
        optionalParameter "method" (.ofString "common")]⟩ none v a
    requireKey comparisonDepth (valueAt vs 2)
    match (valueAt vs 2).text?.map String.ofList with
    | some "common" => rounded (valueAt vs 0) (valueAt vs 1)
    | some "ceil" => m.roundedTowards true (valueAt vs 0) (valueAt vs 1)
    | some "floor" => m.roundedTowards false (valueAt vs 0) (valueAt vs 1)
    | _ => Eval.refuse
  | "filesizeformat" => some do
    let vs ← Signature.apply ⟨"do_filesizeformat",
      [needed "value", optionalParameter "binary" (.truth false)]⟩ none v a
    return .text (← m.sizeText (valueAt vs 0) (valueAt vs 1))
  | _ => none

end Machine

/-! ### Small laws -/

theorem roundWhole_of_nonneg {places : Int} (h : 0 ≤ places) (n : Int) :
    Machine.roundWhole n places = n := by simp [Machine.roundWhole, h]

end LogCalls.Template
