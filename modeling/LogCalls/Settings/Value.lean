/-
LogCalls/Settings/Value.lean

Values of settings: what a settings file, a setting on the command line or an
option can hold.  Mappings keep the order in which their keys first appear,
and two keys are the same when they denote the same number, the same moment or
the same value of another sort, so `1`, `1.0` and `true` are one key.
-/
import LogCalls.Number
import LogCalls.Settings.Moment

namespace LogCalls

/-- A key of a mapping. -/
inductive Key where
  | null
  | truth (b : Bool)
  | whole (n : Int)
  | real (x : Binary64)
  | text (s : String)
  | moment (m : Moment)
  | bytes (b : List UInt8)
  deriving DecidableEq, Repr

/-- The key that stands for all that are the same: integers stand for truth
values and for the reals equal to them, and moments in universal time for those
with another offset. -/
def Key.canonical : Key → Key
  | .truth b => .whole (if b then 1 else 0)
  | .real x =>
    match x.toInt? with
    | some n => .whole n
    | none => .real x
  | .moment m => .moment m.universal
  | k => k

/-- Whether two keys are the same.  All reals that are not a number are one key. -/
def Key.agrees (k l : Key) : Bool := k.canonical == l.canonical

/-- A value of the settings.  `unset` marks an option that was not given. -/
inductive Value where
  | null
  | truth (b : Bool)
  | whole (n : Int)
  | real (x : Binary64)
  | text (s : String)
  | moment (m : Moment)
  | bytes (b : List UInt8)
  /-- Keys without values. -/
  | set (keys : List Key)
  | list (items : List Value)
  | mapping (entries : List (Key × Value))
  | unset
  deriving Repr, Inhabited

/-- A mapping as its entries, in the order of their keys. -/
abbrev Mapping := List (Key × Value)

namespace Value

/-- The word for the sort of a value. -/
def sort : Value → String
  | .null => "NoneType"
  | .truth _ => "bool"
  | .whole _ => "int"
  | .real _ => "float"
  | .text _ => "str"
  | .moment m => if m.clock.isSome then "datetime" else "date"
  | .bytes _ => "bytes"
  | .set _ => "set"
  | .list _ => "list"
  | .mapping _ => "dict"
  | .unset => "object"

/-- The value that a key is by itself. -/
def ofKey : Key → Value
  | .null => .null
  | .truth b => .truth b
  | .whole n => .whole n
  | .real x => .real x
  | .text s => .text s
  | .moment m => .moment m
  | .bytes b => .bytes b

/-- The entries of a mapping. -/
def entries? : Value → Option Mapping
  | .mapping entries => some entries
  | _ => none

/-- Whether the value marks an option that was not given. -/
def isUnset : Value → Bool
  | .unset => true
  | _ => false

end Value

namespace Mapping

/-- The value of a key. -/
def get? (m : Mapping) (k : Key) : Option Value :=
  (m.find? fun e => e.1.agrees k).map (·.2)

/-- The mapping with a value for a key: in the place of the key where it has
one, else at the end. -/
def put : Mapping → Key → Value → Mapping
  | [], k, v => [(k, v)]
  | e :: r, k, v => if e.1.agrees k then (e.1, v) :: r else e :: put r k v

/-! ### Small laws -/

@[simp] theorem get?_nil (k : Key) : get? [] k = none := rfl

theorem agrees_refl (k : Key) : k.agrees k = true := by simp [Key.agrees]

theorem agrees_comm (k l : Key) : k.agrees l = l.agrees k := BEq.comm

theorem agrees_trans {k l p : Key} (h : k.agrees l = true) : k.agrees p = l.agrees p := by
  simp only [Key.agrees, beq_iff_eq] at h
  simp [Key.agrees, h]

theorem get?_put_self (m : Mapping) (k : Key) (v : Value) : get? (put m k v) k = some v := by
  induction m with
  | nil => simp [put, get?, agrees_refl]
  | cons e r ih =>
    by_cases h : e.1.agrees k = true
    · simp [put, get?, h]
    · simpa [put, get?, h] using ih

theorem get?_put_of_not_agrees (m : Mapping) {k l : Key} (v : Value) (h : k.agrees l = false) :
    get? (put m k v) l = get? m l := by
  induction m with
  | nil => simp [put, get?, h]
  | cons e r ih =>
    by_cases hk : e.1.agrees k = true
    · have hl : e.1.agrees l = false := by rw [agrees_trans hk]; exact h
      simp [put, get?, hk, hl]
    · by_cases hl : e.1.agrees l = true
      · simp [put, get?, hk, hl]
      · simpa [put, get?, hk, hl] using ih

end Mapping

end LogCalls
