/-
LogCalls/Template/Value.lean

The values of expressions.  Plain values are what they are; lists, mappings,
iterators and everything else that can change lie in a store and are known by
their number in it.  The store also holds the variables of each level, the text
shown so far, and whether shown values are escaped.
-/
import LogCalls.Fault
import LogCalls.Template.Names

namespace LogCalls.Template

/-- The parts of a mapping that can be gone through. -/
inductive Portion where
  | keys
  | values
  | items
  deriving DecidableEq, Repr

/-- The kinds of values. -/
inductive Kind where
  | none
  | truth
  | whole
  | real
  | text
  | markup
  | bytes
  | row
  | list
  | mapping
  | span
  | cut
  | lenient
  | strict
  | fields
  | cycler
  | joiner
  | loop
  | routine
  | template
  | block
  | view (p : Portion)
  | iterator (name : String)
  | function
  | method
  | kind
  deriving DecidableEq, Repr

/-- The name of a kind. -/
def Kind.name : Kind → String
  | .none => "NoneType"
  | .truth => "bool"
  | .whole => "int"
  | .real => "float"
  | .text => "str"
  | .markup => "Markup"
  | .bytes => "bytes"
  | .row => "tuple"
  | .list => "list"
  | .mapping => "dict"
  | .span => "range"
  | .cut => "slice"
  | .lenient => "Undefined"
  | .strict => "StrictUndefined"
  | .fields => "Namespace"
  | .cycler => "Cycler"
  | .joiner => "Joiner"
  | .loop => "LoopContext"
  | .routine => "Macro"
  | .template => "TemplateReference"
  | .block => "BlockReference"
  | .view .keys => "dict_keys"
  | .view .values => "dict_values"
  | .view .items => "dict_items"
  | .iterator name => name
  | .function => "function"
  | .method => "builtin_function_or_method"
  | .kind => "type"

/-- The family of a kind that is not one of the basic kinds. -/
def Kind.family? : Kind → Option String
  | .markup => some "markupsafe"
  | .fields | .cycler | .joiner => some "jinja2.utils"
  | .loop | .routine | .template | .block | .lenient | .strict => some "jinja2.runtime"
  | _ => Option.none

/-- The name of a kind with its family. -/
def Kind.fullName (k : Kind) : String :=
  match k.family? with
  | some family => family ++ "." ++ k.name
  | Option.none => k.name

/-- A value. -/
inductive Value where
  | none
  | truth (b : Bool)
  | whole (n : Int)
  | real (x : Binary64)
  | text (t : Text)
  /-- A text that counts as escaped. -/
  | markup (t : Text)
  | bytes (bs : List Nat)
  | row (vs : List Value)
  /-- The integers from a start towards a stop, a step apart. -/
  | span (start stop step : Int)
  /-- The ends and the step of a part of a row. -/
  | cut (start stop step : Value)
  /-- No value, and the complaint of those that need one.  A lenient one shows
  as nothing, a strict one does not show. -/
  | missing (strict : Bool) (complaint : Text)
  | object (id : Nat)
  | method (owner : Value) (name : Text)
  | function (name : Text)
  | kind (k : Kind)
  deriving Repr

/-- What a call is given. -/
structure Arguments where
  given : List Value
  named : List (Text × Value)
  deriving Repr

/-- The place in a template where an expression is worked out. -/
structure Frame where
  /-- The levels around the place, the innermost first. -/
  levels : List Symbols
  /-- The object that holds the variables. -/
  locals : Nat
  /-- The object that holds the surroundings. -/
  context : Nat
  /-- Whether shown values are escaped; not known where the template decides. -/
  escapes : Option Bool
  /-- Whether assignments reach the surroundings. -/
  isTop : Bool
  /-- Whether nothing but what is written out is known. -/
  isConstant : Bool
  deriving Repr

/-- How an item is looked up in each of some values. -/
structure Getter where
  path : List Value
  otherwise : Option Value
  deriving Repr

/-- What is done to each value that an iterator takes from another one. -/
inductive Change where
  | filter (name : Value) (a : Arguments)
  | lookup (g : Getter)
  deriving Repr

/-- Which values an iterator takes from another one. -/
structure Choice where
  getter : Option Getter
  test : Option Value
  arguments : Arguments
  wanted : Bool
  deriving Repr

/-- What an iterator does when it is asked for the first time. -/
inductive Task where
  | change (source : Value) (a : Arguments)
  | choose (source : Value) (a : Arguments) (byPart wanted : Bool)
  | batch (source size filler : Value)
  | slice (source count filler : Value)
  | unique (source caseSensitive part : Value)
  | items (source : Value)
  /-- The values for which the test of a loop holds. -/
  | sift (frame : Frame) (target : Target) (test : Expr) (source : Value)
  deriving Repr

/-- What an iterator still has to give. -/
inductive Iterator where
  | values (rest : List Value)
  | overList (list index : Nat)
  | overMapping (portion : Portion) (mapping index size : Nat)
  | overSpan (next left step : Int)
  | loopItems (loop : Nat)
  | pending (task : Task)
  | changed (source : Nat) (change : Change)
  | chosen (source : Nat) (choice : Choice)
  | sifted (source : Nat) (frame : Frame) (target : Target) (test : Expr)
  deriving Repr

/-- The state of a loop that its body can ask for. -/
structure Loop where
  source : Value
  iterator : Nat
  /-- The number of values given so far. -/
  count : Nat
  length : Option Int
  after : Option Value
  current : Option Value
  before : Option Value
  lastSeen : Option (List Value)
  /-- The object that runs the loop again, in a recursive loop. -/
  again : Option Nat
  depth : Nat
  deriving Repr

/-- A part of the template that can be called. -/
structure Routine where
  name : Option Text
  parameters : List Text
  defaults : List Expr
  body : List Stmt
  frame : Frame
  takesCaller : Bool
  namesCaller : Bool
  takesNamed : Bool
  takesRest : Bool
  deriving Repr

/-- What lies in the store. -/
inductive Object where
  | list (vs : List Value)
  | mapping (entries : List (Value × Value))
  | fields (entries : List (Text × Value))
  | cycler (vs : List Value) (position : Nat)
  | joiner (separator : Value) (used : Bool)
  | loop (l : Loop)
  | again (frame : Frame) (target : Target) (test : Option Expr) (body otherwise : List Stmt)
  | routine (r : Routine)
  | template (context : Nat)
  | block (name : Text) (context : Nat)
  | view (p : Portion) (mapping : Nat)
  | iterator (name : String) (i : Iterator)
  /-- Values with the key that they have in common. -/
  | group (key values : Value)
  | locals (around : Option Nat) (slots : List (Slot × Option Value))
  | context (changed given : List (Text × Value))
  deriving Repr

/-- A block of the template. -/
structure Block where
  required : Bool
  body : List Stmt
  deriving Repr

/-- Everything that changes while a template is filled. -/
structure Store where
  objects : Array Object
  /-- The pieces shown so far, the last one first; each has to be a text. -/
  shown : List Value
  /-- Whether text that is put together counts as escaped. -/
  escapes : Bool
  blocks : List (Text × Block)

/-- Why an expression has no value. -/
inductive Stop where
  | fault (f : Fault)
  /-- The value is not known before the template is filled. -/
  | unknown

/-- The working out of a value. -/
abbrev Eval := StateT Store (Except Stop)

namespace Eval

/-- Fails with a fault. -/
def fail {α : Type} (f : Fault) : Eval α := throw (.fault f)

/-- Fails with a mistake. -/
def wrong {α : Type} (m : Mistake) (wording : String) : Eval α := fail (.mistaken m wording)

/-- Fails because of the kind of a value. -/
def wrongType {α : Type} (wording : String) : Eval α := wrong .type wording

/-- Fails because of a value. -/
def wrongValue {α : Type} (wording : String) : Eval α := wrong .value wording

/-- Fails as a template that is used wrongly. -/
def refuse {α : Type} : Eval α := fail .malformedTemplate

/-- Takes over what another computation gives. -/
def ofExcept {α : Type} : Except Fault α → Eval α
  | .ok a => return a
  | .error f => fail f

/-- The value of a computation, or none if it fails with one of some mistakes. -/
def tryCatching {α : Type} (caught : List Mistake) (e : Eval α) : Eval (Option α) := fun s =>
  match e s with
  | .ok (a, s') => .ok (some a, s')
  | .error (.fault (.mistaken m w)) =>
    if caught.contains m then .ok (none, s) else .error (.fault (.mistaken m w))
  | .error (.fault f) =>
    if caught.contains .value && f.isContained then .ok (none, s) else .error (.fault f)
  | .error .unknown => .error .unknown

/-- Puts a new object into the store. -/
def allocate (o : Object) : Eval Nat := do
  let s ← get
  set { s with objects := s.objects.push o }
  return s.objects.size

/-- The object of a number. -/
def object? (id : Nat) : Eval (Option Object) := do
  return (← get).objects[id]?

/-- Replaces an object. -/
def replace (id : Nat) (o : Object) : Eval Unit :=
  modify fun s => { s with objects := s.objects.setIfInBounds id o }

/-- A new list. -/
def list (vs : List Value) : Eval Value := do return .object (← allocate (.list vs))

/-- A new mapping. -/
def mapping (entries : List (Value × Value)) : Eval Value := do
  return .object (← allocate (.mapping entries))

/-- A new iterator. -/
def iterator (name : String) (i : Iterator) : Eval Value := do
  return .object (← allocate (.iterator name i))

/-- Shows a piece. -/
def put (v : Value) : Eval Unit := modify fun s => { s with shown := v :: s.shown }

end Eval

/-- The kind of an object. -/
def Object.kind : Object → Kind
  | .list _ => .list
  | .mapping _ => .mapping
  | .fields _ => .fields
  | .cycler .. => .cycler
  | .joiner .. => .joiner
  | .loop _ => .loop
  | .again .. => .function
  | .routine _ => .routine
  | .template _ => .template
  | .block .. => .block
  | .view p _ => .view p
  | .iterator name _ => .iterator name
  | .group .. => .row
  | .locals .. | .context .. => .fields

/-- The kind of a value. -/
def Value.kind? (store : Store) : Value → Kind
  | .none => .none
  | .truth _ => .truth
  | .whole _ => .whole
  | .real _ => .real
  | .text _ => .text
  | .markup _ => .markup
  | .bytes _ => .bytes
  | .row _ => .row
  | .span .. => .span
  | .cut .. => .cut
  | .missing strict _ => if strict then .strict else .lenient
  | .object id => (store.objects[id]?.map Object.kind).getD .none
  | .method .. => .method
  | .function _ => .function
  | .kind _ => .kind

namespace Eval

/-- The kind of a value. -/
def kindOf (v : Value) : Eval Kind := do return v.kind? (← get)

/-- The name of the kind of a value. -/
def kindName (v : Value) : Eval String := do return (← kindOf v).name

/-- How messages name what a part is asked of. -/
def describe (v : Value) : Eval String := do
  match v with
  | .none => return "None"
  | v => return (← kindOf v).fullName ++ " object"

/-- Fails for want of a value. -/
def needs {α : Type} (complaint : Text) : Eval α := wrong .undefined (String.ofList complaint)

/-- The value that stands for a lack of one. -/
def lacking (complaint : String) : Value := .missing true complaint.toList

end Eval

/-- The text of a value that is a text. -/
def Value.text? : Value → Option Text
  | .text t | .markup t => some t
  | _ => Option.none

/-- Whether a value stands for the lack of one. -/
def Value.isMissing : Value → Bool
  | .missing .. => true
  | _ => false

/-- The integer of a value that is one; truth values count as zero and one. -/
def Value.int? : Value → Option Int
  | .whole n => some n
  | .truth b => some (if b then 1 else 0)
  | _ => Option.none

namespace Eval

/-- The texts of some pieces, which all have to be texts. -/
def joinPieces : Nat → List Value → Eval Text
  | _, [] => return []
  | i, v :: rest => do
    match v.text? with
    | some t => return t ++ (← joinPieces (i + 1) rest)
    | none =>
      wrongType ("sequence item " ++ toString i ++ ": expected str instance, " ++
        (← kindName v) ++ " found")

/-- What a computation shows, which is then not shown itself. -/
def captured (e : Eval Unit) : Eval Text := do
  let before := (← get).shown
  modify fun s => { s with shown := [] }
  e
  let pieces := (← get).shown
  modify fun s => { s with shown := before }
  joinPieces 0 pieces.reverse

end Eval

/-- A text as a value. -/
def Value.ofString (s : String) : Value := .text s.toList

/-- A literal as a value. -/
def Literal.value : Literal → Value
  | .none => .none
  | .truth b => .truth b
  | .whole n => .whole n
  | .real x => .real x
  | .text t => .text t
  | .markup t => .markup t

end LogCalls.Template
