/-
LogCalls/Template/Variables.lean

What names stand for while a template is filled.  A level of the template is
entered with its slots loaded; a name is read from the slot that its level
knows for it, in the variables at hand or in those around them, and assigned
there, at the top also in the surroundings.
-/
import LogCalls.Template.Machine

namespace LogCalls.Template

/-! ### Slots and surroundings -/

/-- What a slot holds, in some variables or in those around them. -/
def readSlot (id : Nat) (slot : Slot) : Eval (Option Value) := do
  match ← Eval.object? id with
  | some (.locals around slots) =>
    match slots.lookup slot, around with
    | some v, _ => return v
    | none, some a => if a < id then readSlot a slot else return none
    | none, none => return none
  | _ => return none
termination_by id

/-- Sets a slot in some variables. -/
def writeSlot (id : Nat) (slot : Slot) (v : Option Value) : Eval Unit := do
  match ← Eval.object? id with
  | some (.locals around slots) =>
    Eval.replace id (.locals around (Symbols.put slots slot v))
  | _ => return ()

/-- What the surroundings give a name. -/
def resolve (context : Nat) (name : Text) : Eval (Option Value) := do
  match ← Eval.object? context with
  | some (.context changed given) =>
    return (changed.lookup name).orElse fun _ => given.lookup name
  | _ => return none

/-- Gives a name a value in the surroundings. -/
def passOn (context : Nat) (name : Text) (v : Value) : Eval Unit := do
  match ← Eval.object? context with
  | some (.context changed given) =>
    Eval.replace context (.context (Symbols.put changed name v) given)
  | _ => return ()

/-- New surroundings that know more names. -/
def derived (context : Nat) (names : List (Text × Value)) : Eval Nat := do
  match ← Eval.object? context with
  | some (.context changed given) =>
    let all := (changed ++ names).foldl (fun l p => Symbols.put l p.1 p.2) given
    Eval.allocate (.context [] all)
  | _ => return context

namespace Frame

/-- The number of a level inside of the innermost one. -/
def nextLevel (f : Frame) : Nat := (f.levels.head?.map (·.level + 1)).getD 0

/-- An inner level. -/
def inner (f : Frame) (s : Symbols) : Frame := { f with levels := s :: f.levels, isTop := false }

/-- Loads a slot of a level that is entered. -/
def loadSlot (f : Frame) (slot : Slot) : Load → Eval Unit
  | .parameter => return ()
  | .resolve => do writeSlot f.locals slot (← resolve f.context slot.name)
  | .same other => do writeSlot f.locals slot (← readSlot f.locals other)
  | .nothing => writeSlot f.locals slot none

/-- Loads the slots of the innermost level. -/
def enter (f : Frame) : Eval Unit :=
  match f.levels with
  | s :: _ => s.loads.forM fun p => f.loadSlot p.1 p.2
  | [] => return ()

/-- Variables of their own inside of those at hand. -/
def withOwnVariables (f : Frame) : Eval Frame := do
  return { f with locals := ← Eval.allocate (.locals (some f.locals) []) }

/-- The value of a name. -/
def valueOf (f : Frame) (name : Text) : Eval Value := do
  let unknown := Eval.lacking (Text.quoted (String.ofList name) ++ " is undefined")
  match Symbols.find? f.levels name with
  | none => return unknown
  | some slot => return (← readSlot f.locals slot).getD unknown

/-- Sets a name. -/
def setName (f : Frame) (name : Text) (v : Value) : Eval Unit := do
  match Symbols.find? f.levels name with
  | some slot => writeSlot f.locals slot (some v)
  | none => return ()

/-- The values of the assigned names, for a block that sees them. -/
def localValues (f : Frame) : Eval (List (Text × Value)) :=
  (Symbols.assigned f.levels).filterMapM fun p => do
    return (← readSlot f.locals p.2).map fun v => (p.1, v)

end Frame

/-! ### Targets -/

namespace Machine

/-- The values that are assigned to a row of targets. -/
def unpacked (m : Machine) (count : Nat) (v : Value) : Eval (List Value) := do
  match ← iterator? v with
  | none => Eval.wrongType ("cannot unpack non-iterable " ++ (← Eval.kindName v) ++ " object")
  | some id =>
    let vs ← take id (count + 1)
    if vs.length < count then
      Eval.wrongValue ("not enough values to unpack (expected " ++ toString count ++ ", got " ++
        toString vs.length ++ ")")
    else if count < vs.length then
      Eval.wrongValue ("too many values to unpack (expected " ++ toString count ++ ")")
    else return vs
where
  /-- At most so many values of an iterator. -/
  take (id : Nat) : Nat → Eval (List Value)
    | 0 => return []
    | most + 1 => do
      match ← m.next id with
      | some w => return w :: (← take id most)
      | none => return []

mutual

/-- Sets a target to a value. -/
def assign (m : Machine) (f : Frame) : Target → Value → Eval Unit
  | .name s, v => f.setName s v
  | .field owner name, v => do
    match ← f.valueOf owner with
    | .object id =>
      match ← Eval.object? id with
      | some (.fields entries) => Eval.replace id (.fields (Symbols.put entries name v))
      | _ => Eval.refuse
    | _ => Eval.refuse
  | .row ts, v => do
    let vs ← m.unpacked ts.length v
    assignAll m f ts vs

/-- Sets some targets, one after the other. -/
def assignAll (m : Machine) (f : Frame) : List Target → List Value → Eval Unit
  | t :: ts, v :: vs => do
    assign m f t v
    assignAll m f ts vs
  | _, _ => return ()

end

/-- Fails unless the fields in a target belong to namespaces. -/
def requireFields (f : Frame) (t : Target) : Eval Unit :=
  t.owners.forM fun owner => do
    match ← f.valueOf owner with
    | .object id =>
      match ← Eval.object? id with
      | some (.fields _) => return ()
      | _ => Eval.refuse
    | _ => Eval.refuse

/-- Passes the names of a target on to the surroundings, at the top. -/
def exportNames (f : Frame) (t : Target) : Eval Unit := do
  if f.isTop then
    t.names.forM fun name => do
      match Symbols.find? f.levels name with
      | some slot =>
        match ← readSlot f.locals slot with
        | some v => passOn f.context name v
        | none => return ()
      | none => return ()

end Machine

/-! ### Small laws -/

@[simp] theorem Frame.inner_levels (f : Frame) (s : Symbols) :
    (f.inner s).levels = s :: f.levels := rfl

end LogCalls.Template
