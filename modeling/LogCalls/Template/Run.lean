/-
LogCalls/Template/Run.lean

Running the statements of a template.  The machine of a number of levels can
go so many levels deep; every expression and statement inside of another one,
and every call, is one level deeper.
-/
import LogCalls.Template.Evaluation

namespace LogCalls.Template

namespace Machine

/-! ### Showing -/

/-- The piece that shows a value. -/
def pieceOf (m : Machine) (v : Value) : Eval Value := do
  if (← get).escapes then return .markup (← m.escaped v) else return .text (← m.shown v)

/-- Shows some expressions.  Neighbours that are written out are one piece;
`pending` is such a piece. -/
def show_ (m : Machine) (f : Frame) (pending : Option Text) : List Expr → Eval Unit
  | [] =>
    match pending with
    | some t => Eval.put (.text t)
    | none => return ()
  | e :: rest => do
    let written? : Option Text ← match e with
      | .plain t => pure (if f.escapes.isSome then some t else none)
      | e =>
        match m.constant? f.escapes e (← get) with
        | none => pure none
        | some (v, s) =>
          match (if f.escapes == some true then m.escaped v else m.shown v).run s with
          | .ok (t, _) => pure (some t)
          | .error _ => pure none
    match written? with
    | some t => m.show_ f (some (pending.getD [] ++ t)) rest
    | none =>
      match pending with
      | some t => Eval.put (.text t)
      | none => pure ()
      Eval.put (← m.pieceOf (← m.eval f e))
      m.show_ f none rest

/-! ### Loops -/

/-- Whether a body has a block that sees the names around it. -/
def hasOpenBlock (body : List Stmt) : Bool :=
  (body.flatMap Stmt.all).any fun
    | .block _ seesLocals _ _ => seesLocals
    | _ => false

/-- What a loop is made of. -/
structure LoopParts where
  target : Target
  test : Option Expr
  body : List Stmt
  otherwise : List Stmt
  /-- Whether the body asks for the state of the loop. -/
  asks : Bool

/-- The parts of a loop. -/
def LoopParts.of (target : Target) (test : Option Expr) (recursive : Bool)
    (body otherwise : List Stmt) : LoopParts :=
  ⟨target, test, body, otherwise,
    recursive || !(undeclared body ["loop"]).isEmpty || hasOpenBlock (body ++ otherwise)⟩

/-- The level of the body of a loop. -/
def LoopParts.bodyLevel (l : LoopParts) (f : Frame) : Frame :=
  let s := Symbols.empty f.nextLevel
  let s := if l.asks then s.declare "loop".toList else s
  f.inner (Symbols.visitAll f.levels (s.declareTarget l.target) l.body)

/-- The values of a loop for which its test holds, as a value. -/
def LoopParts.source (l : LoopParts) (f : Frame) (v : Value) : Eval Value := do
  match l.test with
  | none => return v
  | some test =>
    let s := (Symbols.empty f.nextLevel).declareTarget l.target
    let g ← (f.inner (Symbols.readAll f.levels s test)).withOwnVariables
    g.enter
    later (.sift g l.target test v)

/-- Goes through the values of a loop, at most so many; says whether there was
one. -/
def turns (m : Machine) (f : Frame) (l : LoopParts) (next : Eval (Option Value))
    (state : Option Value) : Nat → Bool → Eval Bool
  | 0, any => return any
  | most + 1, any => do
    match ← next with
    | none => return any
    | some v =>
      m.assign f l.target v
      match state with
      | some s => f.setName "loop".toList s
      | none => pure ()
      f.enter
      m.run f l.body
      m.turns f l next state most true

/-- Runs a loop over a value. -/
def runLoop (m : Machine) (f : Frame) (l : LoopParts) (v : Value) (again : Option Nat)
    (depth : Nat) : Eval Unit := do
  let source ← l.source f v
  let id ← iterator source
  let g := l.bodyLevel f
  let any ← if l.asks then do
      let state ← Eval.allocate
        (.loop ⟨source, id, 0, none, none, none, none, none, again, depth⟩)
      m.turns g l (m.advance state) (some (.object state)) manyValues false
    else m.turns g l (m.next id) none manyValues false
  if !any && !l.otherwise.isEmpty then
    let h := f.inner (Symbols.visitAll f.levels (Symbols.empty f.nextLevel) l.otherwise)
    h.enter
    m.run h l.otherwise

/-- Runs a recursive loop over a value, and gives the text that it shows. -/
def runAgain (m : Machine) (id : Nat) (v : Value) (depth : Nat) : Eval Value := do
  match ← Eval.object? id with
  | some (.again f target test body otherwise) =>
    let g ← f.withOwnVariables
    let t ← Eval.captured
      (m.runLoop g (LoopParts.of target test true body otherwise) v (some id) depth)
    return if (← get).escapes then .markup t else .text t
  | _ => return .none

/-! ### Routines -/

/-- A routine as it is defined in a place. -/
def newRoutine (f : Frame) (name : Option Text) (parameters : List Text) (defaults : List Expr)
    (body : List Stmt) : Routine :=
  let special := undeclared body ["caller", "kwargs", "varargs"]
  let has (s : String) : Bool := special.contains s.toList
  let named (s : String) : Bool := parameters.contains s.toList
  let visit (s : Symbols) : Symbols :=
    Symbols.visitAll f.levels (defaults.foldl (Symbols.readAll f.levels) s) body
  let first := visit (parameters.foldl Symbols.declare (Symbols.empty f.nextLevel))
  let extra := (if has "caller" && !named "caller" then ["caller"] else []) ++
    (if has "kwargs" && !named "kwargs" then ["kwargs"] else []) ++
    (if has "varargs" && !named "varargs" then ["varargs"] else [])
  let symbols := visit (extra.foldl (fun s n => s.declare n.toList) first)
  { name, parameters, defaults, body
    frame := f.inner symbols
    takesCaller := has "caller"
    namesCaller := named "caller"
    takesNamed := extra.contains "kwargs"
    takesRest := extra.contains "varargs" }

/-! ### Statements -/

/-- A filter chain with its innermost operand filled in. -/
def withOperand (l : Literal) : Expr → Expr
  | .filtered none name given named spread spreadNamed =>
    .filtered (some (.literal l)) name given named spread spreadNamed
  | .filtered (some e) name given named spread spreadNamed =>
    .filtered (some (withOperand l e)) name given named spread spreadNamed
  | e => e

/-- Runs the first body whose condition holds. -/
def runBranch (m : Machine) (f : Frame) (otherwise : List Stmt) :
    List (Expr × List Stmt) → Eval Unit
  | [] => m.run f otherwise
  | (condition, body) :: rest => do
    if ← m.holds (← m.eval f condition) then m.run f body
    else m.runBranch f otherwise rest

/-- Sets the targets of a body with names of its own, one after the other. -/
def bindAll (m : Machine) (f inside : Frame) : List (Target × Expr) → Eval Unit
  | [] => return ()
  | (target, e) :: rest => do
    m.assign inside target (← m.eval f e)
    m.bindAll f inside rest

/-- Looks for another template, of which there is none. -/
def noTemplate {α : Type} : Eval α := Eval.wrongType "no loader for this environment specified"

/-- Looks for another template to show.  One that is looked for among no names is
not found. -/
def insertOther (m : Machine) (f : Frame) (e : Expr) (ignoreMissing : Bool) : Eval Unit := do
  match ← m.eval f e with
  | .missing _ complaint => Eval.needs complaint
  | .text _ | .markup _ => noTemplate
  | v =>
    if ← m.holds v then
      match ← m.items v with
      -- the complaint asks for the last of the names, which such a value cannot give
      | [] => Eval.wrongType ("'" ++ (← Eval.kindName v) ++ "' object is not subscriptable")
      | _ => noTemplate
    else if ignoreMissing then return ()
    else Eval.wrong .template "Tried to select from an empty list of templates."

/-- A text, as markup where texts are escaped. -/
def textOrMarkup (t : Text) : Eval Literal := do
  return if (← get).escapes then .markup t else .text t

/-- Runs a statement. -/
def runStmt (m : Machine) (f : Frame) (s : Stmt) : Eval Unit := do
  match s with
  | .output es => m.show_ f none es
  | .branch cases otherwise => m.runBranch f otherwise cases
  | .loop target items test recursive body otherwise =>
    let v ← m.eval f items
    if recursive then
      let id ← Eval.allocate (.again f target test body otherwise)
      Eval.put (← m.runAgain id v 0)
    else m.runLoop f (LoopParts.of target test false body otherwise) v none 0
  | .assign target value =>
    requireFields f target
    m.assign f target (← m.eval f value)
    exportNames f target
  | .capture target filter body =>
    let g := f.inner (Symbols.visitAll f.levels (Symbols.empty f.nextLevel) body)
    g.enter
    let t ← Eval.captured (m.run g body)
    let v ← match filter with
      | none => do pure (← textOrMarkup t).value
      | some e => do
        let w ← m.eval g (withOperand (← textOrMarkup t) e)
        if (← get).escapes then pure (.markup (← m.shown w)) else pure w
    m.assign f target v
    exportNames f target
  | .scope bindings body =>
    let s := bindings.foldl (fun s p => s.declareTarget p.1) (Symbols.empty f.nextLevel)
    let g := f.inner (Symbols.visitAll f.levels s body)
    g.enter
    m.bindAll f g bindings
    m.run g body
  | .escaping mode body =>
    let s := Symbols.visitAll f.levels (Symbols.readAll f.levels (Symbols.empty f.nextLevel) mode)
      body
    let g := f.inner s
    g.enter
    let before := (← get).escapes
    let on ← m.holds (← m.eval g mode)
    let known := (m.constant? g.escapes mode (← get)).isSome
    modify fun s => { s with escapes := on }
    m.run { g with escapes := if known then some on else none } body
    modify fun s => { s with escapes := before }
  | .block name seesLocals required _ =>
    if required then Eval.refuse
    let context ← if seesLocals then do derived f.context (← f.localValues) else pure f.context
    m.runBlock name context
  | .extend e | .borrow e _ =>
    let _ ← m.eval f e
    noTemplate
  | .insert e ignoreMissing => m.insertOther f e ignoreMissing
  | .routine name parameters defaults body =>
    let r := newRoutine f (some name) parameters defaults body
    let v : Value := .object (← Eval.allocate (.routine r))
    f.setName name v
    if f.isTop then passOn f.context name v
  | .callWith parameters defaults call body =>
    let r := newRoutine f none parameters defaults body
    let v : Value := .object (← Eval.allocate (.routine r))
    match call with
    | .call callee given named spread spreadNamed =>
      Eval.put (← m.callOf f callee given named spread spreadNamed [("caller".toList, v)])
    | _ => return ()
  | .filterBody filter body =>
    let s := Symbols.visitAll f.levels (Symbols.empty f.nextLevel) body
    let g := f.inner (Symbols.readAll f.levels s filter)
    g.enter
    let t ← Eval.captured (m.run g body)
    Eval.put (← m.eval g (withOperand (← textOrMarkup t) filter))

end Machine

/-! ### Machines -/

/-- The wording of a limit on levels. -/
def tooDeep : String := "maximum recursion depth exceeded"

/-- The machine of a number of levels. -/
def machine : Nat → Machine
  | 0 =>
    { call := fun _ _ => Eval.wrong .depth tooDeep
      next := fun _ => Eval.wrong .depth tooDeep
      filter := fun _ _ _ => Eval.wrong .depth tooDeep
      test := fun _ _ _ => Eval.wrong .depth tooDeep
      eval := fun _ _ => Eval.wrong .depth tooDeep
      run := fun _ _ => Eval.wrong .depth tooDeep }
  | level + 1 =>
    -- the store stands as an argument, so that a level is made only where it is used
    { call := fun v a s => (machine level).callValue (machine level).runAgain v a s
      next := fun id s => (machine level).nextOf id s
      filter := fun name v a s => (machine level).applyFilter name v a s
      test := fun name v a s => (machine level).applyTest name v a s
      eval := fun f e s => (machine level).evaluate f e s
      run := fun f body s => (body.forM ((machine level).runStmt f)) s }

/-- How many levels deep a template may go. -/
def levels : Nat := 900

end LogCalls.Template
