/-
LogCalls/Template/Check.lean

What has to be right before a template is filled.  A filter or test that does
not exist is refused, except in the arms of a condition, where it fails only
when it is reached, and except where the value around it is known from what is
written out.  Blocks have one body each, and a loop keeps its own name.
-/
import LogCalls.Template.Run

namespace LogCalls.Template

/-- Where in a template something stands. -/
structure Spot where
  levels : List Symbols
  /-- Whether it may never be reached. -/
  isArm : Bool
  escapes : Option Bool
  isTop : Bool

/-- The store before anything is known. -/
def emptyStore : Store := ⟨#[], [], false, []⟩

/-- Whether a value has a written form that means it, looked at down to a depth. -/
def isPlain (s : Store) : Nat → Value → Bool
  | 0, _ => false
  | depth + 1, v =>
    match v with
    | .none | .truth _ | .whole _ | .real _ | .text _ | .markup _ | .span .. => true
    | .row vs => vs.all (isPlain s depth)
    | .object id =>
      match s.objects[id]? with
      | some (.list vs) => vs.all (isPlain s depth)
      | some (.mapping entries) => entries.all fun p => isPlain s depth p.1 && isPlain s depth p.2
      | _ => false
    | _ => false

/-- Whether expressions of a form are replaced by their value where it is known. -/
def Expr.isReducible : Expr → Bool
  | .part .. | .item .. | .filtered .. | .tested .. | .unary .. | .binary .. | .both .. | .either ..
  | .compare .. | .joined _ | .choice .. => true
  | _ => false

/-- Whether an expression is replaced by its value. -/
def isReduced (m : Machine) (escapes : Option Bool) (e : Expr) : Bool :=
  e.isReducible &&
    match m.constant? escapes e emptyStore with
    | some (v, s) => isPlain s 100 v
    | none => false

/-- Checks the filters and tests of an expression. -/
def checkExpr (m : Machine) (isArm : Bool) (escapes : Option Bool) (e : Expr) :
    Except Fault Unit :=
  if isReduced m escapes e then return ()
  else do
    let known := match e with
      | .filtered _ name _ _ _ _ => isFilter name
      | .tested _ name _ _ _ _ => isTest name
      | _ => true
    if !known && !isArm then throw .malformedTemplate
    let inArm := isArm || match e with
      | .choice .. => true
      | _ => false
    e.children.attach.forM fun d => checkExpr m inArm escapes d.val
termination_by e
decreasing_by exact Expr.sizeOf_lt_of_mem_children d.property

namespace Spot

/-- Checks an expression. -/
def expr (p : Spot) (m : Machine) (e : Expr) : Except Fault Unit := checkExpr m p.isArm p.escapes e

/-- Checks an expression that is shown.  What is written out is shown at once. -/
def shown (p : Spot) (m : Machine) (e : Expr) : Except Fault Unit :=
  match e with
  | .plain _ => return ()
  | e =>
    match m.constant? p.escapes e emptyStore with
    | none => p.expr m e
    | some (v, s) =>
      match (if p.escapes == some true then m.escaped v else m.shown v).run s with
      | .ok _ => return ()
      | .error (.fault f) => throw f
      | .error .unknown => return ()

/-- An inner place. -/
def inner (p : Spot) (s : Symbols) : Spot :=
  { p with levels := s :: p.levels, isArm := false, isTop := false }

/-- The number of a level inside of the innermost one. -/
def nextLevel (p : Spot) : Nat := (p.levels.head?.map (·.level + 1)).getD 0

/-- A place inside of a body with the given names. -/
def inside (p : Spot) (s : Symbols) (body : List Stmt) : Spot :=
  p.inner (Symbols.visitAll p.levels s body)

end Spot

/-- Whether the parameters of a routine name the caller without a default, while
its body asks for it. -/
def asksBareCaller (parameters : List Text) (defaults : List Expr) (body : List Stmt) : Bool :=
  !(undeclared body ["caller"]).isEmpty &&
    match parameters.findIdx? (· == "caller".toList) with
    | some i => decide (i < parameters.length - defaults.length)
    | none => false

/-- The names that a statement and those inside of it assign. -/
def Stmt.assignedNames (s : Stmt) : List Text :=
  s.all.flatMap fun
    | .assign target _ | .capture target _ _ | .loop target _ _ _ _ _ => target.names
    | _ => []

mutual

/-- Checks a statement. -/
def checkStmt (m : Machine) (p : Spot) : Stmt → Except Fault Unit
  | .output es => es.forM (p.shown m)
  | .branch cases otherwise => do
    let q := { p with isArm := true }
    checkCases m q cases
    checkAll m q otherwise
  | .loop target items test recursive body otherwise => do
    let parts := Machine.LoopParts.of target test recursive body otherwise
    if (Stmt.loop target items test recursive body otherwise).assignedNames.contains "loop".toList
      then throw .malformedTemplate
    let s := Symbols.empty p.nextLevel
    match test with
    | some e => (p.inner ((Symbols.readAll p.levels (s.declareTarget target) e))).expr m e
    | none => pure ()
    p.expr m items
    let s' := if parts.asks then s.declare "loop".toList else s
    checkAll m (p.inside (s'.declareTarget target) body) body
    checkAll m (p.inside s otherwise) otherwise
  | .assign _ value => p.expr m value
  | .capture _ filter body => do
    let q := p.inside (Symbols.empty p.nextLevel) body
    checkAll m q body
    match filter with
    | none => return ()
    | some e =>
      match e.names.find? fun n => (Symbols.find? q.levels n).isNone with
      | some n =>
        throw (.mistaken .assertion
          ("Tried to resolve a name to a reference that was unknown to the frame (" ++
            Text.quoted (String.ofList n) ++ ")"))
      | none => q.expr m e
  | .scope bindings body => do
    bindings.forM fun b => p.expr m b.2
    let s := bindings.foldl (fun s b => s.declareTarget b.1) (Symbols.empty p.nextLevel)
    checkAll m (p.inside s body) body
  | .escaping mode body => do
    let s := Symbols.readAll p.levels (Symbols.empty p.nextLevel) mode
    let q := p.inside s body
    q.expr m mode
    let escapes : Option Bool := match m.constant? q.escapes mode emptyStore with
      | some (v, store) =>
        match (m.holds v).run store with
        | .ok (b, _) => some b
        | .error _ => some false
      | none => none
    checkAll m { q with escapes } body
  | .block .. => return ()
  | .extend e => do
    if !p.isTop then throw .malformedTemplate
    p.expr m e
  | .insert e _ | .borrow e _ => p.expr m e
  | .routine _ parameters defaults body => do
    if asksBareCaller parameters defaults body then throw .malformedTemplate
    let s := parameters.foldl Symbols.declare (Symbols.empty p.nextLevel)
    let q := p.inside (defaults.foldl (Symbols.readAll p.levels) s) body
    defaults.forM (q.expr m)
    checkAll m q body
  | .callWith parameters defaults call body => do
    if asksBareCaller parameters defaults body then throw .malformedTemplate
    let s := parameters.foldl Symbols.declare (Symbols.empty p.nextLevel)
    let q := p.inside (defaults.foldl (Symbols.readAll p.levels) s) body
    defaults.forM (q.expr m)
    checkAll m q body
    p.expr m call
  | .filterBody filter body => do
    let s := Symbols.visitAll p.levels (Symbols.empty p.nextLevel) body
    let q := p.inner (Symbols.readAll p.levels s filter)
    checkAll m q body
    q.expr m filter

/-- Checks some statements. -/
def checkAll (m : Machine) (p : Spot) : List Stmt → Except Fault Unit
  | [] => return ()
  | s :: rest => do
    checkStmt m p s
    checkAll m p rest

/-- Checks some alternatives. -/
def checkCases (m : Machine) (p : Spot) : List (Expr × List Stmt) → Except Fault Unit
  | [] => return ()
  | (condition, body) :: rest => do
    p.expr m condition
    checkAll m p body
    checkCases m p rest

end

/-! ### Blocks -/

/-- The blocks of a template, in order. -/
def blocksOf (body : List Stmt) : List (Text × Block) :=
  (body.flatMap Stmt.all).filterMap fun
    | .block name _ required inner => some (name, ⟨required, inner⟩)
    | _ => none

/-- Whether a name is that of two blocks. -/
def hasTwice : List Text → Bool
  | [] => false
  | name :: rest => rest.contains name || hasTwice rest

/-- Checks a template, and gives its blocks. -/
def check (m : Machine) (body : List Stmt) : Except Fault (List (Text × Block)) := do
  let blocks := blocksOf body
  if hasTwice (blocks.map (·.1)) then throw .malformedTemplate
  checkAll m ⟨[templateSymbols body], false, some false, true⟩ body
  blocks.forM fun b => checkAll m ⟨[blockSymbols b.2.body], false, some false, false⟩ b.2.body
  return blocks

/-! ### Small laws -/

theorem hasTwice_eq_false_iff (names : List Text) : hasTwice names = false ↔ names.Nodup := by
  induction names with
  | nil => simp [hasTwice]
  | cons name rest ih => simp [hasTwice, ih]

end LogCalls.Template
