/-
LogCalls/Template/Names.lean

Which variable a name means.  A part of a template with names of its own is a
level; each level has a slot for every name that is assigned in it or that no
level around it knows.  What a slot holds before the first assignment is fixed
in advance: a parameter, what the surroundings give the name, the slot of a
level further out, or nothing.
-/
import LogCalls.Template.Tree

namespace LogCalls.Template

/-- The variable of a name on a level. -/
structure Slot where
  level : Nat
  name : Text
  deriving DecidableEq, Repr

/-- What a slot holds when its level is entered. -/
inductive Load where
  /-- Set before the level is entered. -/
  | parameter
  /-- What the surroundings of the template give the name. -/
  | resolve
  /-- What another slot holds. -/
  | same (s : Slot)
  | nothing
  deriving DecidableEq, Repr

/-- The names of a level. -/
structure Symbols where
  level : Nat
  refs : List (Text × Slot)
  loads : List (Slot × Load)
  stores : List Text
  deriving DecidableEq, Repr

namespace Symbols

/-- A level without names. -/
def empty (level : Nat) : Symbols := ⟨level, [], [], []⟩

/-- The entry for a key replaced, or added at the end. -/
def put {α β : Type} [BEq α] (l : List (α × β)) (k : α) (v : β) : List (α × β) :=
  if l.any fun p => p.1 == k then l.map fun p => if p.1 == k then (k, v) else p
  else l ++ [(k, v)]

/-- The slot of a name on some levels, the innermost first. -/
def find? : List Symbols → Text → Option Slot
  | [], _ => none
  | s :: outer, name => (s.refs.lookup name).orElse fun _ => find? outer name

/-- Gives a name a slot of this level. -/
def define (s : Symbols) (name : Text) (load : Load) : Symbols :=
  let slot : Slot := ⟨s.level, name⟩
  { s with refs := put s.refs name slot, loads := put s.loads slot load }

/-- Notes that a name is read. -/
def read (outer : List Symbols) (s : Symbols) (name : Text) : Symbols :=
  if (find? (s :: outer) name).isSome then s else s.define name .resolve

/-- Notes that a name is assigned. -/
def store (outer : List Symbols) (s : Symbols) (name : Text) : Symbols :=
  let s := if s.stores.contains name then s else { s with stores := s.stores ++ [name] }
  if (s.refs.lookup name).isSome then s
  else
    match find? outer name with
    | some slot => s.define name (.same slot)
    | none => s.define name .nothing

/-- Notes that a name is a parameter. -/
def declare (s : Symbols) (name : Text) : Symbols :=
  let s := if s.stores.contains name then s else { s with stores := s.stores ++ [name] }
  s.define name .parameter

/-- Notes the names that an expression reads. -/
def readAll (outer : List Symbols) (s : Symbols) (e : Expr) : Symbols :=
  e.names.foldl (read outer) s

/-- Notes the names in a target that is assigned. -/
def storeTarget (outer : List Symbols) (s : Symbols) (t : Target) : Symbols :=
  t.names.foldl (store outer) (t.owners.foldl (read outer) s)

/-- Notes the names in a target as parameters. -/
def declareTarget (s : Symbols) (t : Target) : Symbols := t.names.foldl declare s

/-- Joins what alternatives note.  A name that one of them assigns holds before
what it holds around them. -/
def join (outer : List Symbols) (s : Symbols) (alternatives : List Symbols) : Symbols :=
  let fresh := (alternatives.flatMap (·.stores)).filter fun n => !s.stores.contains n
  let merged := alternatives.foldl (fun s a =>
    { s with
      refs := a.refs.foldl (fun l p => put l p.1 p.2) s.refs
      loads := a.loads.foldl (fun l p => put l p.1 p.2) s.loads
      stores := a.stores.foldl (fun l n => if l.contains n then l else l ++ [n]) s.stores }) s
  fresh.foldl (fun s n =>
    match find? (s :: outer) n with
    | none => s
    | some target =>
      match find? outer n with
      | some slot => { s with loads := put s.loads target (.same slot) }
      | none => { s with loads := put s.loads target .resolve }) merged

mutual

/-- Notes the names of a statement that belong to the level around it. -/
def visit (outer : List Symbols) (s : Symbols) : Stmt → Symbols
  | .output es => es.foldl (readAll outer) s
  | .branch [] otherwise => visitAll outer s otherwise
  | .branch ((condition, body) :: rest) otherwise =>
    let s := readAll outer s condition
    join outer s [visitAll outer s body, visitCases outer s rest, visitAll outer s otherwise]
  | .loop _ items _ _ _ _ => readAll outer s items
  | .assign target value => storeTarget outer (readAll outer s value) target
  | .capture target _ _ => storeTarget outer s target
  | .scope bindings _ => bindings.foldl (fun s p => readAll outer s p.2) s
  | .escaping .. => s
  | .block .. => s
  | .extend e | .insert e _ => readAll outer s e
  | .borrow e names => names.foldl (store outer) (readAll outer s e)
  | .routine name _ _ _ => store outer s name
  | .callWith _ _ call _ => readAll outer s call
  | .filterBody filter _ => readAll outer s filter

/-- Notes the names of some statements. -/
def visitAll (outer : List Symbols) (s : Symbols) : List Stmt → Symbols
  | [] => s
  | stmt :: rest => visitAll outer (visit outer s stmt) rest

/-- Notes the names of further alternatives, one after the other. -/
def visitCases (outer : List Symbols) (s : Symbols) : List (Expr × List Stmt) → Symbols
  | [] => s
  | (condition, body) :: rest =>
    let s := readAll outer s condition
    visitCases outer (join outer s [visitAll outer s body, s, s]) rest

end

/-- All assigned names of some levels with their slots, the innermost first. -/
def assigned (levels : List Symbols) : List (Text × Slot) :=
  let names := levels.flatMap (·.stores)
  names.eraseDups.filterMap fun n => (find? levels n).map fun slot => (n, slot)

end Symbols

/-! ### Names that a body takes from around it -/

/-- The state of a search for names: those still looked for, and those found. -/
structure Search where
  wanted : List Text
  found : List Text

namespace Search

/-- A name is read. -/
def read (s : Search) (name : Text) : Search :=
  if s.wanted.contains name && !s.found.contains name then { s with found := s.found ++ [name] }
  else s

/-- A name is assigned, and is not looked for any longer. -/
def store (s : Search) (name : Text) : Search := { s with wanted := s.wanted.filter (· != name) }

/-- The names of an expression. -/
def readAll (s : Search) (e : Expr) : Search := e.names.foldl read s

/-- The names of a target. -/
def storeAll (s : Search) (t : Target) : Search := t.names.foldl store s

mutual

/-- The names of a statement; blocks are not entered. -/
def visit (s : Search) : Stmt → Search
  | .output es => es.foldl readAll s
  | .branch cases otherwise => visitAll (visitCases s cases) otherwise
  | .loop target items test _ body otherwise =>
    let s := visitAll (visitAll ((s.storeAll target).readAll items) body) otherwise
    (optional test).foldl readAll s
  | .assign target value => (s.storeAll target).readAll value
  | .capture target filter body => visitAll ((optional filter).foldl readAll (s.storeAll target)) body
  | .scope bindings body =>
    let s := bindings.foldl (fun s p => s.storeAll p.1) s
    visitAll (bindings.foldl (fun s p => s.readAll p.2) s) body
  | .escaping mode body => visitAll (s.readAll mode) body
  | .block .. => s
  | .extend e | .insert e _ | .borrow e _ => s.readAll e
  | .routine _ parameters defaults body =>
    visitAll (defaults.foldl readAll (parameters.foldl store s)) body
  | .callWith parameters defaults call body =>
    visitAll (defaults.foldl readAll (parameters.foldl store (s.readAll call))) body
  | .filterBody filter body => (visitAll s body).readAll filter

/-- The names of some statements. -/
def visitAll (s : Search) : List Stmt → Search
  | [] => s
  | stmt :: rest => visitAll (visit s stmt) rest

/-- The names of some alternatives. -/
def visitCases (s : Search) : List (Expr × List Stmt) → Search
  | [] => s
  | (condition, body) :: rest => visitCases (visitAll (s.readAll condition) body) rest

end

end Search

/-- Which of some names a body reads without assigning them before. -/
def undeclared (body : List Stmt) (names : List String) : List Text :=
  (Search.visitAll ⟨names.map String.toList, []⟩ body).found

/-- The names of the body of a block. -/
def blockSymbols (body : List Stmt) : Symbols :=
  Symbols.visitAll []
    ((undeclared body ["self", "super"]).foldl Symbols.declare (Symbols.empty 0)) body

/-- The names of a template. -/
def templateSymbols (body : List Stmt) : Symbols :=
  Symbols.visitAll [] ((undeclared body ["self"]).foldl Symbols.declare (Symbols.empty 0)) body

/-! ### Small laws -/

theorem Symbols.find?_define_self (s : Symbols) (outer : List Symbols) (name : Text) (load : Load) :
    Symbols.find? (s.define name load :: outer) name = some ⟨s.level, name⟩ := by
  have key : ∀ l : List (Text × Slot),
      (Symbols.put l name ⟨s.level, name⟩).lookup name = some ⟨s.level, name⟩ := by
    intro l
    unfold Symbols.put
    split
    case isTrue h =>
      induction l with
      | nil => simp at h
      | cons p r ih =>
        by_cases hp : p.1 == name
        · simp only [List.map_cons, hp, if_true, List.lookup_cons, beq_self_eq_true]
        · simp only [List.any_cons, hp, Bool.false_or] at h
          have hn : (name == p.1) = false := by
            simp only [beq_eq_false_iff_ne, ne_eq]
            intro e
            exact hp (by simp [e])
          simp only [List.map_cons, hp, Bool.false_eq_true, if_false]
          rw [show p = (p.1, p.2) from rfl, List.lookup_cons, hn]
          exact ih h
    case isFalse h =>
      induction l with
      | nil => simp
      | cons p r ih =>
        simp only [List.any_cons, Bool.or_eq_true, not_or] at h
        have hn : (name == p.1) = false := by
          simp only [beq_eq_false_iff_ne, ne_eq]
          intro e
          exact h.1 (by simp [e])
        rw [List.cons_append, show p = (p.1, p.2) from rfl, List.lookup_cons, hn]
        exact ih h.2
  simp [Symbols.find?, Symbols.define, key]

end LogCalls.Template
