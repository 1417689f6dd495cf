/-
LogCalls/Template/Tree.lean

What a template says: expressions that have values, and statements that show
text, choose, repeat, assign, and define blocks and routines.
-/
import LogCalls.Decimal.Binary64
import LogCalls.Text.Blank

namespace LogCalls.Template

/-- A value that is written out. -/
inductive Literal where
  | none
  | truth (b : Bool)
  | whole (n : Int)
  | real (x : Binary64)
  | text (t : Text)
  /-- A text that counts as escaped already. -/
  | markup (t : Text)
  deriving DecidableEq, Repr

/-- The operations with one operand. -/
inductive UnaryOp where
  | negative
  | positive
  | negation
  deriving DecidableEq, Repr

/-- The operations with two operands. -/
inductive BinaryOp where
  | add
  | sub
  | mul
  | div
  | floorDiv
  | mod
  | pow
  deriving DecidableEq, Repr

/-- The ways to compare two values. -/
inductive Relation where
  | eq
  | ne
  | lt
  | le
  | gt
  | ge
  | isIn
  | notIn
  deriving DecidableEq, Repr

/-- An expression of a template. -/
inductive Expr where
  /-- Text of the template outside of all marks. -/
  | plain (t : Text)
  | literal (l : Literal)
  | name (s : Text)
  /-- Values in a row that cannot be changed. -/
  | row (es : List Expr)
  | list (es : List Expr)
  | mapping (entries : List (Expr × Expr))
  | part (e : Expr) (name : Text)
  | item (e key : Expr)
  /-- A part of a row of values, by its ends and its step. -/
  | cut (start stop step : Option Expr)
  | call (callee : Expr) (given : List Expr) (named : List (Text × Expr))
      (spread spreadNamed : Option Expr)
  /-- A filter; without an operand it applies to the text of a block. -/
  | filtered (operand : Option Expr) (filter : Text) (given : List Expr)
      (named : List (Text × Expr)) (spread spreadNamed : Option Expr)
  | tested (operand : Expr) (test : Text) (given : List Expr) (named : List (Text × Expr))
      (spread spreadNamed : Option Expr)
  | unary (op : UnaryOp) (e : Expr)
  | binary (op : BinaryOp) (a b : Expr)
  | both (a b : Expr)
  | either (a b : Expr)
  | compare (e : Expr) (steps : List (Relation × Expr))
  /-- The texts of some values, joined. -/
  | joined (es : List Expr)
  /-- One of two values, or none where the second is missing. -/
  | choice (line : Nat) (condition yes : Expr) (no : Option Expr)
  deriving Repr

/-- What is assigned to. -/
inductive Target where
  | name (s : Text)
  /-- A field of a namespace. -/
  | field (owner name : Text)
  | row (ts : List Target)
  deriving Repr

/-- A statement of a template. -/
inductive Stmt where
  | output (es : List Expr)
  /-- The first body whose condition holds, or else the last one. -/
  | branch (cases : List (Expr × List Stmt)) (otherwise : List Stmt)
  | loop (target : Target) (items : Expr) (test : Option Expr) (recursive : Bool)
      (body otherwise : List Stmt)
  | assign (target : Target) (value : Expr)
  /-- Assigns the text of a body. -/
  | capture (target : Target) (filter : Option Expr) (body : List Stmt)
  | scope (bindings : List (Target × Expr)) (body : List Stmt)
  /-- A body in which shown values are escaped, or are not. -/
  | escaping (mode : Expr) (body : List Stmt)
  | block (name : Text) (seesLocals required : Bool) (body : List Stmt)
  | extend (template : Expr)
  | insert (template : Expr) (ignoreMissing : Bool)
  /-- Takes names from another template. -/
  | borrow (template : Expr) (names : List Text)
  | routine (name : Text) (parameters : List Text) (defaults : List Expr) (body : List Stmt)
  /-- Calls a routine that may show the body. -/
  | callWith (parameters : List Text) (defaults : List Expr) (call : Expr) (body : List Stmt)
  | filterBody (filter : Expr) (body : List Stmt)
  deriving Repr

/-! ### Parts -/

/-- The expressions in an optional expression. -/
def optional : Option Expr → List Expr
  | some e => [e]
  | none => []

/-- The expressions directly inside of an expression. -/
def Expr.children : Expr → List Expr
  | .plain _ | .literal _ | .name _ => []
  | .row es | .list es | .joined es => es
  | .mapping entries => entries.flatMap fun p => [p.1, p.2]
  | .part e _ | .unary _ e => [e]
  | .item e key => [e, key]
  | .cut start stop step => optional start ++ optional stop ++ optional step
  | .call callee given named spread spreadNamed =>
    callee :: given ++ named.map (·.2) ++ optional spread ++ optional spreadNamed
  | .filtered operand _ given named spread spreadNamed =>
    optional operand ++ given ++ named.map (·.2) ++ optional spread ++ optional spreadNamed
  | .tested operand _ given named spread spreadNamed =>
    operand :: given ++ named.map (·.2) ++ optional spread ++ optional spreadNamed
  | .binary _ a b | .both a b | .either a b => [a, b]
  | .compare e steps => e :: steps.map (·.2)
  | .choice _ condition yes no => condition :: yes :: optional no

theorem sizeOf_lt_of_mem_optional {e : Expr} {o : Option Expr} (h : e ∈ optional o) :
    sizeOf e < sizeOf o := by
  cases o with
  | none => simp [optional] at h
  | some d =>
    simp only [optional, List.mem_singleton] at h
    subst h
    simp

theorem sizeOf_lt_of_mem_named {e : Expr} {l : List (Text × Expr)} (h : e ∈ l.map (·.2)) :
    sizeOf e < sizeOf l := by
  obtain ⟨p, hp, rfl⟩ := List.mem_map.mp h
  have := List.sizeOf_lt_of_mem hp
  cases p
  simp_all
  omega

/-- What stands inside of an expression is smaller. -/
theorem Expr.sizeOf_lt_of_mem_children {e d : Expr} (h : d ∈ e.children) : sizeOf d < sizeOf e := by
  cases e <;> simp only [children, List.mem_append, List.mem_cons, List.not_mem_nil, or_false] at h
  case row es | list es | joined es =>
    have := List.sizeOf_lt_of_mem h
    simp; omega
  case mapping entries =>
    obtain ⟨p, hp, hd⟩ := List.mem_flatMap.mp h
    have := List.sizeOf_lt_of_mem hp
    cases p
    simp only [List.mem_cons, List.not_mem_nil, or_false] at hd
    rcases hd with rfl | rfl <;> simp_all <;> omega
  case part | unary => subst h; simp <;> omega
  case item | binary | both | either =>
    rcases h with rfl | rfl
    all_goals
      simp only [item.sizeOf_spec, binary.sizeOf_spec, both.sizeOf_spec, either.sizeOf_spec]
      omega
  case cut =>
    rcases h with (h | h) | h <;> have := sizeOf_lt_of_mem_optional h <;> simp <;> omega
  case call =>
    rcases h with (((rfl | h) | h) | h) | h
    · simp; omega
    · have := List.sizeOf_lt_of_mem h; simp; omega
    · have := sizeOf_lt_of_mem_named h; simp; omega
    · have := sizeOf_lt_of_mem_optional h; simp; omega
    · have := sizeOf_lt_of_mem_optional h; simp; omega
  case filtered =>
    rcases h with (((h | h) | h) | h) | h
    · have := sizeOf_lt_of_mem_optional h; simp; omega
    · have := List.sizeOf_lt_of_mem h; simp; omega
    · have := sizeOf_lt_of_mem_named h; simp; omega
    · have := sizeOf_lt_of_mem_optional h; simp; omega
    · have := sizeOf_lt_of_mem_optional h; simp; omega
  case tested =>
    rcases h with (((rfl | h) | h) | h) | h
    · simp; omega
    · have := List.sizeOf_lt_of_mem h; simp; omega
    · have := sizeOf_lt_of_mem_named h; simp; omega
    · have := sizeOf_lt_of_mem_optional h; simp; omega
    · have := sizeOf_lt_of_mem_optional h; simp; omega
  case compare e steps =>
    rcases h with rfl | h
    · simp; omega
    · obtain ⟨p, hp, rfl⟩ := List.mem_map.mp h
      have := List.sizeOf_lt_of_mem hp
      cases p
      simp_all
      omega
  case choice =>
    rcases h with rfl | rfl | h
    · simp; omega
    · simp; omega
    · have := sizeOf_lt_of_mem_optional h; simp; omega

/-- The names that an expression reads, in order, with repetitions. -/
def Expr.names (e : Expr) : List Text :=
  match e with
  | .name s => [s]
  | e => e.children.attach.flatMap fun d => d.val.names
termination_by e
decreasing_by exact Expr.sizeOf_lt_of_mem_children d.property

/-- The names in a target, in order. -/
def Target.names : Target → List Text
  | .name s => [s]
  | .field .. => []
  | .row ts => namesOf ts
where
  /-- The names in some targets. -/
  namesOf : List Target → List Text
    | [] => []
    | t :: r => t.names ++ namesOf r

/-- The namespaces in a target, in order. -/
def Target.owners : Target → List Text
  | .name _ => []
  | .field owner _ => [owner]
  | .row ts => ownersOf ts
where
  /-- The namespaces in some targets. -/
  ownersOf : List Target → List Text
    | [] => []
    | t :: r => t.owners ++ ownersOf r

/-- The bodies inside of a statement, in order. -/
def Stmt.bodies : Stmt → List (List Stmt)
  | .output _ | .assign .. | .extend _ | .insert .. | .borrow .. => []
  | .branch cases otherwise => cases.map (·.2) ++ [otherwise]
  | .loop _ _ _ _ body otherwise => [body, otherwise]
  | .capture _ _ body | .scope _ body | .escaping _ body | .block _ _ _ body
  | .routine _ _ _ body | .callWith _ _ _ body | .filterBody _ body => [body]

/-- What stands in a body of a statement is smaller. -/
theorem Stmt.sizeOf_lt_of_mem_bodies {s d : Stmt} {body : List Stmt} (hb : body ∈ s.bodies)
    (hd : d ∈ body) : sizeOf d < sizeOf s := by
  have small := List.sizeOf_lt_of_mem hd
  cases s <;>
    simp only [bodies, List.mem_append, List.mem_cons, List.not_mem_nil, or_false, List.mem_map]
      at hb
  case branch cases otherwise =>
    rcases hb with ⟨p, hp, rfl⟩ | rfl
    · have := List.sizeOf_lt_of_mem hp
      cases p
      simp_all
      omega
    · simp; omega
  case loop => rcases hb with rfl | rfl <;> simp <;> omega
  all_goals subst hb; simp; omega

/-- All statements in a statement, itself first. -/
def Stmt.all (s : Stmt) : List Stmt :=
  s :: s.bodies.attach.flatMap fun b => b.val.attach.flatMap fun d => d.val.all
termination_by s
decreasing_by exact Stmt.sizeOf_lt_of_mem_bodies b.property d.property

end LogCalls.Template
