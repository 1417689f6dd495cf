/-
LogCalls/Template/Reader.lean

The statements that the tokens of a template write.  Each rule of the grammar
is a reader of tokens; rules that contain themselves go through a `Grammar`,
the readers that are one level deeper in the template.
-/
import LogCalls.Template.Token
import LogCalls.Template.Tree

namespace LogCalls.Template

/-- A reader of tokens. -/
abbrev Read := StateT (List Lexeme) (Except Fault)

/-- The readers of what stands one level deeper. -/
structure Grammar where
  /-- An expression, with a condition behind it where one is allowed. -/
  expr : Bool → Read Expr
  /-- An expression after `not`. -/
  negation : Read Expr
  /-- An expression after a sign, without filters. -/
  signed : Read Expr
  /-- A target in parentheses. -/
  target : Read Target
  /-- Statements up to a tag with one of the given words. -/
  body : List String → Read (List Stmt)

namespace Read

/-- The current token. -/
def peek : Read (Option Token) := do
  return (← get).head?.map (·.token)

/-- The token after the current one. -/
def look : Read (Option Token) := do
  return (← get)[1]?.map (·.token)

/-- The line of the current token. -/
def line : Read Nat := do
  return ((← get).head?.map (·.line)).getD 1

/-- Refuses the template, for the reason that the current token gives if it is
where the template breaks. -/
def fail {α : Type} : Read α := do
  match ← peek with
  | some (.broken f) => throw f
  | _ => throw .malformedTemplate

/-- Goes on to the next token. -/
def advance : Read Unit := modify (·.drop 1)

/-- Whether the current token is the given one, which is then read. -/
def skip? (t : Token) : Read Bool := do
  if (← peek) == some t then advance; return true
  else return false

/-- Reads the given token. -/
def expect (t : Token) : Read Unit := do
  if ← skip? t then return () else fail

/-- Whether the current token is the given word. -/
def atWord (w : String) : Read Bool := do
  return (← peek) == some (.word w.toList)

/-- Whether the current token is the given sign. -/
def atSign (s : String) : Read Bool := do
  return (← peek) == some (.sign s.toList)

/-- Whether the current token is the given word, which is then read. -/
def skipWord? (w : String) : Read Bool := skip? (.word w.toList)

/-- Whether the current token is the given sign, which is then read. -/
def skipSign? (s : String) : Read Bool := skip? (.sign s.toList)

/-- Reads the given word. -/
def expectWord (w : String) : Read Unit := expect (.word w.toList)

/-- Reads the given sign. -/
def expectSign (s : String) : Read Unit := expect (.sign s.toList)

/-- Reads any word. -/
def word : Read Text := do
  match ← peek with
  | some (.word s) => advance; return s
  | _ => fail

/-- Repeats a step as long as it goes on, at most `bound` times. -/
def chain {α : Type} (step : α → Read (Option α)) : Nat → α → Read α
  | 0, a => return a
  | bound + 1, a => do
    match ← step a with
    | some b => chain step bound b
    | none => return a

/-- Repeats a step as long as it goes on; no step reads nothing. -/
def all {α : Type} (step : α → Read (Option α)) (a : α) : Read α := do
  chain step ((← get).length + 1) a

end Read

open Read

/-- The words that stand for values and are no names. -/
def isReserved (s : Text) : Bool :=
  ["true", "false", "none", "True", "False", "None"].contains (String.ofList s)

/-- The value of a word that stands for one. -/
def literalWord? (s : Text) : Option Literal :=
  match String.ofList s with
  | "true" | "True" => some (.truth true)
  | "false" | "False" => some (.truth false)
  | "none" | "None" => some .none
  | _ => none

namespace Grammar

/-! ### Expressions -/

/-- Whether a row of expressions may end here. -/
def atRowEnd (extra : Option String) : Read Bool := do
  match ← peek with
  | some .closeValue | some .closeTag => return true
  | some (.sign [')']) => return true
  | some (.word s) => return extra == some (String.ofList s)
  | _ => return false

/-- One expression, or several in a row with commas between them.  Only in
parentheses may there be none. -/
def row (g : Grammar) (conditions inParens : Bool) (extra : Option String) : Read Expr := do
  let step : List Expr × Bool × Bool → Read (Option (List Expr × Bool × Bool))
    | (es, isRow, done) => do
      if done then return none
      if !es.isEmpty then expectSign ","
      if ← atRowEnd extra then return some (es, isRow, true)
      let e ← g.expr conditions
      if ← atSign "," then return some (es ++ [e], true, false)
      else return some (es ++ [e], isRow, true)
  let (es, isRow, _) ← Read.all step ([], false, false)
  match es, isRow with
  | [e], false => return e
  | es, true => return .row es
  | es, false => if inParens then return .row es else fail

/-- Expressions with commas between them up to a closing sign. -/
def items (g : Grammar) (close : String) : Read (List Expr) := do
  let step : List Expr × Bool → Read (Option (List Expr × Bool))
    | (es, done) => do
      if done || (← atSign close) then return none
      if !es.isEmpty then expectSign ","
      if ← atSign close then return some (es, true)
      return some (es ++ [← g.expr true], false)
  let (es, _) ← Read.all step ([], false)
  expectSign close
  return es

/-- The entries of a mapping up to its closing brace. -/
def entries (g : Grammar) : Read (List (Expr × Expr)) := do
  let step : List (Expr × Expr) × Bool → Read (Option (List (Expr × Expr) × Bool))
    | (ps, done) => do
      if done || (← atSign "\x7d") then return none
      if !ps.isEmpty then expectSign ","
      if ← atSign "\x7d" then return some (ps, true)
      let key ← g.expr true
      expectSign ":"
      let value ← g.expr true
      return some (ps ++ [(key, value)], false)
  let (ps, _) ← Read.all step ([], false)
  expectSign "\x7d"
  return ps

/-- A name, a literal, or an expression in brackets. -/
def primary (g : Grammar) : Read Expr := do
  match ← peek with
  | some (.word s) =>
    advance
    match literalWord? s with
    | some l => return .literal l
    | none => return .name s
  | some (.quoted t) =>
    advance
    -- quoted texts that follow each other are one text
    let step (t : Text) : Read (Option Text) := do
      match ← peek with
      | some (.quoted u) => advance; return some (t ++ u)
      | _ => return none
    return .literal (.text (← Read.all step t))
  | some (.whole n) => advance; return .literal (.whole n)
  | some (.real x) => advance; return .literal (.real x)
  | some (.sign ['(']) =>
    advance
    let e ← g.row true true none
    expectSign ")"
    return e
  | some (.sign ['[']) => advance; return .list (← g.items "]")
  | some (.sign ['{']) => advance; return .mapping (← g.entries)
  | _ => fail

/-- What is written between brackets behind an expression: a key or a cut. -/
def subscript (g : Grammar) : Read Expr := do
  let bound : Read (Option Expr) := do
    if (← atSign "]") || (← atSign ",") || (← atSign ":") then return none
    else return some (← g.expr true)
  let start : Option Expr ←
    if ← atSign ":" then pure none else some <$> g.expr true
  if !(← skipSign? ":") then
    match start with
    | some e => return e
    | none => fail
  let stop ← bound
  let step ← if ← skipSign? ":" then
      if (← atSign "]") || (← atSign ",") then pure none else some <$> g.expr true
    else pure none
  return .cut start stop step

/-- The key of a part in brackets; several keys make a row. -/
def keys (g : Grammar) : Read Expr := do
  let step (es : List Expr) : Read (Option (List Expr)) := do
    if ← atSign "]" then return none
    if !es.isEmpty then expectSign ","
    return some (es ++ [← g.subscript])
  let es ← Read.all step []
  expectSign "]"
  match es with
  | [e] => return e
  | es => return .row es

/-- What is given to a call. -/
structure Given where
  given : List Expr
  named : List (Text × Expr)
  spread : Option Expr
  spreadNamed : Option Expr

/-- What is given to a call, in parentheses. -/
def given (g : Grammar) : Read Given := do
  expectSign "("
  let ensure (b : Bool) : Read Unit := if b then return () else fail
  let step : Given × Bool × Bool → Read (Option (Given × Bool × Bool))
    | (a, first, done) => do
      if done || (← atSign ")") then return none
      if !first then
        expectSign ","
        if ← atSign ")" then return some (a, first, true)
      if ← atSign "*" then
        ensure (a.spread.isNone && a.spreadNamed.isNone)
        advance
        return some ({ a with spread := some (← g.expr true) }, false, false)
      else if ← atSign "**" then
        ensure a.spreadNamed.isNone
        advance
        return some ({ a with spreadNamed := some (← g.expr true) }, false, false)
      else
        match ← peek, ← look with
        | some (.word key), some (.sign ['=']) =>
          ensure a.spreadNamed.isNone
          advance
          advance
          return some ({ a with named := a.named ++ [(key, ← g.expr true)] }, false, false)
        | _, _ =>
          ensure (a.spread.isNone && a.spreadNamed.isNone && a.named.isEmpty)
          return some ({ a with given := a.given ++ [← g.expr true] }, false, false)
  let (a, _, _) ← Read.all step (⟨[], [], none, none⟩, true, false)
  expectSign ")"
  return a

/-- What is given to a filter or a test, if anything is. -/
def givenIfAny (g : Grammar) : Read Given := do
  if ← atSign "(" then g.given else return ⟨[], [], none, none⟩

/-- The call of an expression. -/
def call (g : Grammar) (e : Expr) : Read Expr := do
  let a ← g.given
  return .call e a.given a.named a.spread a.spreadNamed

/-- The parts, items and calls behind an expression. -/
def followed (g : Grammar) (e : Expr) : Read Expr :=
  Read.all (fun e => do
    if ← skipSign? "." then
      match ← peek with
      | some (.word s) => advance; return some (.part e s)
      | some (.whole n) => advance; return some (.item e (.literal (.whole n)))
      | _ => fail
    else if ← skipSign? "[" then return some (.item e (← g.keys))
    else if ← atSign "(" then return some (← g.call e)
    else return none) e

/-- A name with points in it. -/
def dottedName : Read Text := do
  let first ← word
  Read.all (fun s => do
    if ← skipSign? "." then return some (s ++ '.' :: (← word)) else return none) first

/-- One filter, behind its bar. -/
def filter (g : Grammar) (operand : Option Expr) : Read Expr := do
  let name ← dottedName
  let a ← g.givenIfAny
  return .filtered operand name a.given a.named a.spread a.spreadNamed

/-- Filters behind the first one. -/
def moreFilters (g : Grammar) (e : Expr) : Read Expr :=
  Read.all (fun e => do
    if ← skipSign? "|" then return some (← g.filter (some e)) else return none) e

/-- A test, behind the word `is`. -/
def test (g : Grammar) (operand : Expr) : Read Expr := do
  let negated ← skipWord? "not"
  let name ← dottedName
  let a ← if ← atSign "(" then g.given else do
    let bare (e : Expr) : Given := ⟨[e], [], none, none⟩
    let argument : Read Given := do
      return bare (← g.followed (← g.primary))
    match ← peek with
    | some (.word s) =>
      match String.ofList s with
      | "else" | "or" | "and" => pure ⟨[], [], none, none⟩
      | "is" => fail
      | _ => argument
    | some (.quoted _) | some (.whole _) | some (.real _) => argument
    | some (.sign ['[']) | some (.sign ['{']) => argument
    | _ => pure ⟨[], [], none, none⟩
  let e := Expr.tested operand name a.given a.named a.spread a.spreadNamed
  return if negated then .unary .negation e else e

/-- The filters, tests and calls behind an expression. -/
def filtered (g : Grammar) (e : Expr) : Read Expr :=
  Read.all (fun e => do
    if ← skipSign? "|" then return some (← g.filter (some e))
    else if ← skipWord? "is" then return some (← g.test e)
    else if ← atSign "(" then return some (← g.call e)
    else return none) e

/-- A primary expression with its parts and calls, or one behind a sign. -/
def signedExpr (g : Grammar) : Read Expr := do
  if ← skipSign? "-" then g.followed (.unary .negative (← g.signed))
  else if ← skipSign? "+" then g.followed (.unary .positive (← g.signed))
  else g.followed (← g.primary)

/-- An operand with its filters. -/
def operand (g : Grammar) : Read Expr := do
  g.filtered (← g.signedExpr)

/-- Operands with operations between them that group to the left. -/
def leftward (next : Read Expr) (ops : List (String × BinaryOp)) : Read Expr := do
  let step (a : Expr) : Read (Option Expr) := do
    match ← peek with
    | some (.sign s) =>
      match ops.lookup (String.ofList s) with
      | some op => advance; return some (.binary op a (← next))
      | none => return none
    | _ => return none
  Read.all step (← next)

/-- Powers. -/
def powers (g : Grammar) : Read Expr := leftward (g.operand) [("**", .pow)]

/-- Products. -/
def products (g : Grammar) : Read Expr :=
  leftward (g.powers) [("*", .mul), ("/", .div), ("//", .floorDiv), ("%", .mod)]

/-- Texts joined by tildes. -/
def joins (g : Grammar) : Read Expr := do
  let first ← g.products
  let es ← Read.all (fun es => do
    if ← skipSign? "~" then return some (es ++ [← g.products]) else return none) [first]
  match es with
  | [e] => return e
  | es => return .joined es

/-- Sums. -/
def sums (g : Grammar) : Read Expr := leftward (g.joins) [("+", .add), ("-", .sub)]

/-- The relations that signs write. -/
def relation? (s : Text) : Option Relation :=
  match String.ofList s with
  | "==" => some .eq
  | "!=" => some .ne
  | "<" => some .lt
  | "<=" => some .le
  | ">" => some .gt
  | ">=" => some .ge
  | _ => none

/-- Comparisons, chained where there are several. -/
def comparison (g : Grammar) : Read Expr := do
  let first ← g.sums
  let step (ops : List (Relation × Expr)) : Read (Option (List (Relation × Expr))) := do
    match ← peek, ← look with
    | some (.sign s), _ =>
      match relation? s with
      | some r => advance; return some (ops ++ [(r, ← g.sums)])
      | none => return none
    | some (.word ['i', 'n']), _ => advance; return some (ops ++ [(.isIn, ← g.sums)])
    | some (.word ['n', 'o', 't']), some (.word ['i', 'n']) =>
      advance
      advance
      return some (ops ++ [(.notIn, ← g.sums)])
    | _, _ => return none
  match ← Read.all step [] with
  | [] => return first
  | ops => return .compare first ops

/-- A comparison, or its opposite after `not`. -/
def opposite (g : Grammar) : Read Expr := do
  if ← skipWord? "not" then return .unary .negation (← g.negation) else g.comparison

/-- Conditions joined by `and`. -/
def conjunction (g : Grammar) : Read Expr := do
  Read.all (fun a => do
    if ← skipWord? "and" then return some (.both a (← g.opposite)) else return none) (← g.opposite)

/-- Conditions joined by `or`. -/
def disjunction (g : Grammar) : Read Expr := do
  Read.all (fun a => do
    if ← skipWord? "or" then return some (.either a (← g.conjunction)) else return none)
    (← g.conjunction)

/-- An expression; behind `if` stands the condition under which it counts, and
behind `else` what counts otherwise. -/
def expression (g : Grammar) (conditions : Bool) : Read Expr := do
  if !conditions then g.disjunction
  else
    let first ← line
    let step : Expr × Nat → Read (Option (Expr × Nat))
      | (yes, at_) => do
        if ← skipWord? "if" then
          let condition ← g.disjunction
          let no ← if ← skipWord? "else" then some <$> g.expr true else pure none
          return some (.choice at_ condition yes no, ← line)
        else return none
    let (e, _) ← Read.all step (← g.disjunction, first)
    return e

/-! ### Targets -/

/-- A single target. -/
def targetItem (g : Grammar) (fields : Bool) : Read Target := do
  match ← peek with
  | some (.word s) =>
    advance
    if isReserved s then fail
    else if !fields then return .name s
    else if ← skipSign? "." then return .field s (← word)
    else return .name s
  | some (.sign ['(']) => advance; g.target
  | _ => fail

/-- One target, or several in a row. -/
def targetRow (g : Grammar) (fields inParens : Bool) (extra : Option String) : Read Target := do
  let step : List Target × Bool × Bool → Read (Option (List Target × Bool × Bool))
    | (ts, isRow, done) => do
      if done then return none
      if !ts.isEmpty then expectSign ","
      if ← atRowEnd extra then return some (ts, isRow, true)
      let t ← g.targetItem fields
      if ← atSign "," then return some (ts ++ [t], true, false)
      else return some (ts ++ [t], isRow, true)
  let (ts, isRow, _) ← Read.all step ([], false, false)
  match ts, isRow with
  | [t], false => return t
  | ts, true => return .row ts
  | ts, false => if inParens then return .row ts else fail

/-- What stands in parentheses as a target, with the closing one. -/
def targetInParens (g : Grammar) : Read Target := do
  let t ← g.targetRow false true none
  expectSign ")"
  return t

/-- A name that is assigned to. -/
def newName : Read Text := do
  let s ← word
  if isReserved s then fail else return s

/-! ### Statements -/

/-- The body of a statement, from the end of its tag up to a tag with one of
the given words, which is the next token then. -/
def bodyUntil (g : Grammar) (ends : List String) : Read (List Stmt) := do
  let _ ← skipSign? ":"
  expect .closeTag
  g.body ends

/-- The body of a statement with the word that ends it. -/
def bodyThrough (g : Grammar) (ending : String) : Read (List Stmt) := do
  let body ← g.bodyUntil [ending]
  advance
  return body

/-- A loop. -/
def loop (g : Grammar) : Read Stmt := do
  let target ← g.targetRow false false (some "in")
  expectWord "in"
  let items ← g.row false false (some "recursive")
  let test ← if ← skipWord? "if" then some <$> g.expr true else pure none
  let recursive ← skipWord? "recursive"
  let body ← g.bodyUntil ["endfor", "else"]
  if ← skipWord? "endfor" then return .loop target items test recursive body []
  advance
  return .loop target items test recursive body (← g.bodyThrough "endfor")

/-- A condition with its body. -/
def branchCase (g : Grammar) : Read (Expr × List Stmt) := do
  let condition ← g.row false false none
  return (condition, ← g.bodyUntil ["elif", "else", "endif"])

/-- Alternatives. -/
def branch (g : Grammar) : Read Stmt := do
  let step (cases : List (Expr × List Stmt)) : Read (Option (List (Expr × List Stmt))) := do
    if ← skipWord? "elif" then return some (cases ++ [← g.branchCase]) else return none
  let cases ← Read.all step [← g.branchCase]
  if ← skipWord? "else" then return .branch cases (← g.bodyThrough "endif")
  advance
  return .branch cases []

/-- An assignment of a value or of the text of a body. -/
def assignment (g : Grammar) : Read Stmt := do
  let target ← g.targetRow true false none
  if ← skipSign? "=" then return .assign target (← g.row true false none)
  let filter ← if ← skipSign? "|" then some <$> (g.filter none >>= g.moreFilters) else pure none
  return .capture target filter (← g.bodyThrough "endset")

/-- A body with names of its own. -/
def scope (g : Grammar) : Read Stmt := do
  let step (bindings : List (Target × Expr)) : Read (Option (List (Target × Expr))) := do
    if (← peek) == some .closeTag then return none
    if !bindings.isEmpty then expectSign ","
    let target ← g.targetRow false false none
    expectSign "="
    return some (bindings ++ [(target, ← g.expr true)])
  let bindings ← Read.all step []
  return .scope bindings (← g.bodyThrough "endwith")

/-- Whether a statement shows only blanks. -/
def isBlankOutput : Stmt → Bool
  | .output es => es.all fun
    | .plain t => !t.isEmpty && t.all Text.isBlank
    | _ => false
  | _ => false

/-- A block. -/
def block (g : Grammar) : Read Stmt := do
  let name ← word
  let seesLocals ← skipWord? "scoped"
  let required ← skipWord? "required"
  let body ← g.bodyThrough "endblock"
  if required && !body.all isBlankOutput then fail
  let _ ← skip? (.word name)
  return .block name seesLocals required body

/-- The words that say whether another template sees the names of this one. -/
def contextWords : Read Bool := do
  if (← atWord "with") || (← atWord "without") then
    if (← look) == some (.word "context".toList) then
      advance
      advance
      return true
  return false

/-- Another template that is shown here. -/
def insertion (g : Grammar) : Read Stmt := do
  let template ← g.expr true
  let ignoring := (← atWord "ignore") && (← look) == some (.word "missing".toList)
  if ignoring then
    advance
    advance
  let _ ← contextWords
  return .insert template ignoring

/-- Another template under a name. -/
def wholeBorrowing (g : Grammar) : Read Stmt := do
  let template ← g.expr true
  expectWord "as"
  let name ← newName
  let _ ← contextWords
  return .borrow template [name]

/-- Names of another template. -/
def borrowing (g : Grammar) : Read Stmt := do
  let template ← g.expr true
  expectWord "import"
  let step : List Text × Bool → Read (Option (List Text × Bool))
    | (names, done) => do
      if done then return none
      if !names.isEmpty then expectSign ","
      match ← peek with
      | some (.word _) =>
        if ← contextWords then return some (names, true)
        let name ← newName
        if name.head? == some '_' then fail
        let shown ← if ← skipWord? "as" then newName else pure name
        let ended ← contextWords
        return some (names ++ [shown], ended || !(← atSign ","))
      | _ => fail
  let (names, _) ← Read.all step ([], false)
  return .borrow template names

/-- The parameters of a routine and the values of those at the end that may be
missing. -/
def parameters (g : Grammar) : Read (List Text × List Expr) := do
  expectSign "("
  let step : List Text × List Expr → Read (Option (List Text × List Expr))
    | (names, defaults) => do
      if ← atSign ")" then return none
      if !names.isEmpty then expectSign ","
      let name ← newName
      if ← skipSign? "=" then return some (names ++ [name], defaults ++ [← g.expr true])
      else if defaults.isEmpty then return some (names ++ [name], defaults)
      else fail
  let found ← Read.all step ([], [])
  expectSign ")"
  return found

/-- A routine. -/
def routine (g : Grammar) : Read Stmt := do
  let name ← newName
  let (names, defaults) ← g.parameters
  return .routine name names defaults (← g.bodyThrough "endmacro")

/-- A call with a body. -/
def callWith (g : Grammar) : Read Stmt := do
  let (names, defaults) ← if ← atSign "(" then g.parameters else pure ([], [])
  match ← g.expr true with
  | .call callee a named spread spreadNamed =>
    return .callWith names defaults (.call callee a named spread spreadNamed)
      (← g.bodyThrough "endcall")
  | _ => fail

/-- Expressions that are shown. -/
def shownAll (g : Grammar) : Read Stmt := do
  let step (es : List Expr) : Read (Option (List Expr)) := do
    if (← peek) == some .closeTag then return none
    if !es.isEmpty then expectSign ","
    return some (es ++ [← g.expr true])
  return .output (← Read.all step [])

/-- The statement of a tag. -/
def statement (g : Grammar) : Read Stmt := do
  match String.ofList (← word) with
  | "for" => g.loop
  | "if" => g.branch
  | "set" => g.assignment
  | "with" => g.scope
  | "autoescape" =>
    let mode ← g.expr true
    return .escaping mode (← g.bodyThrough "endautoescape")
  | "block" => g.block
  | "extends" => return .extend (← g.expr true)
  | "include" => g.insertion
  | "import" => g.wholeBorrowing
  | "from" => g.borrowing
  | "macro" => g.routine
  | "call" => g.callWith
  | "filter" =>
    let f ← g.filter none >>= g.moreFilters
    return .filterBody f (← g.bodyThrough "endfilter")
  | "print" => g.shownAll
  | _ => fail

/-- Statements up to a tag with one of the given words, or up to the end of the
template where there are none. -/
def statements (g : Grammar) (ends : List String) : Read (List Stmt) := do
  let flush (done : List Stmt) (pending : List Expr) : List Stmt :=
    if pending.isEmpty then done else done ++ [.output pending]
  let step : List Stmt × List Expr × Bool → Read (Option (List Stmt × List Expr × Bool))
    | (done, pending, ended) => do
      if ended then return none
      match ← peek with
      | none => if ends.isEmpty then return some (flush done pending, [], true) else fail
      | some (.plain t) => advance; return some (done, pending ++ [.plain t], false)
      | some .openValue =>
        advance
        let e ← g.row true false none
        expect .closeValue
        return some (done, pending ++ [e], false)
      | some .openTag =>
        advance
        let done := flush done pending
        match ← peek with
        | some (.word s) =>
          if ends.contains (String.ofList s) then return some (done, [], true)
          let stmt ← g.statement
          expect .closeTag
          return some (done ++ [stmt], [], false)
        | _ => fail
      | _ => fail
  let (done, _, _) ← Read.all step ([], [], false)
  return done

end Grammar

/-! ### Templates -/

/-- The grammar with the given number of levels. -/
def grammar : Nat → Grammar
  | 0 => ⟨fun _ => fail, fail, fail, fail, fun _ => fail⟩
  | level + 1 =>
    -- the tokens stand as an argument, so that a level is made only where it is used
    { expr := fun conditions source => (grammar level).expression conditions source
      negation := fun source => (grammar level).opposite source
      signed := fun source => (grammar level).signedExpr source
      target := fun source => (grammar level).targetInParens source
      body := fun ends source => (grammar level).statements ends source }

/-- The statements of a written template. -/
def read (t : Text) : Except Fault (List Stmt) :=
  let source := tokens t
  -- every level of a template has a token of its own
  ((grammar source.length).statements []).run' source

end LogCalls.Template
