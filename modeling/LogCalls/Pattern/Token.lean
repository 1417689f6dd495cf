/-
LogCalls/Pattern/Token.lean

The marks of a written pattern.  A backslash and the character behind it are
one mark, so that neither is taken for anything else; reading a pattern is a
walk over its marks that keeps track of the groups met so far.
-/
import LogCalls.Fault
import LogCalls.Pattern.Basic

namespace LogCalls.Pattern

/-! ### Marks -/

/-- A mark of a written pattern. -/
inductive Token where
  | plain (c : Char)
  | escaped (c : Char)
  /-- A backslash with nothing behind it. -/
  | dangling
  deriving DecidableEq, Repr

/-- The characters of a mark. -/
def Token.text : Token → Text
  | .plain c => [c]
  | .escaped c => ['\\', c]
  | .dangling => ['\\']

/-- The marks of a written pattern. -/
def tokens : Text → List Token
  | [] => []
  | '\\' :: [] => [.dangling]
  | '\\' :: c :: r => .escaped c :: tokens r
  | c :: r => .plain c :: tokens r

/-! ### Walking over marks -/

/-- The ways of reading that a pattern asks for, as the letters it asks by. -/
structure Flags where
  letters : Text := []
  deriving DecidableEq, Repr

/-- Whether a letter is among those that a pattern asks by. -/
def Flags.has (f : Flags) (letter : Char) : Bool := f.letters.contains letter

/-- The alphabet that flags ask for. -/
def Flags.alphabet (f : Flags) : Alphabet := if f.has 'a' then .basic else .every

/-- How far the reading of a pattern has come. -/
structure Progress where
  rest : List Token
  /-- The widths of the groups in their order, where they are closed. -/
  groups : Array (Option Width) := #[]
  names : List (Text × Nat) := []
  /-- The numbers of the groups that conditions ask for. -/
  conditions : List Nat := []
  /-- What the pattern as a whole asks for. -/
  flags : Flags := {}
  /-- The number of groups met before the outermost look behind that is open. -/
  groupsBefore : Option Nat := none
  repeats : Bool := false
  /-- Whether something of no fixed width is to be read from behind. -/
  uneven : Bool := false

/-- A step of reading a pattern. -/
abbrev Reading := StateT Progress (Except Fault)

namespace Reading

/-- Refuses the pattern. -/
def refuse {α : Type} : Reading α := throw .malformedPattern

/-- Refuses the pattern unless a condition holds. -/
def require (b : Bool) : Reading Unit := if b then pure () else refuse

/-- The next mark, which is not passed. -/
def peek : Reading (Option Token) := do return (← get).rest.head?

/-- The next mark, which is passed; there is none at the end. -/
def next : Reading (Option Token) := do
  match (← get).rest with
  | [] => return none
  | .dangling :: _ => refuse
  | t :: r => modify fun s => { s with rest := r }; return some t

/-- The next mark if there is one; the end is refused. -/
def nextOne : Reading Token := do
  match ← next with
  | some t => return t
  | none => refuse

/-- Passes a character if it comes next. -/
def accept (c : Char) : Reading Bool := do
  match (← get).rest with
  | .plain d :: r =>
    if c = d then
      modify fun s => { s with rest := r }
      return true
    else return false
  | _ => return false

/-- Passes a character, which has to come next. -/
def expect (c : Char) : Reading Unit := do require (← accept c)

/-- The plain characters of a class that marks start with, up to a number of
them, and the marks behind them. -/
def leading (f : Char → Bool) : Nat → List Token → Text × List Token
  | n + 1, .plain c :: r =>
    if f c then
      let (t, rest) := leading f n r
      (c :: t, rest)
    else ([], .plain c :: r)
  | _, r => ([], r)

/-- Passes up to `n` characters of a class. -/
def passUpTo (f : Char → Bool) (n : Nat) : Reading Text := do
  let (t, r) := leading f n (← get).rest
  modify fun s => { s with rest := r }
  return t

/-- Passes the characters of a class. -/
def passAll (f : Char → Bool) : Reading Text := do passUpTo f (← get).rest.length

/-- The text before the first of some marks that is the given character, and
the marks behind it. -/
def splitAt? (c : Char) : List Token → Option (Text × List Token)
  | [] => none
  | t :: r =>
    if t = .plain c then some ([], r) else (splitAt? c r).map fun p => (t.text ++ p.1, p.2)

/-- Passes what stands before a character, and the character; something has to
stand there. -/
def passUntil (c : Char) : Reading Text := do
  match splitAt? c (← get).rest with
  | some (t, r) =>
    require !t.isEmpty
    modify fun s => { s with rest := r }
    return t
  | none => refuse

/-- Passes a comment up to a character, and the character. -/
def passComment (c : Char) : Reading Unit := do
  match splitAt? c (← get).rest with
  | some (_, r) => modify fun s => { s with rest := r }
  | none => refuse

/-! ### Groups -/

/-- The number that the next group will have. -/
def groupCount : Reading Nat := do return (← get).groups.size + 1

/-- Opens a group and gives its number. -/
def openGroup (name? : Option Text) : Reading Nat := do
  let number ← groupCount
  modify fun s => { s with groups := s.groups.push none }
  match name? with
  | none => pure ()
  | some name =>
    require ((← get).names.lookup name).isNone
    modify fun s => { s with names := (name, number) :: s.names }
  return number

/-- The width of a pattern, given the groups met so far. -/
def widthOf (p : Pattern) : Reading Width := do
  let groups := (← get).groups
  return p.width fun n => ((groups[n - 1]?).bind id).getD .zero

/-- Closes a group. -/
def closeGroup (number : Nat) (p : Pattern) : Reading Unit := do
  let w ← widthOf p
  modify fun s => { s with groups := s.groups.setIfInBounds (number - 1) (some w) }

/-- Whether a group has been closed. -/
def isClosed (number : Nat) : Reading Bool := do
  return number ≠ 0 && (((← get).groups[number - 1]?).bind id).isSome

/-- Refuses a group inside of a look behind, unless it was closed before it. -/
def requireBefore (number : Nat) : Reading Unit := do
  match (← get).groupsBefore with
  | none => pure ()
  | some count => require ((← isClosed number) && number < count)

/-- The number of a named group. -/
def groupNamed (name : Text) : Reading Nat := do
  match (← get).names.lookup name with
  | some number => return number
  | none => refuse

end Reading

/-! ### Small laws -/

/-- The marks of a pattern are the whole pattern. -/
theorem flatMap_text_tokens (t : Text) : (tokens t).flatMap Token.text = t := by
  fun_induction tokens t with
  | case1 => rfl
  | case2 => rfl
  | case3 c r ih => simp [Token.text, ih]
  | case4 c r _ _ ih => simp [Token.text, ih]

theorem Reading.leading_append (f : Char → Bool) (n : Nat) (r : List Token) :
    (leading f n r).1.map Token.plain ++ (leading f n r).2 = r := by
  fun_induction leading f n r <;> simp_all

end LogCalls.Pattern
