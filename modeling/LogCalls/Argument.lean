/-
LogCalls/Argument.lean

The argument of a call, scanned from the text after the call's name.  The scan
knows one level of structure: between the outermost parentheses a `+` outside
of quotes ends a token, blanks outside of quotes are left out, and all else is
kept.  Deeper parentheses are only counted, and quotes mean nothing there.

The scan of a text is put together from the scan of its tail, so a token is
the list of the characters kept between two cuts (`scanFrom`).
-/
import LogCalls.Atom
import LogCalls.Journal

namespace LogCalls

namespace Argument

/-- Where a scan stands between two characters. -/
structure State where
  /-- Opening less closing parentheses so far; negative where more are closed
  than opened. -/
  level : Int := 0
  /-- Whether a parenthesis has been opened. -/
  entered : Bool := false
  /-- The quote that will end the current literal. -/
  quote : Option Char := none
  /-- The character before. -/
  previous : Option Char := none
  deriving DecidableEq, Repr

/-- What becomes of a character. -/
inductive Effect where
  | keep
  | skip
  | cut
  deriving DecidableEq, Repr

/-- What becomes of the next character. -/
def State.effect (s : State) (c : Char) : Effect :=
  -- inside a literal everything is kept, parentheses and blanks included
  if s.level = 1 ∧ s.quote.isSome then .keep
  -- the outermost parentheses belong to no token
  else if c = '(' then if 1 ≤ s.level then .keep else .skip
  else if c = ')' then if 1 < s.level then .keep else .skip
  else if s.level = 1 then
    if Atom.isQuote c then .keep
    else if Text.isBlank c then .skip
    else if c = '+' then .cut
    else .keep
  else .keep

/-- Where the scan stands after the next character.  A quote ends the literal
that it opened unless a backslash stands right before it. -/
def State.next (s : State) (c : Char) : State :=
  if s.level = 1 ∧ s.quote.isSome then
    let ends := s.quote = some c ∧ s.previous ≠ some '\\'
    { s with quote := if ends then none else s.quote, previous := some c }
  else if c = '(' then { s with level := s.level + 1, entered := true, previous := some c }
  else if c = ')' then { s with level := s.level - 1, previous := some c }
  else if s.level = 1 ∧ Atom.isQuote c then { s with quote := some c, previous := some c }
  else { s with previous := some c }

/-- Whether the parentheses are closed again. -/
def State.isClosed (s : State) : Bool := s.entered && s.level == 0

/-- Whether a text may end here: something was opened, and nothing is open. -/
def State.isComplete (s : State) : Bool := s.entered && s.level ≤ 0

/-- The outcome of a scan: the raw tokens, whether they are the argument of a
call, and the number of characters up to and with the closing parenthesis. -/
structure Scan where
  tokens : List Text
  valid : Bool
  length : Nat
  deriving DecidableEq, Repr

/-- The scan with one character more in front. -/
def Scan.after (e : Effect) (c : Char) (s : Scan) : Scan :=
  { s with
    length := s.length + 1
    tokens :=
      match e, s.tokens with
      | .keep, t :: ts => (c :: t) :: ts
      | .keep, [] => [[c]]
      | .skip, ts => ts
      | .cut, ts => [] :: ts }

/-- The scan of what follows a state.  It ends behind the parenthesis that
closes the first one; a text that ends before counts one character more. -/
def scanFrom (s : State) : Text → Scan
  | [] => ⟨[[]], s.isComplete, 1⟩
  | c :: r =>
    let s' := s.next c
    (if s'.isClosed then ⟨[[]], true, 0⟩ else scanFrom s' r).after (s.effect c) c

/-- The scan of the text after a call's name. -/
def scan (t : Text) : Scan := scanFrom {} t

end Argument

/-- The argument of a call: its atoms in order, whether the text held a
complete one, and its length. -/
structure Argument where
  atoms : List Atom
  valid : Bool
  length : Nat
  deriving DecidableEq, Repr

namespace Argument

/-- Reads the argument that a text starts with.  Atoms are made of an
incomplete argument too, which is noted before its last atom is made. -/
def read (t : Text) : Logged Argument := do
  let s := scan t
  -- a fault in an atom before the last one hides the entry
  let front ← (s.tokens.dropLast.mapM Atom.ofToken : Except Fault (List Atom))
  unless s.valid do
    Logged.note .scanning .debug
      ("Unbalanced or missing parentheses in " ++ String.ofList (Text.quote (t.take 80)))
  let last ← Atom.ofToken (s.tokens.getLastD [])
  return ⟨front ++ [last], s.valid, s.length⟩

/-! ### Small laws -/

@[simp] theorem Scan.valid_after (e : Effect) (c : Char) (s : Scan) :
    (s.after e c).valid = s.valid := rfl

@[simp] theorem Scan.length_after (e : Effect) (c : Char) (s : Scan) :
    (s.after e c).length = s.length + 1 := rfl

theorem Scan.tokens_after_ne_nil (e : Effect) (c : Char) {s : Scan} (h : s.tokens ≠ []) :
    (s.after e c).tokens ≠ [] := by
  rcases hs : s.tokens with _ | ⟨t, ts⟩
  · exact absurd hs h
  · cases e <;> simp [Scan.after, hs]

theorem tokens_scanFrom_ne_nil (s : State) (t : Text) : (scanFrom s t).tokens ≠ [] := by
  induction t generalizing s with
  | nil => simp [scanFrom]
  | cons c r ih =>
    rw [scanFrom]
    apply Scan.tokens_after_ne_nil
    split
    · simp
    · exact ih _

theorem length_scanFrom_le (s : State) (t : Text) : (scanFrom s t).length ≤ t.length + 1 := by
  induction t generalizing s with
  | nil => simp [scanFrom]
  | cons c r ih =>
    rw [scanFrom]
    split
    · simp
    · have := ih (s.next c)
      simp only [Scan.length_after, List.length_cons]
      omega

end Argument

end LogCalls
