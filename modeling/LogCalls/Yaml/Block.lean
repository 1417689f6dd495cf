/-
LogCalls/Yaml/Block.lean

Block scalars: the lines below `|` or `>` that stand further right than the
collection around them.  Below `>` the break between two lines that start with
no blank is folded into a space.  What becomes of the breaks at the end is said
by a mark in the header.
-/
import LogCalls.Text.Digit
import LogCalls.Yaml.Alphabet

namespace LogCalls.Yaml.Block

/-- What becomes of the breaks at the end: all but the first are dropped, or
all, or none. -/
inductive Tail where
  | clip
  | strip
  | keep
  deriving DecidableEq, Repr

/-- The mark for the tail. -/
def tail? (c : Char) : Option Tail :=
  if c = '+' then some .keep else if c = '-' then some .strip else none

/-- The mark for the indentation, `1` to `9`. -/
def increment? (c : Char) : Option Nat :=
  if c.isDigit then some (c.toNat - 0x30) else none

/-- The marks of a header, in either order, and what follows them. -/
def header : Text → Tail × Option Nat × Text
  | [] => (.clip, none, [])
  | c :: r =>
    match tail? c, increment? c with
    | some tail, _ =>
      match r.head?.bind increment? with
      | some n => (tail, some n, r.drop 1)
      | none => (tail, none, r)
    | none, some n =>
      match r.head?.bind tail? with
      | some tail => (tail, some n, r.drop 1)
      | none => (.clip, some n, r)
    | none, none => (.clip, none, c :: r)

/-- The text after the rest of a line that holds at most a comment. -/
def skipLine (t : Text) : Option Text :=
  let rest := t.dropWhile (· = ' ')
  let rest := if rest.head? = some '#' then rest.dropWhile fun c => !isBreak c else rest
  match rest with
  | [] => some []
  | c :: r => if isBreak c then some r else none

/-- The breaks of the empty lines, the greatest column among them and the next,
the column reached, and the text from there. -/
def leadingLines (column : Nat) : Text → Text × Nat × Nat × Text
  | [] => ([], 0, column, [])
  | c :: r =>
    if c = ' ' then
      let (breaks, deepest, reached, rest) := leadingLines (column + 1) r
      (breaks, max (column + 1) deepest, reached, rest)
    else if isBreak c then
      let (breaks, deepest, reached, rest) := leadingLines 0 r
      (c :: breaks, deepest, reached, rest)
    else ([], 0, column, c :: r)

/-- The breaks of the empty lines when lines start at `indent`, the column
reached, and the text from there. -/
def emptyLines (indent column : Nat) : Text → Text × Nat × Text
  | [] => ([], column, [])
  | c :: r =>
    if c = ' ' && column < indent then emptyLines indent (column + 1) r
    else if isBreak c then
      let (breaks, reached, rest) := emptyLines indent 0 r
      (c :: breaks, reached, rest)
    else ([], column, c :: r)

/-- Whether the text starts with a blank. -/
def startsBlank (t : Text) : Bool := t.head?.any fun c => c == ' ' || c == '\t'

/-- The content from a place on: `breaks` are those of the empty lines before
it, and `fuel` bounds the number of lines. -/
def linesFrom (folded : Bool) (tail : Tail) (indent : Nat) :
    (fuel : Nat) → (breaks : Text) → (column : Nat) → Text → Text × Text
  | 0, _, _, t => ([], t)
  | fuel + 1, breaks, column, t =>
    -- no line at all: of the breaks only `keep` leaves any
    if column ≠ indent ∨ t = [] then (if tail = .keep then breaks else [], t)
    else
      let line := t.takeWhile fun c => !isBreak c
      let rest := t.drop line.length
      let ending := rest.take 1
      let (further, reached, below) := emptyLines indent 0 (rest.drop 1)
      if reached = indent ∧ below ≠ [] then
        -- a fold needs two lines that both start at the margin
        let join :=
          if folded && ending == ['\n'] && !startsBlank t && !startsBlank below then
            if further = [] then [' '] else []
          else ending
        let (content, left) := linesFrom folded tail indent fuel further reached below
        (breaks ++ line ++ join ++ content, left)
      else
        let last := match tail with
          | .strip => []
          | .clip => ending
          | .keep => ending ++ further
        (breaks ++ line ++ last, below)

/-- The content of a block scalar whose mark has been read, and what follows
it; `margin` is the least column of its lines. -/
def read (folded : Bool) (margin : Nat) (t : Text) : Option (Text × Text) := do
  let (tail, increment, rest) := header t
  guard (increment ≠ some 0)
  guard (endsWord rest ∧ rest.head? ≠ some '\t')
  let body ← skipLine rest
  let least := max 1 margin
  match increment with
  | some n =>
    let indent := least + n - 1
    let (breaks, column, below) := emptyLines indent 0 body
    return linesFrom folded tail indent (body.length + 1) breaks column below
  | none =>
    let (breaks, deepest, column, below) := leadingLines 0 body
    return linesFrom folded tail (max least deepest) (body.length + 1) breaks column below

end LogCalls.Yaml.Block
