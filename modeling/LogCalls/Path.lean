/-
LogCalls/Path.lean

Paths of files.  A path is the number of its leading slashes (none, one, or
exactly two) and its parts; empty parts and `.` do not count, and `..` is kept.
A part that was put in another's place can hold slashes, and then stands for more
than one name (`names`).
-/
import LogCalls.Fault
import LogCalls.Text.Lines

namespace LogCalls

/-- A path by its leading slashes and its parts. -/
structure Path where
  slashes : Nat
  parts : List String
  deriving DecidableEq, Repr

namespace Path

/-- The directory that relative paths start from. -/
def here : Path := ⟨0, []⟩

/-- The names between the slashes of a text, empty ones among them. -/
def pieces (s : String) : List String := (Text.splitAll '/' s.toList).map String.ofList

/-- Reads a path; more than two leading slashes count as one. -/
def read (s : String) : Path :=
  let slashes := (s.toList.takeWhile (· = '/')).length
  ⟨if slashes ≤ 2 then slashes else 1, (pieces s).filter fun p => p ≠ "" ∧ p ≠ "."⟩

/-- The names that a path leads through. -/
def names (p : Path) : List String := p.parts.flatMap pieces

/-- The text of a path. -/
def text (p : Path) : String :=
  if p.slashes = 0 ∧ p.parts = [] then "."
  else String.ofList (List.replicate p.slashes '/') ++ "/".intercalate p.parts

/-- Whether the path holds a zero character, so that no file can have it. -/
def hasZero (p : Path) : Bool := p.parts.any fun part => part.toList.contains '\x00'

/-- The last part. -/
def name? (p : Path) : Option String := p.parts.getLast?

/-- The path with another last part. -/
def replaceName (p : Path) (name : String) : Path := { p with parts := p.parts.dropLast ++ [name] }

/-- Whether a text can be the last part of a path: a single name in it counts, and no
slash is at its ends. -/
def isName (name : String) : Bool :=
  (pieces name).head? ≠ some "" && (pieces name).getLast? ≠ some "" &&
    (read name).parts.length == 1

/-- The path with `name` for its last part. -/
def withName (p : Path) (name : String) : Except Fault Path :=
  if p.parts = [] then .error (.nameless p.text)
  else if isName name then .ok (p.replaceName name)
  else .error (.invalidName name)

/-- A name cut in front of its last point, if that is neither its first nor its
last character. -/
def splitName (name : String) : String × String :=
  let ending := name.toList.reverse.takeWhile (· ≠ '.')
  let before := name.toList.reverse.drop ending.length
  if ending = [] ∨ before.length ≤ 1 then (name, "")
  else (String.ofList (before.drop 1).reverse, String.ofList ('.' :: ending.reverse))

/-- What follows the last point of the last part, with that point. -/
def ending (p : Path) : String := (splitName (p.name?.getD "")).2

/-- The path with another ending. -/
def withEnding (p : Path) (ending : String) : Except Fault Path :=
  match p.name? with
  | none => .error (.nameless p.text)
  | some name => .ok (p.replaceName ((splitName name).1 ++ ending))

/-- The path `q` as seen from `p`. -/
def join (p q : Path) : Path := if q.slashes = 0 then { p with parts := p.parts ++ q.parts } else q

/-- The parts without `..`, each of which takes away the part before it; there is
nothing above the root. -/
def settled (p : Path) : List String :=
  (p.parts.foldl (fun done part =>
    match part, done with
    | "..", last :: rest => if last = ".." then part :: done else rest
    | "..", [] => if p.slashes = 0 then [part] else []
    | _, _ => part :: done) []).reverse

/-! ### Small laws -/

@[simp] theorem text_here : here.text = "." := rfl

@[simp] theorem name?_replaceName (p : Path) (name : String) :
    (p.replaceName name).name? = some name := by simp [replaceName, name?]

theorem parts_replaceName (p : Path) (name : String) :
    (p.replaceName name).parts = p.parts.dropLast ++ [name] := rfl

theorem withName_ok {p q : Path} {name : String} (h : p.withName name = .ok q) :
    q = p.replaceName name := by
  unfold withName at h
  split at h
  · simp at h
  · split at h <;> simp_all

end Path

end LogCalls
