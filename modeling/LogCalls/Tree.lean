/-
LogCalls/Tree.lean

The files of a disk, as a value.  A location is the list of names from the root; a
path leads to a location by going through directories that exist, from the root or
from the directory that a run starts in.  Writing a file changes what is at its
location and nothing else (`get?_put_of_ne`).

A file can be refused although it is there, and what is written to it can be cut:
it is emptied when it is opened, and then takes as much as there is room for
(`Limits`, `write`).  There are no links in a tree.
-/
import LogCalls.Path

namespace LogCalls

/-- What is at a location. -/
inductive Tree.Entry where
  | directory
  | file (content : List UInt8)
  deriving DecidableEq, Repr

/-- The names that lead from the root to a location. -/
abbrev Tree.Location := List String

/-- What the disk does not allow.  It is the same throughout a run. -/
structure Tree.Limits where
  unreadable : Tree.Location → Bool := fun _ => false
  unwritable : Tree.Location → Bool := fun _ => false
  /-- The number of bytes that a file can have, where there is not room for any. -/
  room : Tree.Location → Option Nat := fun _ => none

/-- The files and directories with their locations. -/
structure Tree where
  entries : List (Tree.Location × Tree.Entry)
  /-- The directory that a run starts in. -/
  start : Tree.Location := []
  limits : Tree.Limits := {}

namespace Tree

/-- A directory with nothing in it, to start in. -/
def empty : Tree where
  entries := [(["home"], .directory)]
  start := ["home"]

/-- What is at a location; the root is a directory. -/
def get? (t : Tree) (l : Location) : Option Entry :=
  if l = [] then some .directory else (t.entries.find? fun e => e.1 == l).map (·.2)

/-- The tree with an entry at a location. -/
def put (t : Tree) (l : Location) (e : Entry) : Tree :=
  if t.entries.any (·.1 == l) then
    { t with entries := t.entries.map fun old => if old.1 == l then (l, e) else old }
  else { t with entries := t.entries ++ [(l, e)] }

/-- The tree with the directories that lead to a location. -/
def makeWay (t : Tree) (l : Location) : Tree :=
  (List.range (l.length - 1)).foldl (fun t i =>
    let above := l.take (i + 1)
    if (t.get? above).isSome then t else t.put above .directory) t

/-- The tree with an entry at some names from the directory it starts in, and the
directories that lead to it. -/
def plant (t : Tree) (names : Location) (e : Entry) : Tree :=
  (t.makeWay (t.start ++ names)).put (t.start ++ names) e

/-- The names from one location to another below it. -/
def below? (root l : Location) : Option Location :=
  if root.isPrefixOf l && root.length < l.length then some (l.drop root.length) else none

/-- The files below the directory that the tree starts in, by the names from there,
in the order of the tree. -/
def files (t : Tree) : List (Location × List UInt8) :=
  t.entries.filterMap fun e =>
    match below? t.start e.1, e.2 with
    | some names, .file content => some (names, content)
    | _, _ => none

/-! ### Following a path -/

/-- The length in bytes up to which names are looked up. -/
def nameLimit : Nat := 255

/-- The length in bytes from which on paths are not looked up. -/
def pathLimit : Nat := 4096

/-- One step from a location, which must be a directory.  Nothing is above the
root. -/
def step (t : Tree) (l : Location) (name : String) : Except Refusal Location :=
  match t.get? l with
  | none => .error .missing
  | some (.file _) => .error .notADirectory
  | some .directory =>
    if nameLimit < name.utf8ByteSize then .error .nameTooLong
    else if name = ".." then .ok l.dropLast
    else if name = "" ∨ name = "." then .ok l
    else .ok (l ++ [name])

/-- The location that some names lead to from another one. -/
def walk (t : Tree) (l : Location) (names : List String) : Except Refusal Location :=
  names.foldlM t.step l

/-- The location that a path starts from. -/
def origin (t : Tree) (p : Path) : Location := if p.slashes = 0 then t.start else []

/-- The location that a path leads to. -/
def follow (t : Tree) (p : Path) : Except Refusal Location :=
  if pathLimit ≤ p.text.utf8ByteSize then .error .nameTooLong
  else t.walk (t.origin p) p.names

/-- The location that a path leads to, or why it cannot be opened. -/
def spot (t : Tree) (p : Path) : Except Fault Location :=
  if p.hasZero then .error .zeroInPath
  else (t.follow p).mapError fun r => .refused r p.text

/-! ### Reading and writing -/

/-- The content of the file at a path. -/
def read (t : Tree) (p : Path) : Except Fault (List UInt8) := do
  let l ← t.spot p
  match t.get? l with
  | some (.file content) =>
    if t.limits.unreadable l then throw (.refused .denied p.text) else return content
  | some .directory => throw (.refused .isADirectory p.text)
  | none => throw (.refused .missing p.text)

/-- The location that a file is written at. -/
def target (t : Tree) (p : Path) : Except Fault Location := do
  let l ← t.spot p
  if t.get? l = some .directory then throw (.refused .isADirectory p.text)
  else if t.limits.unwritable l then throw (.refused .denied p.text)
  else return l

/-- What a file that was emptied holds once some content is written to it. -/
def Limits.kept (m : Limits) (l : Location) : Except Fault (List UInt8) → List UInt8
  | .error _ => []
  | .ok bytes =>
    match m.room l with
    | some n => bytes.take n
    | none => bytes

/-- Why some content is not written as a whole: it has no bytes, or there is no room
for all of them. -/
def Limits.cut? (m : Limits) (l : Location) : Except Fault (List UInt8) → Option Fault
  | .error f => some f
  | .ok bytes =>
    match m.room l with
    | some n => if n < bytes.length then some .deviceFull else none
    | none => none

/-- What a write has come to. -/
structure Writing where
  /-- The fault that has stopped it. -/
  fault : Option Fault
  tree : Tree

/-- Writes a file.  A file that is not opened stays as it was; one that is opened is
emptied, before anything is known of what is to be written. -/
def write (t : Tree) (p : Path) (content : Except Fault (List UInt8)) : Writing :=
  match t.target p with
  | .error f => ⟨some f, t⟩
  | .ok l => ⟨t.limits.cut? l content, t.put l (.file (t.limits.kept l content))⟩

/-- The tree after something has been written behind what a file holds, as far as
there is room. -/
def append (t : Tree) (p : Path) (content : List UInt8) : Except Fault Tree := do
  let l ← t.target p
  let before := match t.get? l with
    | some (.file old) => old
    | _ => []
  let added := match t.limits.room l with
    | some n => content.take (n - before.length)
    | none => content
  return t.put l (.file (before ++ added))

/-- Whether a path leads to a file.  A path that leads nowhere does not; a path
that is too long cannot be asked for. -/
def isFile (t : Tree) (p : Path) : Except Fault Bool :=
  match t.spot p with
  | .ok l =>
    match t.get? l with
    | some (.file _) => .ok true
    | _ => .ok false
  | .error (.refused .nameTooLong shown) => .error (.refused .nameTooLong shown)
  | .error _ => .ok false

/-! ### Small laws -/

@[simp] theorem get?_nil (t : Tree) : t.get? [] = some .directory := by simp [get?]

@[simp] theorem start_put (t : Tree) (l : Location) (e : Entry) : (t.put l e).start = t.start := by
  unfold put
  split <;> rfl

@[simp] theorem limits_put (t : Tree) (l : Location) (e : Entry) :
    (t.put l e).limits = t.limits := by
  unfold put
  split <;> rfl

theorem get?_put_self (t : Tree) {l : Location} (e : Entry) (h : l ≠ []) :
    (t.put l e).get? l = some e := by
  unfold put
  split
  · rename_i hany
    simp only [List.any_eq_true, beq_iff_eq] at hany
    obtain ⟨x, hx, hl⟩ := hany
    simp only [get?, h, if_false, List.find?_map, Option.map_map]
    have hsome : (t.entries.find? ((fun e => e.1 == l) ∘
        fun old => if old.1 == l then (l, e) else old)).isSome := by
      rw [List.find?_isSome]
      exact ⟨x, hx, by simp [hl]⟩
    obtain ⟨y, hy⟩ := Option.isSome_iff_exists.1 hsome
    have hp := List.find?_some hy
    rw [hy]
    by_cases hyl : y.1 = l
    · simp [hyl]
    · simp [hyl] at hp
  · rename_i hany
    have hnone : t.entries.find? (fun e => e.1 == l) = none := by
      rw [List.find?_eq_none]
      intro x hx hxl
      exact hany (List.any_eq_true.2 ⟨x, hx, hxl⟩)
    simp [get?, h, List.find?_append, hnone]

theorem get?_put_of_ne (t : Tree) {l m : Location} (e : Entry) (h : m ≠ l) :
    (t.put l e).get? m = t.get? m := by
  unfold put
  split
  · simp only [get?]
    split
    · rfl
    · rw [List.find?_map, Option.map_map]
      have hsame : ((fun e => e.1 == m) ∘ fun old : Location × Entry =>
          if old.1 == l then (l, e) else old) = fun e => e.1 == m := by
        funext old
        by_cases hold : old.1 = l
        · simp [hold]
        · simp [hold]
      rw [hsame]
      cases hf : t.entries.find? (fun e => e.1 == m) with
      | none => rfl
      | some y =>
        have hy := List.find?_some hf
        simp only [beq_iff_eq] at hy
        have hyl : ¬ y.1 = l := fun hyl => h (hy.symm.trans hyl)
        simp [hyl]
  · simp only [get?]
    split
    · rfl
    · rw [List.find?_append]
      have hne : (l == m) = false := by simpa using Ne.symm h
      cases t.entries.find? (fun e => e.1 == m) with
      | none => simp [List.find?, hne]
      | some y => simp

end Tree

end LogCalls
