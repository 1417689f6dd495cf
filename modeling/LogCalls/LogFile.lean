/-
LogCalls/LogFile.lean

Journals kept in a file.  The file is opened before anything is noted and then
grows by a line for each entry that matters enough.
-/
import LogCalls.Conversion
import LogCalls.Settings.Spec

namespace LogCalls

namespace LogFile

/-- The path of a log file from the directory that the run starts in. -/
def settled (p : Path) : Path := ⟨p.slashes, p.settled⟩

/-- The full text of a log file's path. -/
def fullText (around : Surroundings) (p : Path) : String :=
  (settled ((Path.read around.directory).join (settled p))).text

/-- A fault that names the path in full. -/
def inFull (around : Surroundings) (p : Path) : Fault → Fault
  | .refused r _ => .refused r (fullText around p)
  | f => f

/-- The entry that tells where the log goes, with the path as it was given. -/
def announcement (given : String) : Entry := ⟨.general, .info, "Logging to '" ++ given ++ "'"⟩

/-- The line of an entry in a log file. -/
def line (around : Surroundings) (e : Entry) : Text := (around.time ++ " - " ++ e.line).toList

/-- The tree with the log file, which is made where there is none. -/
def opened (around : Surroundings) (p : Path) : Except Fault Tree :=
  (around.tree.append (settled p) []).mapError (inFull around p)

/-- The tree after some entries; those below a rank are left out. -/
def written (around : Surroundings) (p : Path) (rank : Nat) (entries : List Entry) (t : Tree) :
    Tree :=
  let lines := (entries.filter fun e => rank ≤ e.level.rank).flatMap (line around)
  match t.append (settled p) (Text.Utf8.encode lines) with
  | .ok u => u
  | .error _ => t

end LogFile

/-- Converts a text with its journal in a file: the converted text, and the tree
with the log file. -/
def convertWithLog (around : Surroundings) (given : String) (rank : Nat) (announce : Bool)
    (t : Text) : Except Fault (Conversion × Tree) := do
  let p := Path.read given
  let tree ← LogFile.opened around p
  let r := convert Style.default none t
  let c ← r.result
  let entries := (if announce then [LogFile.announcement given] else []) ++ r.entries
  return (c, LogFile.written around p rank entries tree)

end LogCalls
