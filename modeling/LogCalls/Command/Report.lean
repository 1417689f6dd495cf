/-
LogCalls/Command/Report.lean

What a command leaves behind: its exit code, what it has printed, the files and
the journal.
-/
import LogCalls.Batch
import LogCalls.Command.Words
import LogCalls.Settings.Load

namespace LogCalls.Command

/-- The end of a command. -/
structure Report where
  exitCode : Nat
  /-- What it has printed; none where the command line was not understood. -/
  output : Option Text
  /-- The fault that has ended it. -/
  raised : Option Fault
  tree : Tree
  entries : List Entry

namespace Report

/-- A command line that is not understood. -/
def misuse (t : Tree) (entries : List Entry) : Report := ⟨2, none, none, t, entries⟩

/-- A command that a fault has ended. -/
def raise (f : Fault) (output : Text) (t : Tree) (entries : List Entry) : Report :=
  ⟨1, some output, some f, t, entries⟩

/-- A command that ends with an exit code. -/
def ending (code : Nat) (output : Text) (t : Tree) (entries : List Entry) : Report :=
  ⟨code, some output, none, t, entries⟩

/-- A command that has given up after noting why. -/
def giveUp (message : String) (t : Tree) (entries : List Entry) : Report :=
  ending 1 [] t (entries ++ [⟨.general, .error, message⟩])

/-- The end of a command whose settings cannot be loaded. -/
def ofSettings (f : Fault) (t : Tree) (entries : List Entry) : Report :=
  if f.isOfSettings then giveUp ("Invalid configuration: " ++ f.message) t entries
  else raise f [] t entries

end Report

/-- The specs of a command: those given, or the shipped settings. -/
def Words.specs (w : Words) : List Spec :=
  match w.values .config with
  | [] => [.shipped]
  | vs => vs.map .written

end LogCalls.Command
