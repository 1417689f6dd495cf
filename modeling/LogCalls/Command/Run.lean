/-
LogCalls/Command/Run.lean

The program by its command line: the first word names the command.
-/
import LogCalls.Command.Actions
import LogCalls.Command.Convert

namespace LogCalls.Command

/-- The words after a `--` in front of the command. -/
def dropMark : List String → List String
  | "--" :: r => r
  | words => words

/-- The program with its words. -/
def run (words : List String) (around : Surroundings) : Report :=
  match dropMark words with
  | "convert" :: r => Convert.run r around
  | "actions" :: r => Actions.run r around
  | _ => .misuse around.tree []

end LogCalls.Command
