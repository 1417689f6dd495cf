/-
LogCalls/Command/Directory.lean

The command that converts every Java source below a directory in place.
-/
import LogCalls.Command.Report
import LogCalls.Display.Balance
import LogCalls.Sources

namespace LogCalls.Command.Directory

/-- The line that tells how the command is used. -/
def usage : Text := Display.printed "Usage: convert_tree.py <source-dir> [config-spec ...]".toList

/-- The line that tells what is converted, with its tags; the directory is not
escaped. -/
def heading (count : Nat) (root : Path) : Text :=
  Markup.styled "bold"
    ("Converting " ++ toString count ++ " Java file(s) under " ++ root.text).toList ++ ['\n']

/-- The options of the run: the settings do not change them. -/
def options : RunOptions := { RunOptions.default with inPlace := true }

/-- Converts some sources; `output` has been printed before. -/
def convertAll (sources : List Path) (output : Text) (style : Style) (t : Tree)
    (entries : List Entry) : Report :=
  let b := Batch.sequence t (sources.map fun p => ⟨p, style, options, none⟩)
  let entries := entries ++ b.entries
  match b.raised with
  | some f => .raise f output b.tree entries
  | none => .ending b.summary.exitCode (output ++ b.summary.draw) b.tree entries

/-- Converts the sources below a directory, unless it is a path too long to be asked
for or its name spoils the tags of the heading. -/
def convertSources (root : Path) (style : Style) (t : Tree) (entries : List Entry) : Report :=
  match t.isFile root with
  | .error f => .raise f [] t entries
  | .ok _ =>
    let sources := Sources.below t root
    let line := heading sources.length root
    match Markup.flaw? line with
    | some wording => .raise (.unbalanced wording) [] t entries
    | none => convertAll sources (Display.printed line) style t entries

/-- The command with its words: a directory, and specs for the settings. -/
def run (words : List String) (around : Surroundings) : Report :=
  match words with
  | [] => .ending 1 usage around.tree []
  | root :: specs =>
    let specs := if specs = [] then [.shipped] else specs.map .written
    let loaded := Settings.load around specs none
    match loaded.result with
    | .error f => .raise f [] around.tree loaded.entries
    | .ok (style, _) => convertSources (Path.read root) style around.tree loaded.entries

end LogCalls.Command.Directory
