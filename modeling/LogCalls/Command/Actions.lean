/-
LogCalls/Command/Actions.lean

The command that lists what is offered for the print call on a line of a file.
-/
import LogCalls.Action
import LogCalls.Command.Report
import LogCalls.Position

namespace LogCalls.Command.Actions

/-- The options of the command. -/
def forms : List Switch.Form := [
  ⟨.line, some 'l', "--line", true⟩,
  ⟨.column, none, "--column", true⟩,
  ⟨.config, some 'c', "--config", true⟩]

/-- What the command is asked for. -/
structure Request where
  file : Path
  line : Int
  column : Int
  specs : List Spec

/-- Reads the words of the command, which needs one file and a line. -/
def Request.read? (words : List String) : Option Request := do
  let w ← Words.read forms words
  let line ← ← w.whole .line
  let column ← w.whole .column
  match w.arguments with
  | [file] => return ⟨Path.read file, line, column.getD 1, w.specs⟩
  | _ => none

/-- An integer as it is shown. -/
def shown (n : Int) : String := String.ofList (Text.signedNumeral n)

/-- The line of a text, counted from one. -/
def lineOf (t : Text) (line : Int) : Text := (Text.lines t).getD (line - 1).toNat []

/-- The row of an action: its number, its title, a star if it is preferred, and
the line after it. -/
def row (r : Request) (t : Text) (number : Nat) (a : Action) : Except Fault (List Text) := do
  let after ← Edit.applyAll t a.edits
  return [Text.numeral number, Markup.escape a.title, if a.preferred then ['*'] else [],
    Markup.escape (Text.trim (lineOf after r.line))]

/-- The table of the actions. -/
def table (r : Request) (t : Text) (actions : List Action) : Except Fault Display.Table := do
  let rows ← actions.zipIdx.mapM fun (a, i) => row r t (i + 1) a
  return {
    title := Markup.escape (r.file.text ++ ":" ++ shown r.line).toList
    columns := [⟨"#", true⟩, ⟨"Action", false⟩, ⟨"Preferred", false⟩, ⟨"Result", false⟩]
    rows }

/-- What is printed where nothing is offered. -/
def nothing (r : Request) : Text :=
  Display.printed <| Markup.styled "yellow" <| "No code actions at ".toList ++
    Markup.escape r.file.text.toList ++ (":" ++ shown r.line ++ ":" ++ shown r.column).toList

/-- The exit code and the output for a text. -/
def listing (r : Request) (style : Style) (t : Text) : Logged (Nat × Text) := do
  let offset ← Position.offset t r.line r.column
  match ← Action.offers style t offset with
  | none | some [] => return (1, nothing r)
  | some actions => return (0, (← table r t actions).draw)

/-- The text of a file. -/
def source (t : Tree) (p : Path) : Except Fault Text := do
  (Text.Utf8.decode (← t.read p)).mapError .undecodable

/-- Performs a request. -/
def handle (r : Request) (around : Surroundings) : Report :=
  let loaded := Settings.load around r.specs none
  match loaded.result with
  | .error f => .ofSettings f around.tree loaded.entries
  | .ok (style, _) =>
    match source around.tree r.file with
    | .error f =>
      .giveUp ("Could not read " ++ r.file.text ++ ": " ++ f.message) around.tree loaded.entries
    | .ok t =>
      let l := listing r style t
      let entries := loaded.entries ++ l.entries
      match l.result with
      | .ok (code, output) => .ending code output around.tree entries
      | .error (.lineOutside ..) => .misuse around.tree entries
      | .error f => .raise f [] around.tree entries

/-- The command with its words. -/
def run (words : List String) (around : Surroundings) : Report :=
  match Request.read? words with
  | none => .misuse around.tree []
  | some r => if r.file.hasZero then .raise .zeroInPath [] around.tree [] else handle r around

end LogCalls.Command.Actions
