/-
LogCalls/Command/Convert.lean

The command that converts files: it loads the settings, converts every file and
prints a summary.
-/
import LogCalls.Command.Report
import LogCalls.LogFile

namespace LogCalls.Command.Convert

/-- The options of the command. -/
def forms : List Switch.Form := [
  ⟨.config, some 'c', "--config", true⟩,
  ⟨.inPlace, some 'i', "--in-place", false⟩,
  ⟨.suffix, none, "--suffix", true⟩,
  ⟨.severity, some 's', "--severity", true⟩,
  ⟨.workers, some 'w', "--workers", true⟩,
  ⟨.logFile, none, "--log-file", true⟩]

/-- What the command is asked for. -/
structure Request where
  files : List Path
  specs : List Spec
  inPlace : Bool
  suffix : Option String
  severity : Option String
  workers : Option Int
  logFile : Option Path

/-- Reads the words of the command, which needs a file. -/
def Request.read? (words : List String) : Option Request := do
  let w ← Words.read forms words
  let workers ← w.whole .workers
  guard (w.arguments ≠ [])
  return {
    files := w.arguments.map Path.read
    specs := w.specs
    inPlace := w.has .inPlace
    suffix := w.value? .suffix
    severity := w.value? .severity
    workers
    logFile := (w.value? .logFile).map Path.read }

/-- The options of the command as settings; what was not given, or given as
nothing, changes none. -/
def Request.overrides (r : Request) : Mapping :=
  let suffix : Value := match r.suffix with
    | some s => if s = "" then .unset else .text s
    | none => .unset
  let workers : Value := match r.workers with
    | some n => if n = 0 then .unset else .whole n
    | none => .unset
  [(.text "run", .mapping [
    (.text "in_place", if r.inPlace then .truth true else .unset),
    (.text "suffix", suffix),
    (.text "workers", workers)])]

/-- Converts the files with a style and options. -/
def convertFiles (r : Request) (style : Style) (options : RunOptions) (t : Tree)
    (entries : List Entry) : Report :=
  match Number.writeWhole options.workers with
  | .error f => .raise f [] t entries
  | .ok workers =>
    let begun : Entry := ⟨.general, .info, "Converting " ++ toString r.files.length ++
      " file(s) with " ++ String.ofList workers ++ " worker(s)"⟩
    let b := Batch.pool t (r.files.map fun p => ⟨p, style, options, r.severity⟩)
    let entries := entries ++ [begun] ++ b.entries
    -- a fault leaves no summary, but all files have been converted
    match b.raised with
    | some f => .raise f [] b.tree entries
    | none => .ending b.summary.exitCode b.summary.draw b.tree entries

/-- Loads the settings and converts the files. -/
def perform (r : Request) (around : Surroundings) (entries : List Entry) : Report :=
  let loaded := Settings.load around r.specs (some r.overrides)
  let entries := entries ++ loaded.entries
  match loaded.result with
  | .error f => .ofSettings f around.tree entries
  | .ok (style, options) => convertFiles r style options around.tree entries

/-- Performs a request, with its journal in a file if one is asked for. -/
def handle (r : Request) (around : Surroundings) : Report :=
  match r.logFile with
  | none => perform r around []
  | some p =>
    match LogFile.opened around p with
    | .error f => .raise f [] around.tree []
    | .ok t =>
      let report := perform r { around with tree := t } [LogFile.announcement p.text]
      { report with tree := LogFile.written around p 0 report.entries report.tree }

/-- The paths that a request names. -/
def Request.paths (r : Request) : List Path := r.logFile.toList ++ r.files

/-- The command with its words. -/
def run (words : List String) (around : Surroundings) : Report :=
  match Request.read? words with
  | none => .misuse around.tree []
  | some r =>
    if r.paths.any Path.hasZero then .raise .zeroInPath [] around.tree [] else handle r around

end LogCalls.Command.Convert
