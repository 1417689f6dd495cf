/-
LogCalls/Settings/Records.lean

The records that come from outside as values: atoms, mentions, edits, the
style of calls and the options of a run.  Keys that a record does not know are
left alone.
-/
import LogCalls.Action
import LogCalls.Settings.Check

namespace LogCalls

open Settings

namespace Atom

/-- The content of an atom. -/
def readContent : Value → Checked Content
  | .truth b => .ok (.number (.whole (if b then 1 else 0)))
  | .whole n => .ok (.number (.whole n))
  | .real x => .ok (.number (.real x))
  | .text s => .ok (.text s.toList)
  | _ => .error [⟨[.field "int"], .whole⟩, ⟨[.field "float"], .real⟩, ⟨[.field "str"], .text⟩]

/-- The kind of an atom. -/
def readKind : Value → Checked Kind
  | .text s =>
    match Kind.ofName? s with
    | some k => .ok k
    | none => Checked.refuse (.oneOf "'string', 'numeric' or 'variable'")
  | _ => Checked.refuse (.oneOf "'string', 'numeric' or 'variable'")

/-- The atom with the given kind and content. -/
def ofParts (kind : Checked Kind) (content : Value) : Except Fault Atom :=
  verdict "ExpressionAtom" <|
    (Checked.both (Checked.within (.field "kind") kind)
      (Checked.within (.field "value") (readContent content))).map fun p => ⟨p.1, p.2⟩

end Atom

namespace Mention

/-- A stream by its name. -/
def readStream : Value → Checked Stream
  | .text s =>
    match Stream.ofName? s with
    | some stream => .ok stream
    | none => Checked.refuse (.oneOf "'out' or 'err'")
  | _ => Checked.refuse (.oneOf "'out' or 'err'")

/-- The mention that a record describes. -/
def ofValue (v : Value) : Except Fault Mention :=
  verdict "SystemOutMatch" do
    let m ← readRecord "SystemOutMatch" v
    let (start, matched, stream, method) ←
      Checked.both (field m "start" readWhole) <|
        Checked.both (field m "method_match" readText) <|
          Checked.both (field m "stream" readStream) (field m "method" readText)
    return ⟨start, matched.toList, stream, method.toList⟩

end Mention

namespace Edit

/-- The edit that a record describes. -/
def ofValue (v : Value) : Except Fault Edit :=
  verdict "TextEdit" do
    let m ← readRecord "TextEdit" v
    let (start, stop, newText) ←
      Checked.both (field m "start" readWhole) <|
        Checked.both (field m "end" readWhole) (field m "new_text" readText)
    return ⟨start, stop, newText.toList⟩

end Edit

namespace Severities

/-- The severities with a preferred one, if they offer it. -/
def ofParts (offered : List String) (preferred : String) : Checked Severities :=
  if offered = [] then Checked.refuse .someSeverity
  else if h : preferred ∈ offered then .ok ⟨offered, preferred, h⟩
  else Checked.refuse (.offered preferred offered)

/-- The severities that a record describes. -/
def read (v : Value) : Checked Severities := do
  let m ← readRecord "StreamConfig" v
  let (offered, preferred) ←
    Checked.both (field m "severities" (readList readText)) (field m "preferred" readText)
  ofParts offered preferred

/-- The severities that a record describes, by themselves. -/
def ofValue (v : Value) : Except Fault Severities := verdict "StreamConfig" (read v)

end Severities

namespace Style

/-- The style that a record describes; what it leaves out is as by default. -/
def ofValue (v : Value) : Except Fault Style :=
  verdict "RewriteConfig" do
    let m ← readRecord "RewriteConfig" v
    let d := Style.default
    let (logger, lombokLogger, lombokPattern, title, out, err) ←
      Checked.both (fieldOr m "logger_reference" readText d.logger) <|
        Checked.both (fieldOr m "lombok_logger_reference" readText d.lombokLogger) <|
          Checked.both (fieldOr m "lombok_pattern" readText d.lombokPattern) <|
            Checked.both (fieldOr m "title_template" readText d.title) <|
              Checked.both (fieldOr m "out" Severities.read d.out)
                (fieldOr m "err" Severities.read d.err)
    return { logger, lombokLogger, lombokPattern, title, out, err }

end Style

/-- The options of a run over files. -/
structure RunOptions where
  /-- What is appended to the name of a converted copy. -/
  suffix : String
  /-- Whether the file itself is overwritten. -/
  inPlace : Bool
  /-- How many files are converted at a time. -/
  workers : Int
  deriving DecidableEq, Repr

namespace RunOptions

/-- The options unless the settings say otherwise. -/
def default : RunOptions := ⟨".converted", false, 1⟩

/-- The options that a record describes; what it leaves out is as by default. -/
def ofValue (v : Value) : Except Fault RunOptions :=
  verdict "RunConfig" do
    let m ← readRecord "RunConfig" v
    let d := RunOptions.default
    let (suffix, inPlace, workers) ←
      Checked.both (fieldOr m "suffix" readText d.suffix) <|
        Checked.both (fieldOr m "in_place" readTruth d.inPlace)
          (fieldOr m "workers" readWhole d.workers)
    return { suffix, inPlace, workers }

end RunOptions

end LogCalls
