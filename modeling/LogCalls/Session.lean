/-
LogCalls/Session.lean

A document that is changed step by step: its text and the style of its calls.
A step that fails leaves the document as it was.
-/
import LogCalls.Conversion
import LogCalls.Position

namespace LogCalls

/-- A text and how its calls are written. -/
structure Document where
  text : Text
  style : Style

namespace Document

/-- One step of a session. -/
inductive Step where
  /-- Converts every call, with a forced severity if one is given. -/
  | convert (forced : Option String)
  | edit (edits : List Edit)
  | restyle (style : Style)
  /-- Looks for a print call on a line. -/
  | find (line column : Int)
  /-- Applies the action with the given severity, or else the preferred one. -/
  | act (line column : Int) (severity : Option String)

/-- What a step tells. -/
inductive Answer where
  | converted (converted skipped : Nat)
  | done
  | found (offset : Nat) (mention : Option Mention)
  | acted (offset : Nat) (titles : Option (List Text)) (applied : Bool)

/-- The action that a step applies: the first one with the given severity, or
the first preferred one where none is given. -/
def chosen? (severity : Option String) (actions : List Action) : Option Action :=
  actions.find? fun a =>
    match severity with
    | some s => a.severity == s
    | none => a.preferred

/-- The document and the answer after a step. -/
def step (d : Document) : Step → Logged (Document × Answer)
  | .convert forced => do
    let c ← LogCalls.convert d.style forced d.text
    return ({ d with text := c.text }, .converted c.converted c.skipped)
  | .edit edits => do
    let text ← Edit.applyAll d.text edits
    return ({ d with text := text }, .done)
  | .restyle style => return ({ d with style := style }, .done)
  | .find line column => do
    let offset ← Position.offset d.text line column
    return (d, .found offset (Mention.onLine? d.text offset))
  | .act line column severity => do
    let offset ← Position.offset d.text line column
    let actions ← Action.offers d.style d.text offset
    let titles := actions.map fun as => as.map Action.title
    match chosen? severity (actions.getD []) with
    | none => return (d, .acted offset titles false)
    | some action =>
      let text ← Edit.applyAll d.text action.edits
      return ({ d with text := text }, .acted offset titles true)

/-- The document after a step, unchanged where the step fails. -/
def after (d : Document) (r : Logged (Document × Answer)) : Document :=
  match r.result with
  | .ok p => p.1
  | .error _ => d

end Document

end LogCalls
