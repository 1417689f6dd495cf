/-
LogCalls/Conversion.lean

Converting every call of a text.  The mentions are taken from left to right; a
mention inside a call that is already converted, and one that is no call, is
skipped.  All edits are made at the end, on the text as it was.
-/
import LogCalls.Action

namespace LogCalls

namespace Conversion

/-- How far a conversion has come. -/
structure Progress where
  edits : List Edit := []
  /-- The end of the last converted call. -/
  reached : Int := 0
  converted : Nat := 0
  skipped : Nat := 0
  deriving DecidableEq, Repr

/-- The progress with one mention more left alone. -/
def Progress.skip (p : Progress) : Progress := { p with skipped := p.skipped + 1 }

/-- The progress with one call more converted. -/
def Progress.convert (p : Progress) (site : CallSite) (action : Action) : Progress :=
  { p with
    edits := p.edits ++ action.edits
    reached := site.stop
    converted := p.converted + 1 }

/-- The severity of a converted call: a forced one holds for the standard
output, and only where it is not empty. -/
def severityFor (style : Style) (forced : Option String) (stream : Stream) : String :=
  match forced, stream with
  | some severity, .out => if severity = "" then style.out.preferred else severity
  | _, _ => (style.severities stream).preferred

/-- One mention. -/
def step (style : Style) (forced : Option String) (t : Text) (p : Progress) (m : Mention) :
    Logged Progress := do
  if m.start < p.reached then return p.skip
  else
    match ← CallSite.ofMention? t m with
    | none => return p.skip
    | some site =>
      -- only what stands before the call decides about its logger
      let lombok ← style.usesLombok (Text.upTo t m.start)
      let action ← Action.create style lombok site (severityFor style forced m.stream)
      return p.convert site action

/-- Some mentions, one after the other. -/
def run (style : Style) (forced : Option String) (t : Text) :
    List Mention → Progress → Logged Progress
  | [], p => return p
  | m :: ms, p => do
    let p' ← step style forced t p m
    run style forced t ms p'

end Conversion

/-- The outcome of a conversion. -/
structure Conversion where
  text : Text
  converted : Nat
  skipped : Nat
  deriving DecidableEq, Repr

/-- Converts every call of a text to the preferred severity of its stream, or
to a forced one. -/
def convert (style : Style) (forced : Option String) (t : Text) : Logged Conversion := do
  let p ← Conversion.run style forced t (Mention.all t) {}
  Logged.note .actions .debug
    ("Converted " ++ toString p.converted ++ " call(s), skipped " ++ toString p.skipped)
  let text ← Edit.applyAll t p.edits
  return ⟨text, p.converted, p.skipped⟩

end LogCalls
