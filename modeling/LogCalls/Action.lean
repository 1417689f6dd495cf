/-
LogCalls/Action.lean

Actions: the ways to write one call as a logger call, one for each severity
that its stream offers.  An action replaces the mention by the logger and the
severity, and what stands between the parentheses by the message and its
arguments.
-/
import LogCalls.CallSite
import LogCalls.Edit
import LogCalls.Message
import LogCalls.Pattern.Reader
import LogCalls.Style
import LogCalls.Template.Fill

namespace LogCalls

/-- One way to write a call. -/
structure Action where
  title : Text
  severity : String
  /-- The name of the logger in the new call. -/
  logger : String
  /-- Whether a conversion takes this action. -/
  preferred : Bool
  edits : List Edit
  deriving DecidableEq, Repr

namespace Style

/-- Whether a source has a generated logger: the style's pattern occurs in it. -/
def usesLombok (s : Style) (t : Text) : Except Fault Bool := do
  let p ← Pattern.read s.lombokPattern.toList
  return p.occursIn t

/-- The name of the logger. -/
def loggerFor (s : Style) (lombok : Bool) : String := if lombok then s.lombokLogger else s.logger

/-- The title of an action. -/
def titleFor (s : Style) (logger severity : String) (m : Mention) : Except Fault Text :=
  Template.fill s.title.toList
    [("logger".toList, logger.toList), ("severity".toList, severity.toList),
      ("stream".toList, m.stream.name.toList), ("method".toList, m.method)]

end Style

namespace Action

/-- What takes the place of the mention. -/
def callee (logger severity : String) : Text := logger.toList ++ '.' :: severity.toList

/-- The two edits of an action. -/
def editsFor (site : CallSite) (logger severity : String) (replacement : Text) : List Edit :=
  [⟨site.mention.start, site.mention.stop, callee logger severity⟩,
    ⟨site.openParen + 1, site.stop - 1, replacement⟩]

/-- The action that writes a call with the given severity. -/
def create (style : Style) (lombok : Bool) (site : CallSite) (severity : String) :
    Except Fault Action := do
  let logger := style.loggerFor lombok
  let title ← style.titleFor logger severity site.mention
  let replacement ← Message.replacement site.atoms
  return {
    title
    severity
    logger
    preferred := severity == (style.severities site.mention.stream).preferred
    edits := editsFor site logger severity replacement }

/-- The actions for a call, in the order in which its stream offers severities. -/
def forSite (style : Style) (lombok : Bool) (site : CallSite) : Except Fault (List Action) :=
  (style.severities site.mention.stream).offered.mapM (create style lombok site)

/-- The actions for the first call on the line with the given offset, if there
is one.  The pattern is looked for in the text before the offset. -/
def offers (style : Style) (t : Text) (offset : Int) : Logged (Option (List Action)) := do
  let lombok ← style.usesLombok (Text.upTo t offset)
  match Mention.onLine? t offset with
  | none => return none
  | some m =>
    match ← CallSite.ofMention? t m with
    | none => return none
    | some site => return some (← forSite style lombok site)

end Action

end LogCalls
