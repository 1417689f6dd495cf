/-
LogCalls/CallSite.lean

Call sites: mentions that are followed by a complete argument, with nothing
but blanks between the mention and the opening parenthesis.  A mention that is
no call site is noted and left alone.
-/
import LogCalls.Argument
import LogCalls.Mention

namespace LogCalls

/-- A call in a text. -/
structure CallSite where
  mention : Mention
  /-- The offset of the opening parenthesis. -/
  openParen : Int
  /-- The offset one past the closing parenthesis. -/
  stop : Int
  /-- The operands of the argument. -/
  atoms : List Atom
  deriving DecidableEq, Repr

namespace CallSite

/-- Notes that a mention is skipped. -/
def noteSkipped (m : Mention) (reason : String) : Logged Unit :=
  Logged.note .actions .debug
    ("Skipping " ++ String.ofList m.matched ++ " at offset " ++ toString m.start ++ ": " ++ reason)

/-- The text between a mention and the first opening parenthesis after it. -/
def gap (rest : Text) : Text := rest.takeWhile (· ≠ '(')

/-- The call site of a mention, if it is one. -/
def ofMention? (t : Text) (m : Mention) : Logged (Option CallSite) := do
  let rest := Text.onFrom t m.stop
  let argument ← Argument.read rest
  if !argument.valid then
    noteSkipped m "invalid syntax"
    return none
  else if Text.trim (gap rest) ≠ [] then
    noteSkipped m "not a call"
    return none
  else
    return some
      { mention := m
        openParen := m.stop + (gap rest).length
        stop := m.stop + argument.length
        atoms := argument.atoms }

end CallSite

end LogCalls
