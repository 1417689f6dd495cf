/-
LogCalls/Style.lean

How calls are written: the names of the logger, the pattern that tells which
of the two applies, the title of an action, and the severities of each stream.
The preferred severity of a stream is one of those it offers.
-/
import LogCalls.Mention

namespace LogCalls

/-- The severities that a stream offers, in the order they are offered, and
the one among them that a conversion takes. -/
structure Severities where
  offered : List String
  preferred : String
  preferred_mem : preferred ∈ offered
  deriving DecidableEq

/-- How calls are written. -/
structure Style where
  /-- The logger's name. -/
  logger : String
  /-- The logger's name where the pattern occurs before the call. -/
  lombokLogger : String
  /-- The pattern that marks a source as one with a generated logger. -/
  lombokPattern : String
  /-- The template of an action's title. -/
  title : String
  out : Severities
  err : Severities
  deriving DecidableEq

namespace Style

/-- The severities of a stream. -/
def severities (s : Style) : Stream → Severities
  | .out => s.out
  | .err => s.err

/-- What print calls to the standard output offer by default. -/
def defaultOut : Severities := ⟨["info", "debug", "trace"], "debug", by simp⟩

/-- What print calls to the error stream offer by default. -/
def defaultErr : Severities := ⟨["error"], "error", by simp⟩

/-- How calls are written unless the settings say otherwise. -/
def default : Style where
  logger := "logger"
  lombokLogger := "log"
  lombokPattern := "@Slf4j\\b"
  title := "Convert to \x7b\x7b logger \x7d\x7d.\x7b\x7b severity \x7d\x7d"
  out := defaultOut
  err := defaultErr

end Style

end LogCalls
