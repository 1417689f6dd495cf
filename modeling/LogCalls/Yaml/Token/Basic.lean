/-
LogCalls/Yaml/Token/Basic.lean

The tokens of a document.  The nesting that a document shows by indentation is
made explicit: a block opens with a start and closes with an end, as brackets
do.
-/
import LogCalls.Fault
import LogCalls.Yaml.Tag

namespace LogCalls.Yaml

/-- What a line that starts with `%` says. -/
inductive Directive where
  /-- The version of the format. -/
  | version
  /-- What a handle of tags stands for. -/
  | handle (handle start : Text)
  | other
  deriving DecidableEq, Repr

/-- What ends the reading of a text although its form is right. -/
inductive Defect where
  /-- A code beyond those of characters. -/
  | noCharacter
  /-- A code beyond those that can be asked for. -/
  | codeTooLarge
  /-- A version whose number has more digits than are read. -/
  | longVersion (digits : Nat)
  deriving DecidableEq, Repr

/-- The fault of a defect. -/
def Defect.fault : Defect → Fault
  | .noCharacter => .noCharacter
  | .codeTooLarge => .mistaken .overflow "Python int too large to convert to C int"
  | .longVersion digits => .tooManyDigits digits

/-- Why a part of a text cannot be read. -/
inductive Flaw where
  | malformed
  | broken (d : Defect)
  deriving DecidableEq, Repr

/-- A token of a document. -/
inductive Token where
  | directive (d : Directive)
  | documentStart
  | documentEnd
  | blockListStart
  | blockMappingStart
  | blockEnd
  | listOpen
  | listClose
  | mappingOpen
  | mappingClose
  /-- The dash of a list outside of brackets. -/
  | dash
  | comma
  /-- The start of a key. -/
  | key
  /-- The colon between a key and its value. -/
  | colon
  | alias (name : Text)
  | anchor (name : Text)
  | tagging (t : WrittenTag)
  | scalar (plain : Bool) (content : Text)
  /-- A defect, behind which nothing is read. -/
  | broken (d : Defect)
  deriving DecidableEq, Repr

/-- The defect that a token stands for. -/
def Token.defect? : Token → Option Defect
  | .broken d => some d
  | _ => none

end LogCalls.Yaml
