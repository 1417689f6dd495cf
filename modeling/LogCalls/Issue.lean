/-
LogCalls/Issue.lean

What can be wrong with one part of a record that is checked: where the part
is, and what was expected there.
-/
import LogCalls.Text.Quoted

namespace LogCalls

/-- One step on the way to a part of a record. -/
inductive Step where
  | field (name : String)
  | item (index : Nat)
  deriving DecidableEq, Repr

/-- What was expected of a part and not found. -/
inductive Expectation where
  | present
  | record (name : String)
  | text
  /-- A text that can be written in UTF-8. -/
  | pairedText
  | list
  | whole
  | real
  | wholeFromReal
  | finite
  | wholeFromText
  | smallerWhole
  | truth
  | truthFromText
  | oneOf (choices : String)
  | someSeverity
  | offered (preferred : String) (severities : List String)
  deriving DecidableEq, Repr

/-- The short name of an expectation. -/
def Expectation.tag : Expectation → String
  | .present => "missing"
  | .record _ => "model_type"
  | .text => "string_type"
  | .pairedText => "string_unicode"
  | .list => "list_type"
  | .whole => "int_type"
  | .real => "float_type"
  | .wholeFromReal => "int_from_float"
  | .finite => "finite_number"
  | .wholeFromText => "int_parsing"
  | .smallerWhole => "int_parsing_size"
  | .truth => "bool_type"
  | .truthFromText => "bool_parsing"
  | .oneOf _ => "enum"
  | .someSeverity => "value_error"
  | .offered .. => "value_error"

/-- The wording of an expectation. -/
def Expectation.message : Expectation → String
  | .present => "Field required"
  | .record name => "Input should be a valid dictionary or instance of " ++ name
  | .text => "Input should be a valid string"
  | .pairedText =>
    "Input should be a valid string, unable to parse raw data as a unicode string"
  | .list => "Input should be a valid list"
  | .whole => "Input should be a valid integer"
  | .real => "Input should be a valid number"
  | .wholeFromReal => "Input should be a valid integer, got a number with a fractional part"
  | .finite => "Input should be a finite number"
  | .wholeFromText => "Input should be a valid integer, unable to parse string as an integer"
  | .smallerWhole => "Unable to parse input string as an integer, exceeded maximum size"
  | .truth => "Input should be a valid boolean"
  | .truthFromText => "Input should be a valid boolean, unable to interpret input"
  | .oneOf choices => "Input should be " ++ choices
  | .someSeverity => "Value error, At least one severity is required"
  | .offered preferred severities =>
    "Value error, Preferred severity " ++ Text.quoted preferred ++ " is not one of " ++
      Text.quotedList severities

/-- A part of a record that is not as expected. -/
structure Issue where
  place : List Step
  expectation : Expectation
  deriving DecidableEq, Repr

/-- The issue seen from one level further out. -/
def Issue.within (step : Step) (i : Issue) : Issue := { i with place := step :: i.place }

end LogCalls
