/-
LogCalls/Template/Filter.lean

All filters, by name.
-/
import LogCalls.Template.Filter.OfForm
import LogCalls.Template.Filter.OfNumber
import LogCalls.Template.Filter.OfRow
import LogCalls.Template.Filter.OfText

namespace LogCalls.Template

/-- The names of the filters. -/
def filterNames : List String := [
  "abs", "attr", "batch", "capitalize", "center", "count", "d", "default", "dictsort", "e",
  "escape", "filesizeformat", "first", "float", "forceescape", "format", "groupby", "indent",
  "int", "items", "join", "last", "length", "list", "lower", "map", "max", "min", "pprint",
  "random", "reject", "rejectattr", "replace", "reverse", "round", "safe", "select",
  "selectattr", "slice", "sort", "string", "striptags", "sum", "title", "tojson", "trim",
  "truncate", "unique", "upper", "urlencode", "urlize", "wordcount", "wordwrap", "xmlattr"]

/-- Whether there is a filter of a name. -/
def isFilter (name : Text) : Bool := filterNames.contains (String.ofList name)

/-- Whether a filter asks for more than what is written out. -/
def asksTemplate (name : Text) : Bool :=
  ["map", "random", "reject", "rejectattr", "select", "selectattr"].contains (String.ofList name)

/-- The name of the function behind a filter in complaints about a call. -/
def filterLabel (name : Text) : String :=
  match String.ofList name with
  | "abs" => "abs"
  | "length" | "count" => "len"
  | "d" | "default" => "jinja2.filters.do_default"
  | "e" | "escape" => "markupsafe.escape"
  | "string" => "markupsafe.soft_str"
  | "safe" => "jinja2.filters.do_mark_safe"
  | s => "jinja2.filters.do_" ++ s

namespace Machine

/-- Applies the filter of a name. -/
def applyFilter (m : Machine) (name : Text) (v : Value) (a : Arguments) : Eval Value :=
  let s := String.ofList name
  let found := (m.textFilter? s v a).orElse fun _ =>
    (m.rowFilter? s v a).orElse fun _ =>
      (m.numberFilter? s v a).orElse fun _ => m.formFilter? s v a
  match found with
  | some e => e
  | none => Eval.refuse

end Machine

end LogCalls.Template
