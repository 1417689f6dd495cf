/-
LogCalls/Template/Fill.lean

Templates filled: the text that a template shows, with names for some texts.
-/
import LogCalls.Template.Check
import LogCalls.Template.Reader

namespace LogCalls.Template

/-- What every template knows by name. -/
def commonNames : List (Text × Value) := [
  ("range".toList, .kind .span), ("dict".toList, .kind .mapping),
  ("lipsum".toList, .function "generate_lorem_ipsum".toList), ("cycler".toList, .kind .cycler),
  ("joiner".toList, .kind .joiner), ("namespace".toList, .kind .fields)]

/-- The store in which a template is filled: the surroundings first, then the
variables of its body. -/
def firstStore (names : List (Text × Text)) (blocks : List (Text × Block)) : Store :=
  let given := names.foldl (fun l p => Symbols.put l p.1 (Value.text p.2)) commonNames
  ⟨#[.context [] given, .locals none []], [], false, blocks⟩

/-- Shows the body of a template. -/
def showBody (m : Machine) (body : List Stmt) : Eval Text := do
  let f : Frame := ⟨[templateSymbols body], 1, 0, some false, true, false⟩
  if !(undeclared body ["self"]).isEmpty then
    f.setName "self".toList (.object (← Eval.allocate (.template 0)))
  f.enter
  Eval.captured (m.run f body)

/-- The text that a template shows, with names for some texts. -/
def fill (t : Text) (names : List (Text × Text)) : Except Fault Text := do
  let body ← read t
  let m := machine levels
  let blocks ← check m body
  match (showBody m body).run' (firstStore names blocks) with
  | .ok text => return text
  | .error (.fault f) => throw f
  | .error .unknown => throw .malformedTemplate

end LogCalls.Template
