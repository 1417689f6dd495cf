/-
LogCalls/Settings/Load.lean

The style and the options of a run from its specs.  The settings of the specs
are merged in their order, then the options of the command line over them.
-/
import LogCalls.Settings.Records
import LogCalls.Settings.Spec

namespace LogCalls

namespace Settings

/-- One part of the settings, empty where there is none. -/
def part (m : Mapping) (name : String) : Value := (m.get? (.text name)).getD (.mapping [])

/-- The style and the options that settings describe. -/
def ofMapping (m : Mapping) : Except Fault (Style × RunOptions) := do
  let style ← Style.ofValue (part m "rewrite")
  let options ← RunOptions.ofValue (part m "run")
  return (style, options)

/-- The settings of specs, in their order.  A mapping without end can be read but
not merged, so the other faults are found before it. -/
def ofSpecs (around : Surroundings) : List Spec → Except Fault (List Mapping)
  | [] => .ok []
  | spec :: specs =>
    match ofSpec around spec with
    | .ok m => (ofSpecs around specs).map (m :: ·)
    | .error f =>
      if f = Yaml.Node.endless then
        match ofSpecs around specs with
        | .ok _ => .error f
        | .error g => .error g
      else .error f

/-- The settings of specs with overrides, before they are checked. -/
def merged (around : Surroundings) (specs : List Spec) (overrides : Option Mapping) :
    Except Fault Mapping := do
  let ms ← ofSpecs around specs
  return Mapping.merge (ms.map some ++ [overrides])

/-- The style and the options that specs and overrides describe. -/
def load (around : Surroundings) (specs : List Spec) (overrides : Option Mapping) :
    Logged (Style × RunOptions) := do
  Logged.note .general .debug
    ("Building config from specs: " ++ Text.quotedList (specs.map Spec.text))
  ofMapping (← merged around specs overrides)

theorem result_load (around : Surroundings) (specs : List Spec) (overrides : Option Mapping) :
    (load around specs overrides).result = merged around specs overrides >>= ofMapping := by
  rw [load, Logged.result_bind, Logged.result_bind]
  rfl

end Settings

end LogCalls
