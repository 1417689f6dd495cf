/-
LogCalls/Settings/Spec.lean

Where settings come from.  A spec with `=` in it gives one setting by its dotted
key; any other spec names a settings file, which is looked for as it stands, in
the directory for settings, and among the files shipped with the program.
-/
import LogCalls.Settings.Merge
import LogCalls.Tree
import LogCalls.Yaml.Meaning

namespace LogCalls

/-- What a run finds around it. -/
structure Surroundings where
  tree : Tree
  /-- The directory for settings, where one is set. -/
  settingsDirectory : Option String
  /-- The text of the directory that the run starts in. -/
  directory : String
  /-- The time in front of the lines of a log file. -/
  time : String

/-- A source of settings as it is asked for. -/
inductive Spec where
  | written (s : String)
  /-- The settings shipped with the program. -/
  | shipped
  deriving DecidableEq, Repr

/-- A settings file that may exist. -/
inductive Origin where
  | file (p : Path)
  /-- A file among those shipped with the program. -/
  | shipped (p : Path)
  deriving DecidableEq, Repr

namespace Settings

/-- The text of the directory with the files shipped with the program. -/
def shippedDirectory : String := "<builtin>"

/-- The name of the settings file shipped with the program. -/
def shippedName : String := "default.yaml"

/-- The lines of the settings file shipped with the program. -/
def shippedLines : List String := [
  "rewrite:",
  "  # Logger field used by default and when Lombok's @Slf4j is present",
  "  logger_reference: logger",
  "  lombok_logger_reference: log",
  "  lombok_pattern: '@Slf4j\\b'",
  "  title_template: \"Convert to \x7b\x7b logger \x7d\x7d.\x7b\x7b severity \x7d\x7d\"",
  "  out:",
  "    # Order is the order the alternatives are offered in",
  "    severities: [info, debug, trace]",
  "    preferred: debug",
  "  err:",
  "    severities: [error]",
  "    preferred: error",
  "run:",
  "  suffix: .converted",
  "  in_place: false",
  "  workers: 1"]

/-- The settings file shipped with the program. -/
def shippedText : Text := shippedLines.flatMap fun l => l.toList ++ ['\n']

/-- The name of the directory with the files shipped with the program. -/
def shippedHome : String := "config"

/-- The files shipped with the program and the directory they lie in. -/
def shippedTree : Tree :=
  Tree.empty.plant [shippedHome, shippedName] (.file (Text.Utf8.encode shippedText))

end Settings

open Settings

/-- The text of a spec. -/
def Spec.text : Spec → String
  | .written s => s
  | .shipped => shippedDirectory ++ "/" ++ shippedName

/-- The text of a settings file's path. -/
def Origin.text : Origin → String
  | .file p => p.text
  | .shipped p => shippedDirectory ++ "/" ++ p.text

namespace Settings

/-! ### Files -/

/-- Whether a settings file exists. -/
def exists? (around : Surroundings) : Origin → Except Fault Bool
  | .file p => around.tree.isFile p
  | .shipped p => shippedTree.isFile (Path.join ⟨0, [shippedHome]⟩ p)

/-- The path with the ending of a settings file. -/
def withUsualEnding (p : Path) : Except Fault Path :=
  if p.ending = ".yaml" ∨ p.ending = ".yml" then .ok p else p.withEnding ".yaml"

/-- The places where a settings file is looked for, in order. -/
def candidates (around : Surroundings) (p : Path) : List Origin :=
  -- a path from the root is the same seen from every directory
  [.file p, .file ((Path.read (around.settingsDirectory.getD ".")).join p),
    if p.slashes = 0 then .shipped p else .file p]

/-- The first of some settings files that exists. -/
def firstExisting? (around : Surroundings) : List Origin → Except Fault (Option Origin)
  | [] => .ok none
  | o :: r => do
    if ← exists? around o then return some o else firstExisting? around r

/-- The settings file that a spec names. -/
def locate (around : Surroundings) : Spec → Except Fault Origin
  | .shipped => .ok (.shipped ⟨0, [shippedName]⟩)
  | .written s => do
    let p ← withUsualEnding (Path.read s)
    match ← firstExisting? around (candidates around p) with
    | some o => return o
    | none => throw (.settingsMissing p.text ((candidates around p).map Origin.text))

/-- The settings file shipped with the program is there, whatever is around. -/
theorem exists?_shippedName (around : Surroundings) :
    exists? around (.shipped ⟨0, [shippedName]⟩) = .ok true := by
  have hjoin : Path.join ⟨0, [shippedHome]⟩ ⟨0, [shippedName]⟩ =
      ⟨0, [shippedHome, shippedName]⟩ := rfl
  have hspot : shippedTree.spot ⟨0, [shippedHome, shippedName]⟩ =
      .ok (shippedTree.start ++ [shippedHome, shippedName]) := by rfl
  have hget : shippedTree.get? (shippedTree.start ++ [shippedHome, shippedName]) =
      some (.file (Text.Utf8.encode shippedText)) := by
    rw [shippedTree, Tree.plant, Tree.start_put]
    exact Tree.get?_put_self _ _ (by simp)
  simp only [exists?, hjoin, Tree.isFile, hspot, hget]

/-- The text of a settings file, with one kind of line break. -/
def textOf (around : Surroundings) : Origin → Except Fault Text
  | .shipped _ => .ok shippedText
  | .file p => do
    let bytes ← around.tree.read p
    let t ← (Text.Utf8.decode bytes).mapError .undecodable
    return Text.unifyBreaks t

/-- The settings in a file; an empty file has none. -/
def ofFile (around : Surroundings) (o : Origin) : Except Fault Mapping := do
  match ← Yaml.read (← textOf around o) with
  | .null => return []
  | .mapping m => return m
  | v => throw (.notAMapping o.text v.sort)

/-! ### Single settings -/

/-- The mapping in which a value stands below a path of keys. -/
def nested : List String → Value → Value
  | [], v => v
  | k :: r, v => .mapping [(.text k, nested r v)]

/-- A value as it is written: as YAML, or as the text it is where it is none. -/
def writtenValue (t : Text) : Except Fault Value :=
  match Yaml.read t with
  | .error .malformedYaml => .ok (.text (String.ofList t))
  | r => r

/-- The parts of a dotted key, none of which may be empty. -/
def keyParts? (key : Text) : Option (List String) :=
  let parts := Text.splitAll '.' key
  if [] ∈ parts then none else some (parts.map String.ofList)

/-- The setting `key=value`. -/
def ofPair (spec : String) (key value : Text) : Except Fault Mapping :=
  match keyParts? key with
  | none => .error (.emptyKeyPart spec)
  | some parts => do
    match nested parts (← writtenValue value) with
    | .mapping m => return m
    | _ => return []

/-! ### Specs -/

/-- The settings that a spec gives. -/
def ofSpec (around : Surroundings) (spec : Spec) : Except Fault Mapping :=
  match spec with
  | .shipped => do ofFile around (← locate around spec)
  | .written s =>
    match Text.splitAtFirst? '=' s.toList with
    | some (key, value) => ofPair s key value
    | none => do ofFile around (← locate around spec)

end Settings

end LogCalls
