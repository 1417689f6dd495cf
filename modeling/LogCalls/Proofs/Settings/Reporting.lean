/-
LogCalls/Proofs/Settings/Reporting.lean

Which faults of the settings a command reports.  It reports those of a few classes
(`reportedClasses`) and is ended by every other.  Most operations that load settings
fail in these classes alone: looking at a path, decoding, finding a mapping and the
checks of the records.  Four things are left (`Escapes`): a file whose text is no YAML, a
file that may not be read, a slip of what the YAML asks for (`Mistake.isSlip`), and a
path too long to be looked at.

Main result: loading fails with a fault that is not reported exactly where a spec has
one of these four and nothing before it fails (`load_escapes_iff`).
-/
import LogCalls.Command.Actions
import LogCalls.Proofs.Settings.Dotted

namespace LogCalls

/-- A member of a list with what is before and after it: the first, or one further on. -/
theorem exists_split_cons_iff {α : Type} {P : List α → α → List α → Prop} {a : α} {l : List α} :
    (∃ before b after, a :: l = before ++ b :: after ∧ P before b after) ↔
      P [] a l ∨ ∃ before b after, l = before ++ b :: after ∧ P (a :: before) b after := by
  constructor
  · rintro ⟨_ | ⟨c, before⟩, b, after, hsplit, h⟩
    · obtain ⟨rfl, rfl⟩ := List.cons.inj hsplit
      exact .inl h
    · obtain ⟨rfl, rfl⟩ := List.cons.inj hsplit
      exact .inr ⟨before, b, after, rfl, h⟩
  · rintro (h | ⟨before, b, after, rfl, h⟩)
    · exact ⟨[], a, l, rfl, h⟩
    · exact ⟨a :: before, b, after, rfl, h⟩

/-! ### Faults that are reported -/

/-- The classes of the faults that a command reports: values that are not as expected,
among them whole records and texts that cannot be decoded or encoded, and files that
are missing. -/
def reportedClasses : List String :=
  ["ValueError", "ValidationError", "UnicodeDecodeError", "UnicodeEncodeError",
    "FileNotFoundError"]

theorem Fault.isOfSettings_iff_label {f : Fault} :
    f.isOfSettings = true ↔ f.label ∈ reportedClasses := by
  cases f with
  | refused refusal _ => cases refusal <;> simp [isOfSettings, label, reportedClasses]
  | mistaken m _ =>
      cases m <;>
        simp [isOfSettings, isContained, Mistake.isContained, label, Mistake.label, reportedClasses]
  | _ => simp [isOfSettings, isContained, label, reportedClasses]

namespace Settings

/-- Every fault of an operation is one that a command reports. -/
abbrev Reported {α : Type} (x : Except Fault α) : Prop := RaisesOnly (·.isOfSettings = true) x

/-- A fault that is not reported is none of an operation whose faults are. -/
theorem Reported.ne_error {α : Type} {x : Except Fault α} {f : Fault} (h : Reported x)
    (hf : f.isOfSettings = false) : x ≠ .error f := by
  intro hx
  rw [h f hx] at hf
  cases hf

theorem reported_verdict {α : Type} (record : String) (x : Checked α) :
    Reported (verdict record x) := by
  rcases x with issues | a
  · exact raisesOnly_error rfl
  · exact raisesOnly_ok a

theorem reported_ofMapping (m : Mapping) : Reported (ofMapping m) :=
  (reported_verdict _ _).bind fun _ => (reported_verdict _ _).bind fun _ => raisesOnly_ok _

/-! ### Files -/

variable {around : Surroundings} {o : Origin} {spec : Spec} {f : Fault}

/-- A file that is found can be read, or may not be read. -/
theorem read_of_isFile {t : Tree} {p : Path} (h : t.isFile p = .ok true) :
    (∃ content, t.read p = .ok content) ∨ t.read p = .error (.refused .denied p.text) := by
  unfold Tree.isFile at h
  split at h
  next l hspot =>
    split at h
    next content hfile =>
      rw [Tree.read, hspot, ok_bind, hfile]
      dsimp only
      split
      · exact .inr rfl
      · exact .inl ⟨content, rfl⟩
    · cases h
  · cases h
  · cases h

/-- The one fault of asking for a file is that the path is too long. -/
theorem nameTooLong_of_isFile {t : Tree} {p : Path} (h : t.isFile p = .error f) :
    ∃ path, f = .refused .nameTooLong path := by
  unfold Tree.isFile at h
  split at h
  · split at h <;> cases h
  next path _ => exact ⟨path, (Except.error.inj h).symm⟩
  · cases h

theorem nameTooLong_of_exists? (h : exists? around o = .error f) :
    ∃ path, f = .refused .nameTooLong path := by
  cases o with
  | file p => exact nameTooLong_of_isFile h
  | shipped p => exact nameTooLong_of_isFile h

/-- The text of a file that exists is known, or it may not be read or cannot be
decoded. -/
theorem denied_of_textOf (h : exists? around o = .ok true) (hf : f.isOfSettings = false)
    (htext : textOf around o = .error f) : ∃ path, f = .refused .denied path := by
  cases o with
  | shipped p => cases htext
  | file p =>
      rcases read_of_isFile h with ⟨content, hread⟩ | hread
      · rw [textOf, hread, ok_bind] at htext
        rcases hdecode : Text.Utf8.decode content with flaw | t
        · rw [hdecode] at htext
          obtain rfl := Except.error.inj htext
          cases hf
        · rw [hdecode] at htext
          cases htext
      · rw [textOf, hread, error_bind] at htext
        exact ⟨p.text, (Except.error.inj htext).symm⟩

/-- Looking for a file fails at the first place that is neither without it nor the one
where it is. -/
theorem firstExisting?_eq_error_iff {places : List Origin} :
    firstExisting? around places = .error f ↔
      ∃ before o after, places = before ++ o :: after ∧
        (∀ x ∈ before, exists? around x = .ok false) ∧ exists? around o = .error f := by
  induction places with
  | nil => simp [firstExisting?]
  | cons x places ih =>
      rw [exists_split_cons_iff, firstExisting?]
      simp only [List.not_mem_nil, false_imp_iff, implies_true, true_and, List.forall_mem_cons]
      rcases hx : exists? around x with g | found
      · simp
      · cases found with
        | true => simp
        | false =>
            -- a place without the file is passed by, so the fault is one further on
            rw [ok_bind, if_neg Bool.false_ne_true, ih]
            simp

theorem exists?_of_firstExisting? {places : List Origin}
    (h : firstExisting? around places = .ok (some o)) : exists? around o = .ok true := by
  induction places with
  | nil => cases h
  | cons x places ih =>
      rw [firstExisting?] at h
      rcases hx : exists? around x with g | found
      · rw [hx] at h
        cases h
      · rw [hx, ok_bind] at h
        cases found with
        | true =>
            obtain rfl : x = o := Option.some.inj (Except.ok.inj h)
            exact hx
        | false => exact ih h

/-- A settings file that has been found exists. -/
theorem exists?_of_locate (h : locate around spec = .ok o) : exists? around o = .ok true := by
  cases spec with
  | shipped =>
      obtain rfl := Except.ok.inj h
      exact exists?_shippedName around
  | written s =>
      obtain ⟨p, -, h⟩ := bind_eq_ok_iff.mp h
      obtain ⟨found, hfound, h⟩ := bind_eq_ok_iff.mp h
      cases found with
      | none => cases h
      | some x =>
          obtain rfl : x = o := Except.ok.inj h
          exact exists?_of_firstExisting? hfound

/-! ### Specs -/

/-- The YAML that settings are read from: a file's text, or the value of a setting. -/
inductive Gives (around : Surroundings) : Spec → Text → Prop
  | file {spec : Spec} {o : Origin} {t : Text} : spec.NamesFile → locate around spec = .ok o →
      textOf around o = .ok t → Gives around spec t
  | value (p : DottedKey) (t : Text) : Gives around (p.spec t) t

/-- The faults of a spec that no command reports. -/
inductive Escapes (around : Surroundings) : Spec → Fault → Prop
  /-- A file whose text is no YAML. -/
  | malformed {spec : Spec} {o : Origin} {t : Text} : spec.NamesFile →
      locate around spec = .ok o → textOf around o = .ok t →
      Yaml.read t = .error .malformedYaml → Escapes around spec .malformedYaml
  /-- A file that may not be read. -/
  | denied {spec : Spec} {o : Origin} {path : String} : spec.NamesFile →
      locate around spec = .ok o → textOf around o = .error (.refused .denied path) →
      Escapes around spec (.refused .denied path)
  /-- A slip: a tag asks for what its content is not, a number or the code of a character
  is too large, or a mapping is inside itself. -/
  | slip {spec : Spec} {t : Text} {m : Mistake} {wording : String} : Gives around spec t →
      Yaml.read t = .error (.mistaken m wording) → m.isSlip = true →
      Escapes around spec (.mistaken m wording)
  /-- A path too long to be looked at, before the file is found. -/
  | tooLong {s path : String} {p : Path} {before after : List Origin} {o : Origin} :
      (Spec.written s).NamesFile → withUsualEnding (Path.read s) = .ok p →
      candidates around p = before ++ o :: after → (∀ x ∈ before, exists? around x = .ok false) →
      exists? around o = .error (.refused .nameTooLong path) →
      Escapes around (.written s) (.refused .nameTooLong path)

theorem reported_withUsualEnding (p : Path) : Reported (withUsualEnding p) := by
  unfold withUsualEnding
  split
  · exact raisesOnly_ok p
  · unfold Path.withEnding
    split
    · exact raisesOnly_error rfl
    · exact raisesOnly_ok _

theorem escapes_of_locate (hfile : spec.NamesFile) (h : locate around spec = .error f)
    (hf : f.isOfSettings = false) : Escapes around spec f := by
  cases spec with
  | shipped => cases h
  | written s =>
      rcases bind_eq_error_iff.mp h with hending | ⟨p, hending, h⟩
      · exact absurd hending ((reported_withUsualEnding _).ne_error hf)
      rcases bind_eq_error_iff.mp h with hfirst | ⟨found, -, h⟩
      · obtain ⟨before, o, after, hplaces, hbefore, ho⟩ := firstExisting?_eq_error_iff.mp hfirst
        obtain ⟨path, rfl⟩ := nameTooLong_of_exists? ho
        exact .tooLong hfile hending hplaces hbefore ho
      · cases found with
        | some o => cases h
        | none =>
            obtain rfl := Except.error.inj h
            cases hf

/-- The faults in a file that has been found are those of its YAML, or it may not be
read. -/
theorem escapes_of_ofFile (hfile : spec.NamesFile) (hlocate : locate around spec = .ok o)
    (h : ofFile around o = .error f) (hf : f.isOfSettings = false) : Escapes around spec f := by
  rcases bind_eq_error_iff.mp h with htext | ⟨t, htext, h⟩
  · obtain ⟨path, rfl⟩ := denied_of_textOf (exists?_of_locate hlocate) hf htext
    exact .denied hfile hlocate htext
  rcases bind_eq_error_iff.mp h with hread | ⟨v, -, h⟩
  · rcases (Yaml.raisesOnly_read t f hread).isOfSettings_eq_false_iff.mp hf with
      rfl | ⟨m, wording, rfl, hm⟩
    · exact .malformed hfile hlocate htext hread
    · exact .slip (.file hfile hlocate htext) hread hm
  · split at h
    · cases h
    · cases h
    · obtain rfl := Except.error.inj h
      cases hf

theorem writtenValue_eq_error_iff {t : Text} :
    writtenValue t = .error f ↔ Yaml.read t = .error f ∧ f ≠ .malformedYaml := by
  unfold writtenValue
  split
  next hread => simp [hread, eq_comm]
  next hread =>
    refine ⟨fun h => ⟨h, ?_⟩, fun h => h.1⟩
    rintro rfl
    exact hread h

theorem ofSpec_of_file {t : Text} (hfile : spec.NamesFile) (hlocate : locate around spec = .ok o)
    (htext : textOf around o = .ok t) (hread : Yaml.read t = .error f) :
    ofSpec around spec = .error f := by
  rw [ofSpec_of_namesFile hfile, hlocate, ok_bind, ofFile, htext, ok_bind, hread, error_bind]

/-- The faults of the YAML that a spec gives are faults of the spec, but for a value that
is no YAML. -/
theorem ofSpec_of_gives {t : Text} (hgives : Gives around spec t) (hread : Yaml.read t = .error f)
    (hf : f ≠ .malformedYaml) : ofSpec around spec = .error f := by
  cases hgives with
  | file hfile hlocate htext => exact ofSpec_of_file hfile hlocate htext hread
  | value p => rw [ofSpec_dotted, writtenValue_eq_error_iff.mpr ⟨hread, hf⟩, map_error]

theorem ofSpec_escapes_iff :
    ofSpec around spec = .error f ∧ f.isOfSettings = false ↔ Escapes around spec f := by
  constructor
  · rintro ⟨h, hf⟩
    rcases ofSpec_cases around spec with hfile | ⟨p, value, rfl⟩ | ⟨s, hs⟩
    · rw [ofSpec_of_namesFile hfile] at h
      rcases bind_eq_error_iff.mp h with hlocate | ⟨o, hlocate, h⟩
      · exact escapes_of_locate hfile hlocate hf
      · exact escapes_of_ofFile hfile hlocate h hf
    · rw [ofSpec_dotted] at h
      rcases hvalue : writtenValue value with g | v
      · rw [hvalue] at h
        obtain rfl := Except.error.inj h
        -- a value that is no YAML is the text it is, so a slip is left
        obtain ⟨hread, hmalformed⟩ := writtenValue_eq_error_iff.mp hvalue
        rcases (Yaml.raisesOnly_read value g hread).isOfSettings_eq_false_iff.mp hf with
          rfl | ⟨m, wording, rfl, hm⟩
        · exact absurd rfl hmalformed
        · exact .slip (.value p value) hread hm
      · rw [hvalue] at h
        cases h
    · rw [hs] at h
      obtain rfl := Except.error.inj h
      cases hf
  · intro h
    cases h with
    | malformed hfile hlocate htext hread =>
        exact ⟨ofSpec_of_file hfile hlocate htext hread, rfl⟩
    | denied hfile hlocate htext =>
        refine ⟨?_, rfl⟩
        rw [ofSpec_of_namesFile hfile, hlocate, ok_bind, ofFile, htext, error_bind]
    | slip hgives hread hm =>
        refine ⟨ofSpec_of_gives hgives hread nofun, ?_⟩
        exact (Yaml.raisesOnly_read _ _ hread).isOfSettings_eq_false_iff.mpr (.inr ⟨_, _, rfl, hm⟩)
    | tooLong hfile hending hplaces hbefore ho =>
        refine ⟨?_, rfl⟩
        have hfirst := firstExisting?_eq_error_iff.mpr ⟨_, _, _, hplaces, hbefore, ho⟩
        rw [ofSpec_of_namesFile hfile, locate, hending, ok_bind, hfirst, error_bind, error_bind]

/-! ### Specs in their order -/

/-- A spec that does not keep the specs after it from being read: its settings are known,
or they can only not be merged. -/
abbrev Passes (around : Surroundings) (spec : Spec) : Prop :=
  RaisesOnly (· = Yaml.Node.endless) (ofSpec around spec)

variable {specs : List Spec}

/-- Specs fail with the fault of the first, or of those after it where the first passes;
what cannot be merged is the fault only where nothing else is. -/
theorem ofSpecs_cons_eq_error_iff :
    ofSpecs around (spec :: specs) = .error f ↔
      (ofSpec around spec = .error f ∧
          (f = Yaml.Node.endless → RaisesOnly (· = Yaml.Node.endless) (ofSpecs around specs))) ∨
        (Passes around spec ∧ ofSpecs around specs = .error f) := by
  rw [ofSpecs, Passes]
  rcases hspec : ofSpec around spec with g | m
  · rw [raisesOnly_error_iff, Except.error.injEq]
    dsimp only
    split
    next hg =>
      -- what cannot be merged gives way to the fault of a spec after it
      subst hg
      rcases ofSpecs around specs with g' | ms
      · rw [raisesOnly_error_iff, Except.error.injEq]
        constructor
        · exact fun h => .inr ⟨rfl, h⟩
        · rintro (⟨rfl, h⟩ | ⟨-, h⟩)
          · exact h rfl
          · exact h
      · simp [raisesOnly_ok]
    next hg =>
      rw [Except.error.injEq]
      constructor
      · rintro rfl
        exact .inl ⟨rfl, fun h => absurd h hg⟩
      · rintro (⟨h, -⟩ | ⟨h, -⟩)
        · exact h
        · exact absurd h hg
  · rcases ofSpecs around specs with g | ms <;> simp [raisesOnly_ok]

theorem raisesOnly_ofSpecs_iff :
    RaisesOnly (· = Yaml.Node.endless) (ofSpecs around specs) ↔
      ∀ s ∈ specs, Passes around s := by
  induction specs with
  | nil => exact iff_of_true (raisesOnly_ok _) nofun
  | cons spec specs ih =>
      rw [List.forall_mem_cons, ← ih]
      constructor
      · intro h
        have hspec : Passes around spec := by
          intro f hf
          refine Classical.byContradiction fun hne => hne (h f ?_)
          exact ofSpecs_cons_eq_error_iff.mpr (.inl ⟨hf, fun heq => absurd heq hne⟩)
        exact ⟨hspec, fun f hf => h f (ofSpecs_cons_eq_error_iff.mpr (.inr ⟨hspec, hf⟩))⟩
      · rintro ⟨hspec, hspecs⟩ f hf
        rcases ofSpecs_cons_eq_error_iff.mp hf with ⟨hf, -⟩ | ⟨-, hf⟩
        · exact hspec f hf
        · exact hspecs f hf

/-- Specs fail with the fault of one of them, where those before it pass; what cannot be
merged is the fault only where all others pass. -/
theorem ofSpecs_eq_error_iff :
    ofSpecs around specs = .error f ↔
      ∃ before spec after, specs = before ++ spec :: after ∧ ofSpec around spec = .error f ∧
        (∀ s ∈ before, Passes around s) ∧
        (f = Yaml.Node.endless → ∀ s ∈ after, Passes around s) := by
  induction specs with
  | nil => simp [ofSpecs]
  | cons spec specs ih =>
      rw [exists_split_cons_iff, ofSpecs_cons_eq_error_iff, ih, raisesOnly_ofSpecs_iff]
      simp only [List.not_mem_nil, false_imp_iff, implies_true, true_and, List.forall_mem_cons]
      refine or_congr_right ?_
      constructor
      · rintro ⟨hspec, before, s, after, hsplit, hs, hbefore, hafter⟩
        exact ⟨before, s, after, hsplit, hs, ⟨hspec, hbefore⟩, hafter⟩
      · rintro ⟨before, s, after, hsplit, hs, ⟨hspec, hbefore⟩, hafter⟩
        exact ⟨hspec, before, s, after, hsplit, hs, hbefore, hafter⟩

/-- **What a command reports of its settings.**  Loading settings fails with a fault whose
class no command reports exactly where one of the specs has a file whose text is no YAML
or that may not be read, a slip of what its YAML asks for, or a path too long to be
looked at, and the specs before it pass (and those after it, where the slip is a mapping
inside itself).  A fault of any other class is noted as an invalid configuration and
ends the command with exit code one, one of these is raised. -/
theorem load_escapes_iff (around : Surroundings) (specs : List Spec) (overrides : Option Mapping)
    (f : Fault) :
    ((load around specs overrides).result = .error f ∧ f.label ∉ reportedClasses ↔
      ∃ before spec after, specs = before ++ spec :: after ∧ Escapes around spec f ∧
        (∀ s ∈ before, Passes around s) ∧
        (f = Yaml.Node.endless → ∀ s ∈ after, Passes around s)) ∧
    ∀ (t : Tree) (entries : List Entry), Command.Report.ofSettings f t entries =
      if f.label ∈ reportedClasses then
        .ending 1 [] t (entries ++ [⟨.general, .error, "Invalid configuration: " ++ f.message⟩])
      else .raise f [] t entries := by
  refine ⟨?_, fun t entries => ?_⟩
  · rw [← Fault.isOfSettings_iff_label, Bool.not_eq_true, result_load]
    constructor
    · rintro ⟨h, hf⟩
      rcases bind_eq_error_iff.mp h with hmerged | ⟨m, -, hcheck⟩
      · rcases bind_eq_error_iff.mp hmerged with hspecs | ⟨ms, -, h⟩
        · obtain ⟨before, spec, after, hsplit, hspec, hbefore, hafter⟩ :=
            ofSpecs_eq_error_iff.mp hspecs
          exact ⟨before, spec, after, hsplit, ofSpec_escapes_iff.mp ⟨hspec, hf⟩, hbefore, hafter⟩
        · cases h
      · -- the checks of what is merged find faults of records alone
        exact absurd hcheck ((reported_ofMapping m).ne_error hf)
    · rintro ⟨before, spec, after, hsplit, hescapes, hbefore, hafter⟩
      obtain ⟨hspec, hf⟩ := ofSpec_escapes_iff.mpr hescapes
      have hspecs := ofSpecs_eq_error_iff.mpr ⟨before, spec, after, hsplit, hspec, hbefore, hafter⟩
      rw [merged, hspecs, error_bind, error_bind]
      exact ⟨rfl, hf⟩
  · rw [Command.Report.ofSettings]
    simp only [Fault.isOfSettings_iff_label]
    rfl

/-- A settings file with a list that is not closed. -/
def openList : Surroundings :=
  { tree := Tree.empty.plant ["bad.yaml"] (.file "rewrite: [".toUTF8.toList)
    settingsDirectory := none
    directory := ""
    time := "" }

/-- A settings file that is no YAML ends a command with a fault that is not reported. -/
theorem load_openList :
    (load openList [.written "bad.yaml"] none).result = .error .malformedYaml ∧
      Fault.malformedYaml.label ∉ reportedClasses ∧
      (Command.Actions.handle ⟨⟨0, ["A.java"]⟩, 1, 1, [.written "bad.yaml"]⟩ openList).raised =
        some .malformedYaml := by
  refine ⟨?_, ?_, ?_⟩ <;> decide +kernel

/-- A value that its tag does not fit is not reported either. -/
example : (load openList [.written "run.in_place=!!bool maybe"] none).result =
    .error (.mistaken .key "'maybe'") := by
  decide +kernel

end Settings

end LogCalls
