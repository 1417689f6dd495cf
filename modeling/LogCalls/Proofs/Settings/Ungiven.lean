/-
LogCalls/Proofs/Settings/Ungiven.lean

Options that were not given.  Overrides in which every leaf stands for such an option
(`Value.Hollow`) hold mappings and nothing else, and a mapping does not merge away: it
takes the place of what is no mapping, and stands where nothing was
(`get?_adoptAll_of_hollow`).  A reader that expects a value refuses it
(`fieldOr_adoptAll_of_refuses`), a part of the settings that was no mapping is read as
an empty one.

Main result: loading with such overrides has the outcome of loading without them
exactly where neither comes to pass (`load_with_ungiven`).
-/
import LogCalls.Command.Convert
import LogCalls.Proofs.Outcome
import LogCalls.Proofs.Settings.Merging

namespace LogCalls

/-! ### Hollow overrides -/

/-- A value in which every leaf stands for an option that was not given. -/
inductive Value.Hollow : Value → Prop
  | unset : Hollow .unset
  | mapping {m : Mapping} : m.Keyed → (∀ e ∈ m, Hollow e.2) → Hollow (.mapping m)

namespace Mapping

variable {m n o : Mapping} {k : Key}

/-- The mapping that a key has, if its value is one. -/
def below (m : Mapping) (k : Key) : Option Mapping := (get? m k).bind Value.entries?

theorem below_eq_some_iff : below m k = some n ↔ get? m k = some (.mapping n) := by
  rw [below, Option.bind_eq_some_iff]
  constructor
  · rintro ⟨v, hv, hn⟩
    cases v with
    | mapping n' =>
        obtain rfl := Option.some.inj hn
        exact hv
    | _ => cases hn
  · exact fun h => ⟨_, h, rfl⟩

theorem inner_eq_getD (m : Mapping) (k : Key) : inner m k = (below m k).getD [] := rfl

theorem hollow_of_below (ho : Value.Hollow (.mapping o)) (h : below o k = some n) :
    Value.Hollow (.mapping n) := by
  obtain ⟨l, hl⟩ := mem_of_get? (below_eq_some_iff.mp h)
  cases ho with
  | mapping _ hall => exact hall _ hl

/-- Hollow overrides change the keys that they have a mapping for. -/
theorem get?_adoptAll_of_hollow (ho : Value.Hollow (.mapping o)) (m : Mapping) (k : Key) :
    get? (adoptAll m o) k =
      match below o k with
      | some n => some (.mapping (adoptAll (inner m k) n))
      | none => get? m k := by
  cases ho with
  | mapping hkeyed hall =>
      rw [get?_adoptAll, hkeyed.valuesOf_eq_toList, below]
      rcases hget : get? o k with _ | v
      · rfl
      · obtain ⟨l, hl⟩ := mem_of_get? hget
        cases hall _ hl with
        | unset => rfl
        | mapping _ _ => rfl

end Mapping

/-! ### Readers that refuse a mapping -/

namespace Settings

open Mapping (below inner adoptAll)

variable {α : Type} {r n : Mapping} {name : String} {read : Value → Checked α} {a absent : α}

/-- A reader of values that are no mappings. -/
def Refuses (read : Value → Checked α) : Prop := ∀ m a, read (.mapping m) ≠ .ok a

theorem refuses_readText : Refuses readText := nofun

theorem refuses_readWhole : Refuses readWhole := nofun

theorem refuses_readTruth : Refuses readTruth := nofun

theorem refuses_readList (read : Value → Checked α) : Refuses (readList read) := nofun

theorem fieldOr_eq_ok_iff : fieldOr r name read absent = .ok a ↔
    match r.get? (.text name) with
    | some v => read v = .ok a
    | none => absent = a := by
  unfold fieldOr
  rcases r.get? (.text name) with _ | v
  · exact iff_of_eq (Except.ok.injEq _ _)
  · exact within_eq_ok_iff

theorem field_eq_ok_iff : field r name read = .ok a ↔
    ∃ v, r.get? (.text name) = some v ∧ read v = .ok a := by
  unfold field
  rw [within_eq_ok_iff]
  rcases r.get? (.text name) with _ | v
  · exact iff_of_false nofun nofun
  · simp

/-- Under hollow overrides a field that may be missing is read as before, unless they
have a mapping for it. -/
theorem fieldOr_adoptAll_of_refuses (hn : Value.Hollow (.mapping n)) (hread : Refuses read) :
    fieldOr (adoptAll r n) name read absent = .ok a ↔
      below n (.text name) = none ∧ fieldOr r name read absent = .ok a := by
  rw [fieldOr_eq_ok_iff, fieldOr_eq_ok_iff, Mapping.get?_adoptAll_of_hollow hn]
  rcases below n (.text name) with _ | x
  · exact (and_iff_right rfl).symm
  · exact iff_of_false (hread _ _) nofun

theorem field_adoptAll_of_refuses (hn : Value.Hollow (.mapping n)) (hread : Refuses read) :
    field (adoptAll r n) name read = .ok a ↔
      below n (.text name) = none ∧ field r name read = .ok a := by
  rw [field_eq_ok_iff, field_eq_ok_iff, Mapping.get?_adoptAll_of_hollow hn]
  rcases below n (.text name) with _ | x
  · exact (and_iff_right rfl).symm
  · refine iff_of_false ?_ nofun
    rintro ⟨v, hv, hok⟩
    obtain rfl := Option.some.inj hv
    exact hread _ _ hok

end Settings

/-! ### Records under hollow overrides -/

open Settings Mapping

variable {r n : Mapping}

theorem Severities.read_mapping_eq_ok_iff {s : Severities} : read (.mapping r) = .ok s ↔
    ∃ offered preferred, field r "severities" (readList readText) = .ok offered ∧
      field r "preferred" readText = .ok preferred ∧ ofParts offered preferred = .ok s := by
  unfold Severities.read readRecord
  simp only [ok_bind, bind_eq_ok_iff, Prod.exists, both_eq_ok_iff]
  constructor
  · rintro ⟨offered, preferred, ⟨hoffered, hpreferred⟩, hs⟩
    exact ⟨offered, preferred, hoffered, hpreferred, hs⟩
  · rintro ⟨offered, preferred, hoffered, hpreferred, hs⟩
    exact ⟨offered, preferred, ⟨hoffered, hpreferred⟩, hs⟩

theorem Style.ofValue_mapping_eq_ok_iff {s : Style} : ofValue (.mapping r) = .ok s ↔
    fieldOr r "logger_reference" readText Style.default.logger = .ok s.logger ∧
      fieldOr r "lombok_logger_reference" readText Style.default.lombokLogger =
        .ok s.lombokLogger ∧
      fieldOr r "lombok_pattern" readText Style.default.lombokPattern = .ok s.lombokPattern ∧
      fieldOr r "title_template" readText Style.default.title = .ok s.title ∧
      fieldOr r "out" Severities.read Style.default.out = .ok s.out ∧
      fieldOr r "err" Severities.read Style.default.err = .ok s.err := by
  unfold Style.ofValue readRecord
  rw [verdict_eq_ok_iff]
  simp only [ok_bind, bind_eq_ok_iff, Prod.exists, both_eq_ok_iff]
  constructor
  · rintro ⟨_, _, _, _, _, _, hfields, hs⟩
    obtain rfl := Except.ok.inj hs
    exact hfields
  · exact fun hfields => ⟨_, _, _, _, _, _, hfields, rfl⟩

theorem RunOptions.ofValue_mapping_eq_ok_iff {p : RunOptions} : ofValue (.mapping r) = .ok p ↔
    fieldOr r "suffix" readText RunOptions.default.suffix = .ok p.suffix ∧
      fieldOr r "in_place" readTruth RunOptions.default.inPlace = .ok p.inPlace ∧
      fieldOr r "workers" readWhole RunOptions.default.workers = .ok p.workers := by
  unfold RunOptions.ofValue readRecord
  rw [verdict_eq_ok_iff]
  simp only [ok_bind, bind_eq_ok_iff, Prod.exists, both_eq_ok_iff]
  constructor
  · rintro ⟨_, _, _, hfields, hp⟩
    obtain rfl := Except.ok.inj hp
    exact hfields
  · exact fun hfields => ⟨_, _, _, hfields, rfl⟩

/-- The severities of a stream have to be complete, so overrides need a mapping to
merge into, and none of their own where a value is expected. -/
structure Severities.Spares (r : Option Mapping) (n : Mapping) : Prop where
  record : r.isSome = true
  severities : below n (.text "severities") = none
  preferred : below n (.text "preferred") = none

/-- Overrides that leave all values of a style to be read as they are. -/
structure Style.Spares (r n : Mapping) : Prop where
  texts : ∀ name ∈ ["logger_reference", "lombok_logger_reference", "lombok_pattern",
    "title_template"], below n (.text name) = none
  streams : ∀ name ∈ ["out", "err"], ∀ x, below n (.text name) = some x →
    Severities.Spares (below r (.text name)) x

/-- Overrides that leave all options of a run to be read as they are. -/
structure RunOptions.Spares (n : Mapping) : Prop where
  values : ∀ name ∈ ["suffix", "in_place", "workers"], below n (.text name) = none

theorem Severities.read_adoptAll (hn : Value.Hollow (.mapping n)) {s : Severities} :
    read (.mapping (adoptAll r n)) = .ok s ↔
      (below n (.text "severities") = none ∧ below n (.text "preferred") = none) ∧
        read (.mapping r) = .ok s := by
  simp only [read_mapping_eq_ok_iff, field_adoptAll_of_refuses hn (refuses_readList readText),
    field_adoptAll_of_refuses hn refuses_readText]
  constructor
  · rintro ⟨offered, preferred, ⟨hfirst, hoffered⟩, ⟨hsecond, hpreferred⟩, hs⟩
    exact ⟨⟨hfirst, hsecond⟩, offered, preferred, hoffered, hpreferred, hs⟩
  · rintro ⟨⟨hfirst, hsecond⟩, offered, preferred, hoffered, hpreferred, hs⟩
    exact ⟨offered, preferred, ⟨hfirst, hoffered⟩, ⟨hsecond, hpreferred⟩, hs⟩

theorem Severities.fieldOr_adoptAll (hn : Value.Hollow (.mapping n)) {name : String}
    {absent s : Severities} :
    fieldOr (adoptAll r n) name read absent = .ok s ↔
      (∀ x, below n (.text name) = some x → Spares (below r (.text name)) x) ∧
        fieldOr r name read absent = .ok s := by
  rw [fieldOr_eq_ok_iff, fieldOr_eq_ok_iff, get?_adoptAll_of_hollow hn]
  rcases hx : below n (.text name) with _ | x
  · simp
  have hhollow := hollow_of_below hn hx
  dsimp only
  rw [read_adoptAll hhollow]
  rcases hy : below r (.text name) with _ | y
  · -- what the overrides bring is all that there is
    have hempty : read (.mapping (inner r (.text name))) ≠ .ok s := by
      rw [inner_eq_getD, hy]
      nofun
    exact iff_of_false (fun h => hempty h.2) fun h => nomatch (h.1 x rfl).record
  · rw [inner_eq_getD, hy, below_eq_some_iff.mp hy]
    refine and_congr_left fun _ => ?_
    constructor
    · rintro ⟨hseverities, hpreferred⟩ _ ⟨⟩
      exact ⟨rfl, hseverities, hpreferred⟩
    · exact fun h => ⟨(h x rfl).severities, (h x rfl).preferred⟩

/-- Under hollow overrides a style is read as before, if they spare it, and not at
all otherwise. -/
theorem Style.ofValue_adoptAll (hn : Value.Hollow (.mapping n)) {s : Style} :
    ofValue (.mapping (adoptAll r n)) = .ok s ↔ Spares r n ∧ ofValue (.mapping r) = .ok s := by
  have hspares : Spares r n ↔
      (∀ name ∈ ["logger_reference", "lombok_logger_reference", "lombok_pattern",
        "title_template"], below n (.text name) = none) ∧
      ∀ name ∈ ["out", "err"], ∀ x, below n (.text name) = some x →
        Severities.Spares (below r (.text name)) x :=
    ⟨fun h => ⟨h.texts, h.streams⟩, fun h => ⟨h.1, h.2⟩⟩
  rw [hspares, ofValue_mapping_eq_ok_iff, ofValue_mapping_eq_ok_iff]
  simp only [fieldOr_adoptAll_of_refuses hn refuses_readText, Severities.fieldOr_adoptAll hn,
    List.forall_mem_cons, List.not_mem_nil, false_imp_iff, implies_true, and_true]
  tauto

theorem RunOptions.ofValue_adoptAll (hn : Value.Hollow (.mapping n)) {p : RunOptions} :
    ofValue (.mapping (adoptAll r n)) = .ok p ↔ Spares n ∧ ofValue (.mapping r) = .ok p := by
  have hspares : Spares n ↔
      ∀ name ∈ ["suffix", "in_place", "workers"], below n (.text name) = none :=
    ⟨fun h => h.values, fun h => ⟨h⟩⟩
  rw [hspares, ofValue_mapping_eq_ok_iff, ofValue_mapping_eq_ok_iff]
  simp only [fieldOr_adoptAll_of_refuses hn refuses_readText,
    fieldOr_adoptAll_of_refuses hn refuses_readTruth,
    fieldOr_adoptAll_of_refuses hn refuses_readWhole, List.forall_mem_cons, List.not_mem_nil,
    false_imp_iff, implies_true, and_true]
  tauto

/-! ### Settings under hollow overrides -/

namespace Settings

variable {m o : Mapping} {name : String} {around : Surroundings} {specs : List Spec}

/-- A part of the settings as overrides find it: where they have a mapping for it, what
is no mapping counts as an empty one. -/
def opened (o m : Mapping) (name : String) : Value :=
  match below o (.text name) with
  | some _ => .mapping (inner m (.text name))
  | none => part m name

/-- Overrides that leave everything to be read as it is. -/
structure Spares (m o : Mapping) : Prop where
  style : ∀ n, below o (.text "rewrite") = some n → Style.Spares (inner m (.text "rewrite")) n
  options : ∀ n, below o (.text "run") = some n → RunOptions.Spares n

theorem isSome_entries?_part : (part m name).entries?.isSome = true ↔
    part m name = .mapping (inner m (.text name)) := by
  rw [part, Mapping.inner]
  rcases m.get? (.text name) with _ | v
  · exact iff_of_true rfl rfl
  · cases v with
    | mapping n => exact iff_of_true rfl rfl
    | _ => constructor <;> intro h <;> cases h

theorem opened_eq_part (h : (below o (.text name)).isSome = true →
    (part m name).entries?.isSome = true) : opened o m name = part m name := by
  rw [opened]
  rcases hbelow : below o (.text name) with _ | n
  · rfl
  · rw [hbelow] at h
    exact (isSome_entries?_part.mp (h rfl)).symm

theorem part_adoptAll (ho : Value.Hollow (.mapping o)) (m : Mapping) (name : String) :
    part (adoptAll m o) name =
      match below o (.text name) with
      | some n => .mapping (adoptAll (inner m (.text name)) n)
      | none => part m name := by
  rw [part, get?_adoptAll_of_hollow ho, part]
  rcases below o (.text name) with _ | n <;> rfl

theorem ofMapping_eq_ok_iff {c : Style × RunOptions} : ofMapping m = .ok c ↔
    Style.ofValue (part m "rewrite") = .ok c.1 ∧ RunOptions.ofValue (part m "run") = .ok c.2 := by
  unfold ofMapping
  rw [bind_eq_ok_iff]
  constructor
  · rintro ⟨style, hstyle, h⟩
    obtain ⟨options, hoptions, h⟩ := bind_eq_ok_iff.mp h
    obtain rfl := Except.ok.inj h
    exact ⟨hstyle, hoptions⟩
  · exact fun h => ⟨c.1, h.1, bind_eq_ok_iff.mpr ⟨c.2, h.2, rfl⟩⟩

/-- What is read has a mapping for each part that is there. -/
theorem isSome_part_of_ofMapping {c : Style × RunOptions} (h : ofMapping m = .ok c) :
    (part m "rewrite").entries?.isSome = true ∧ (part m "run").entries?.isSome = true := by
  obtain ⟨hstyle, hoptions⟩ := ofMapping_eq_ok_iff.mp h
  constructor
  · cases hpart : part m "rewrite" with
    | mapping n => rfl
    | _ =>
        rw [hpart] at hstyle
        cases hstyle
  · cases hpart : part m "run" with
    | mapping n => rfl
    | _ =>
        rw [hpart] at hoptions
        cases hoptions

/-- Settings under hollow overrides are read where these spare them, each part as the
overrides find it. -/
theorem ofMapping_adoptAll (ho : Value.Hollow (.mapping o)) {c : Style × RunOptions} :
    ofMapping (adoptAll m o) = .ok c ↔
      Spares m o ∧ Style.ofValue (opened o m "rewrite") = .ok c.1 ∧
        RunOptions.ofValue (opened o m "run") = .ok c.2 := by
  have hspares : Spares m o ↔
      (∀ n, below o (.text "rewrite") = some n → Style.Spares (inner m (.text "rewrite")) n) ∧
        ∀ n, below o (.text "run") = some n → RunOptions.Spares n :=
    ⟨fun h => ⟨h.style, h.options⟩, fun h => ⟨h.1, h.2⟩⟩
  have hstyle : Style.ofValue (part (adoptAll m o) "rewrite") = .ok c.1 ↔
      (∀ n, below o (.text "rewrite") = some n → Style.Spares (inner m (.text "rewrite")) n) ∧
        Style.ofValue (opened o m "rewrite") = .ok c.1 := by
    rw [part_adoptAll ho, opened]
    rcases hn : below o (.text "rewrite") with _ | n
    · simp
    · simp [Style.ofValue_adoptAll (hollow_of_below ho hn)]
  have hoptions : RunOptions.ofValue (part (adoptAll m o) "run") = .ok c.2 ↔
      (∀ n, below o (.text "run") = some n → RunOptions.Spares n) ∧
        RunOptions.ofValue (opened o m "run") = .ok c.2 := by
    rw [part_adoptAll ho, opened]
    rcases hn : below o (.text "run") with _ | n
    · simp
    · simp [RunOptions.ofValue_adoptAll (hollow_of_below ho hn)]
  rw [ofMapping_eq_ok_iff, hstyle, hoptions, hspares]
  tauto

/-- Overrides come to what the specs alone are merged to. -/
theorem merged_some (around : Surroundings) (specs : List Spec) (o : Mapping) :
    merged around specs (some o) = (merged around specs none).map (adoptAll · o) := by
  unfold merged
  rcases ofSpecs around specs with f | ms
  · rfl
  · simp [Mapping.merge_append]

/-- Settings that can be read have nothing to be opened. -/
theorem opened_eq_part_of_ofMapping {c : Style × RunOptions} (h : ofMapping m = .ok c)
    (o : Mapping) : opened o m "rewrite" = part m "rewrite" ∧ opened o m "run" = part m "run" := by
  obtain ⟨hstyle, hoptions⟩ := isSome_part_of_ofMapping h
  exact ⟨opened_eq_part fun _ => hstyle, opened_eq_part fun _ => hoptions⟩

/-- Hollow overrides change no outcome exactly where they spare what can be read, and
open nothing that can be read only then. -/
theorem sameOutcome_ofMapping_iff (ho : Value.Hollow (.mapping o)) :
    SameOutcome (ofMapping (adoptAll m o)) (ofMapping m) ↔
      ((∃ c, ofMapping m = .ok c) → Spares m o) ∧
        (Spares m o → (∃ style, Style.ofValue (opened o m "rewrite") = .ok style) →
          (∃ options, RunOptions.ofValue (opened o m "run") = .ok options) →
          ∀ name ∈ ["rewrite", "run"], (below o (.text name)).isSome = true →
            (part m name).entries?.isSome = true) := by
  constructor
  · intro hsame
    refine ⟨fun ⟨c, hc⟩ => ((ofMapping_adoptAll ho).mp ((hsame c).mpr hc)).1, ?_⟩
    rintro hspares ⟨style, hstyle⟩ ⟨options, hoptions⟩ name hname -
    have hread : ofMapping m = .ok (style, options) :=
      (hsame _).mp ((ofMapping_adoptAll ho).mpr ⟨hspares, hstyle, hoptions⟩)
    obtain ⟨hrewrite, hrun⟩ := isSome_part_of_ofMapping hread
    rcases List.mem_cons.mp hname with rfl | hname
    · exact hrewrite
    · rw [List.mem_singleton.mp hname]
      exact hrun
  · rintro ⟨hspares, hopened⟩ c
    rw [ofMapping_adoptAll ho]
    constructor
    · rintro ⟨hspare, hstyle, hoptions⟩
      have hmapping := hopened hspare ⟨c.1, hstyle⟩ ⟨c.2, hoptions⟩
      rw [opened_eq_part (hmapping "rewrite" (by simp))] at hstyle
      rw [opened_eq_part (hmapping "run" (by simp))] at hoptions
      exact ofMapping_eq_ok_iff.mpr ⟨hstyle, hoptions⟩
    · intro hc
      obtain ⟨hstyle, hoptions⟩ := ofMapping_eq_ok_iff.mp hc
      obtain ⟨hrewrite, hrun⟩ := opened_eq_part_of_ofMapping hc o
      exact ⟨hspares ⟨c, hc⟩, by rw [hrewrite, hstyle], by rw [hrun, hoptions]⟩

/-- The overrides of a command that is given no options. -/
def noOptions : Mapping :=
  [(.text "run", .mapping [(.text "in_place", .unset), (.text "suffix", .unset),
    (.text "workers", .unset)])]

theorem overrides_eq_noOptions {r : Command.Convert.Request} (hplace : r.inPlace = false)
    (hsuffix : r.suffix.getD "" = "") (hworkers : r.workers.getD 0 = 0) :
    r.overrides = noOptions := by
  obtain ⟨files, specs, inPlace, suffix, severity, workers, logFile⟩ := r
  obtain rfl : inPlace = false := hplace
  have hsuffix' : suffix = none ∨ suffix = some "" := by
    rcases suffix with _ | s
    · exact .inl rfl
    · exact .inr (congrArg some hsuffix)
  have hworkers' : workers = none ∨ workers = some 0 := by
    rcases workers with _ | n
    · exact .inl rfl
    · exact .inr (congrArg some hworkers)
  rcases hsuffix' with rfl | rfl <;> rcases hworkers' with rfl | rfl <;> rfl

theorem hollow_noOptions : Value.Hollow (.mapping noOptions) := by
  refine .mapping (List.pairwise_singleton _ _) (List.forall_mem_singleton.mpr ?_)
  refine .mapping (by unfold Keyed; decide) ?_
  simp only [List.forall_mem_cons, List.not_mem_nil, false_imp_iff, implies_true, and_true]
  exact ⟨.unset, .unset, .unset⟩

/-- Where no options are given, the options of the run alone can be opened. -/
theorem sameOutcome_noOptions_iff :
    SameOutcome (ofMapping (adoptAll m noOptions)) (ofMapping m) ↔
      ((∃ style, Style.ofValue (part m "rewrite") = .ok style) →
        (part m "run").entries?.isSome = true) := by
  have hrewrite : below noOptions (.text "rewrite") = none := rfl
  have hspares : Spares m noOptions := by
    refine ⟨fun n hn => absurd hn (by rw [hrewrite]; nofun), fun n hn => ⟨?_⟩⟩
    obtain rfl := Option.some.inj hn
    decide
  have hrun : ¬ (part m "run").entries?.isSome = true →
      RunOptions.ofValue (opened noOptions m "run") = .ok RunOptions.default := by
    intro hplain
    have hempty : inner m (.text "run") = [] := by
      rw [part] at hplain
      rw [Mapping.inner]
      rcases hget : m.get? (.text "run") with _ | v
      · rfl
      · rw [hget] at hplain
        cases v with
        | mapping n => exact absurd rfl hplain
        | _ => rfl
    show RunOptions.ofValue (.mapping (inner m (.text "run"))) = _
    rw [hempty]
    rfl
  rw [sameOutcome_ofMapping_iff hollow_noOptions]
  constructor
  · rintro ⟨-, hopened⟩ ⟨style, hstyle⟩
    refine Classical.byContradiction fun hplain => hplain ?_
    exact hopened hspares ⟨style, hstyle⟩ ⟨_, hrun hplain⟩ "run" (by simp) rfl
  · refine fun hmapping => ⟨fun _ => hspares, fun _ hstyle _ name hname hbelow => ?_⟩
    rcases List.mem_cons.mp hname with rfl | hname
    · rw [hrewrite] at hbelow
      cases hbelow
    · rw [List.mem_singleton.mp hname]
      exact hmapping hstyle

/-- **Options that were not given.**  Loading with overrides in which every leaf stands
for such an option fails as loading without them does where the specs cannot be read.
Where they can, its outcome is the same exactly if two things hold.  Overrides for
settings that can be read hold no mapping where a value is expected, and none for a
stream that the settings leave out.  And no part of the settings that is no mapping is
replaced by an empty one, such that the settings can be read then.  Without any option
of the command that converts files, only the second can come to pass, by options of the
run that are no mapping. -/
theorem load_with_ungiven (around : Surroundings) (specs : List Spec)
    (ho : Value.Hollow (.mapping o)) :
    (∀ f, merged around specs none = .error f →
      (load around specs (some o)).result = .error f ∧
        (load around specs none).result = .error f) ∧
    ∀ m, merged around specs none = .ok m →
      (SameOutcome (load around specs (some o)).result (load around specs none).result ↔
        ((∃ c, ofMapping m = .ok c) → Spares m o) ∧
          (Spares m o → (∃ style, Style.ofValue (opened o m "rewrite") = .ok style) →
            (∃ options, RunOptions.ofValue (opened o m "run") = .ok options) →
            ∀ name ∈ ["rewrite", "run"], (below o (.text name)).isSome = true →
              (part m name).entries?.isSome = true)) ∧
      ∀ r : Command.Convert.Request, r.inPlace = false → r.suffix.getD "" = "" →
        r.workers.getD 0 = 0 →
        (SameOutcome (load around specs (some r.overrides)).result
            (load around specs none).result ↔
          ((∃ style, Style.ofValue (part m "rewrite") = .ok style) →
            (part m "run").entries?.isSome = true)) := by
  have hnone : ∀ {m}, merged around specs none = .ok m →
      (load around specs none).result = ofMapping m := by
    intro m hm
    rw [result_load, hm, ok_bind]
  have hsome : ∀ {m} (o : Mapping), merged around specs none = .ok m →
      (load around specs (some o)).result = ofMapping (adoptAll m o) := by
    intro m o hm
    rw [result_load, merged_some, hm, map_ok, ok_bind]
  refine ⟨fun f hf => ?_, fun m hm => ⟨?_, fun r hplace hsuffix hworkers => ?_⟩⟩
  · rw [result_load, result_load, merged_some, hf, map_error, error_bind]
    exact ⟨rfl, rfl⟩
  · rw [hsome o hm, hnone hm]
    exact sameOutcome_ofMapping_iff ho
  · rw [hsome _ hm, hnone hm, overrides_eq_noOptions hplace hsuffix hworkers]
    exact sameOutcome_noOptions_iff

/-- A run with no files around it. -/
def bare : Surroundings := ⟨.empty, none, "", ""⟩

/-- A number of workers in the settings stands where no options are given. -/
theorem load_with_ungiven_workers :
    Value.Hollow (.mapping noOptions) ∧
      (load bare [.written "run.workers=2"] (some noOptions)).result =
        .ok (Style.default, { RunOptions.default with workers := 2 }) := by
  have hload : (load bare [.written "run.workers=2"] none).result =
      .ok (Style.default, { RunOptions.default with workers := 2 }) := by
    decide +kernel
  refine ⟨hollow_noOptions, ?_⟩
  have hload' := hload
  rw [result_load] at hload'
  obtain ⟨m, hm, hread⟩ := bind_eq_ok_iff.mp hload'
  have hsame := ((load_with_ungiven bare [.written "run.workers=2"] hollow_noOptions).2 m hm).2
    ⟨[], [.written "run.workers=2"], false, none, none, none, none⟩ rfl rfl rfl
  exact (hsame.mpr (fun _ => (isSome_part_of_ofMapping hread).2) _).mpr hload

/-- Options of the run that are no mapping are refused, but not under the overrides of
a command that is given no options. -/
theorem load_scalarRun :
    Value.Hollow (.mapping noOptions) ∧
      (load bare [.written "run=5"] none).result =
        .error (.invalid "RunConfig" [⟨[], .record "RunConfig"⟩]) ∧
      (load bare [.written "run=5"] (some noOptions)).result =
        .ok (Style.default, RunOptions.default) :=
  ⟨hollow_noOptions, by decide +kernel, by decide +kernel⟩

end Settings

end LogCalls
