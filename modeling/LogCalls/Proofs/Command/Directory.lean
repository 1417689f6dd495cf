/-
LogCalls/Proofs/Command/Directory.lean

What the command for a directory leaves behind.  However it ends, the files it has
changed are Java sources below the directory and outside of what a build makes, and
each holds the conversion of its old text, or what is kept of it where a fault has cut
the write; and where no fault ends the command, it has changed every source that it
could, and reports on each (`run_converts_sources`).

A source is emptied before its new text is turned into bytes.  So a text that has no
bytes leaves nothing of the source (`run_surrogateLogger`).

The sources are separate (`Sources.separate_below`), so the jobs that were done
before a fault have changed what each of them changes alone (`exists_done`).
-/
import LogCalls.Command.Directory
import LogCalls.Proofs.Job.Writing
import LogCalls.Proofs.Sources.Below

namespace LogCalls.Command.Directory

variable {root : Path} {style : Style} {t u : Tree} {names l : Tree.Location}
variable {old : List UInt8} {c : Conversion} {entries : List Entry}

/-- The specs that the command takes from its words. -/
def specsOf (words : List String) : List Spec :=
  if words = [] then [.shipped] else words.map .written

/-- The path of a file by its names below the directory. -/
def pathOf (root : Path) (names : Tree.Location) : Path :=
  { root with parts := root.parts ++ names }

/-- The job of the command for a file. -/
def jobFor (style : Style) (p : Path) : Job := ⟨p, style, options, none⟩

/-- The jobs of the command. -/
def jobs (t : Tree) (root : Path) (style : Style) : List Job :=
  (Sources.below t root).map (jobFor style)

/-- A Java source below a directory and outside of what a build makes, with its names,
its location and its content. -/
structure IsSource (t : Tree) (root : Path) (names l : Tree.Location) (content : List UInt8) :
    Prop where
  location : ∃ base, t.spot root = .ok base ∧ l = base ++ names
  counts : Sources.counts names = true
  content : t.get? l = some (.file content)

/-- A content with a call, and its conversion. -/
def Converts (style : Style) (content : List UInt8) (c : Conversion) : Prop :=
  ∃ v, Text.Utf8.decode content = .ok v ∧ (convert style none v).result = .ok c ∧
    c.converted ≠ 0

/-- What the write of a source's conversion comes to. -/
def rewriting (t : Tree) (root : Path) (style : Style) (names : Tree.Location) (c : Conversion) :
    Tree.Writing :=
  t.write (pathOf root names) (style.encode c.text)

/-- What stands at the location of a file of `t` afterwards: its conversion, or what is
kept of it where a fault has cut the write. -/
inductive Rewritten (t : Tree) (style : Style) (c : Conversion) (l : Tree.Location) (u : Tree) :
    Prop
  | whole : t.limits.cut? l (style.encode c.text) = none →
      u.get? l = some (.file (Text.Utf8.encode c.text)) → Rewritten t style c l u
  | cut {f : Fault} : t.limits.cut? l (style.encode c.text) = some f →
      u.get? l = some (.file (t.limits.kept l (style.encode c.text))) → Rewritten t style c l u

theorem rewritten_of_kept
    (h : u.get? l = some (.file (t.limits.kept l (style.encode c.text)))) :
    Rewritten t style c l u := by
  rcases hcut : t.limits.cut? l (style.encode c.text) with _ | f
  · refine .whole hcut ?_
    rw [h, Style.kept_of_cut?_eq_none hcut]
  · exact .cut hcut h

/-! ### The end of the command -/

theorem separate_jobs (hproper : t.Proper) (root : Path) (style : Style) :
    (jobs t root style).Pairwise (Job.Separate t) :=
  Sources.separate_below hproper root rfl

/-- The command ends before its first job, or as its jobs end. -/
theorem convertSources_cases (root : Path) (style : Style) (t : Tree) (entries : List Entry) :
    ((convertSources root style t entries).tree = t ∧
        (convertSources root style t entries).raised ≠ none) ∨
      ((convertSources root style t entries).tree = (Batch.sequence t (jobs t root style)).tree ∧
        (convertSources root style t entries).raised =
          (Batch.sequence t (jobs t root style)).raised ∧
        ((convertSources root style t entries).raised = none →
          (convertSources root style t entries).exitCode =
            (Batch.sequence t (jobs t root style)).summary.exitCode ∧
          (convertSources root style t entries).output =
            some (Display.printed (heading (Sources.below t root).length root) ++
              (Batch.sequence t (jobs t root style)).summary.draw))) := by
  unfold convertSources
  dsimp only
  -- the directory cannot be asked for, or its name spoils the heading
  split
  · exact .inl ⟨rfl, Option.some_ne_none _⟩
  split
  · exact .inl ⟨rfl, Option.some_ne_none _⟩
  · have hjobs : ((Sources.below t root).map fun p => (⟨p, style, options, none⟩ : Job)) =
        jobs t root style := rfl
    unfold convertAll
    rw [hjobs]
    dsimp only
    refine .inr ?_
    split
    next f hraised => exact ⟨rfl, hraised.symm, fun h => absurd h (Option.some_ne_none _)⟩
    next hraised => exact ⟨rfl, hraised.symm, fun _ => ⟨rfl, rfl⟩⟩

/-- The results of some jobs, each run alone. -/
def resultsAlone (t : Tree) (jobs : List Job) : Summary := jobs.map fun j => (j.run t).result

/-- When the command has ended, some of its jobs are done, and all of them where no
fault has ended it. -/
theorem exists_done (hproper : t.Proper) (root : Path) (style : Style) (entries : List Entry) :
    ∃ done rest, jobs t root style = done ++ rest ∧ done.Pairwise (Job.Separate t) ∧
      Job.Changed t done (convertSources root style t entries).tree ∧
      ((convertSources root style t entries).raised = none → rest = [] ∧
        (convertSources root style t entries).exitCode = (resultsAlone t done).exitCode ∧
        (convertSources root style t entries).output =
          some (Display.printed (heading (Sources.below t root).length root) ++
            (resultsAlone t done).draw)) := by
  rcases convertSources_cases root style t entries with ⟨htree, hraised⟩ | ⟨htree, hraised, hend⟩
  · refine ⟨[], _, (List.nil_append _).symm, .nil, ?_, fun h => absurd h hraised⟩
    rw [htree]
    exact Job.changed_nil t
  · obtain ⟨done, rest, hsplit, hdone, hchanged, hsummary, hrest⟩ :=
      Batch.sequence_of_separate (separate_jobs hproper root style)
    refine ⟨done, rest, hsplit, hdone, ?_, fun hnone => ?_⟩
    · rw [htree]
      exact hchanged
    · obtain ⟨hcode, houtput⟩ := hend hnone
      rw [hcode, houtput, hsummary]
      exact ⟨hrest (hraised ▸ hnone), rfl, rfl⟩

/-! ### What the jobs change -/

/-- What a job of the command changes is a source with a call. -/
theorem isSource_of_change? (hproper : t.Proper) {j : Job} (hj : j ∈ jobs t root style)
    {new : List UInt8} (h : j.change? t = some (l, new)) :
    ∃ names old c, IsSource t root names l old ∧ Converts style old c ∧
      new = t.limits.kept l (style.encode c.text) := by
  obtain ⟨p, hp, rfl⟩ := List.mem_map.mp hj
  obtain ⟨base, names, hbase, -, hnames, rfl⟩ := Sources.mem_below_iff.mp hp
  obtain ⟨q, v, hwrite, -, rfl⟩ := Job.change?_eq_some_iff.mp h
  obtain ⟨old, text, c, hread, hdecode, hconvert, hsome, -, rfl⟩ :=
    Job.write_plan_eq_iff.mp hwrite
  obtain ⟨m, hspot, hfile, -⟩ := Tree.read_eq_ok_iff.mp hread
  have hinput := (Sources.outputs_inPlace_iff rfl).mp (Job.outputs_of_change? h).1
  obtain rfl : l = m := Except.ok.inj (hinput.symm.trans hspot)
  have hlocation : l = base ++ names := Sources.spot_of_mem_relative hproper hbase hnames hspot
  exact ⟨names, old, c, ⟨⟨base, hbase, hlocation⟩, (Sources.mem_relative_iff.mp hnames).2, hfile⟩,
    ⟨text, hdecode, hconvert, hsome⟩, rfl⟩

/-- A source that can be read has a job, which reads it at its location. -/
theorem IsSource.mem_jobs (h : IsSource t root names l old) (hproper : t.Proper)
    {bytes : List UInt8} (hread : t.read (pathOf root names) = .ok bytes) (style : Style) :
    jobFor style (pathOf root names) ∈ jobs t root style ∧ t.spot (pathOf root names) = .ok l ∧
      bytes = old := by
  obtain ⟨⟨base, hbase, rfl⟩, hcounts, hfile⟩ := h
  have hne := Sources.ne_nil_of_counts hcounts
  have hnames : names ∈ Sources.relative t base := by
    refine Sources.mem_relative_iff.mpr ⟨?_, hcounts⟩
    rw [← Tree.get?_ne_none_iff (List.append_ne_nil_of_right_ne_nil _ hne), hfile]
    exact Option.some_ne_none _
  obtain ⟨m, hspot, hbytes, -⟩ := Tree.read_eq_ok_iff.mp hread
  obtain rfl : m = base ++ names := Sources.spot_of_mem_relative hproper hbase hnames hspot
  -- the path of the source goes on from the base
  have hdirectory : t.get? base = some .directory := by
    obtain ⟨m, hm, hrest⟩ := Tree.exists_walk_of_spot_below
      (Sources.isName_of_mem_relative hproper hnames) hspot
    obtain rfl : base = m := Except.ok.inj ((Tree.walk_of_spot hbase).symm.trans hm)
    exact Tree.directory_of_walk hne hrest
  refine ⟨List.mem_map_of_mem (Sources.mem_below_iff.mpr ?_), hspot, ?_⟩
  · exact ⟨base, names, hbase, hdirectory, hnames, rfl⟩
  · exact Tree.Entry.file.inj (Option.some.inj (hbytes.symm.trans hfile))

/-- Where no fault has ended the command, a source with a call is left as its write alone
leaves it. -/
theorem get?_convertSources (hproper : t.Proper) (hsource : IsSource t root names l old)
    {bytes : List UInt8} (hread : t.read (pathOf root names) = .ok bytes)
    (h : Converts style old c) (hraised : (convertSources root style t entries).raised = none) :
    (convertSources root style t entries).tree.get? l =
      (rewriting t root style names c).tree.get? l := by
  obtain ⟨done, rest, hsplit, hdone, hchanged, hend⟩ := exists_done hproper root style entries
  obtain ⟨rfl, -⟩ := hend hraised
  obtain ⟨hmem, hspot, rfl⟩ := hsource.mem_jobs hproper hread style
  rw [hsplit, List.append_nil] at hmem
  obtain ⟨v, hdecode, hconvert, hsome⟩ := h
  have hplan : ((jobFor style (pathOf root names)).plan (t.read (pathOf root names))).write =
      .ok (some (pathOf root names, style.encode c.text)) :=
    Job.write_plan_eq_iff.mpr ⟨bytes, v, c, hread, hdecode, hconvert, hsome, rfl, rfl⟩
  have houtputs : (jobFor style (pathOf root names)).Outputs t l :=
    (Sources.outputs_inPlace_iff rfl).mpr hspot
  rw [hchanged.get?_of_outputs hdone hmem houtputs, Job.tree_run_of_plan hplan, rewriting]

variable {word : String} {words : List String} {around : Surroundings} {loaded : RunOptions}

theorem run_of_load (word : String)
    (h : (Settings.load around (specsOf words) none).result = .ok (style, loaded)) :
    ∃ entries, run (word :: words) around =
      convertSources (Path.read word) style around.tree entries := by
  rw [specsOf] at h
  unfold run
  dsimp only
  rw [h]
  exact ⟨_, rfl⟩

/-- **Only sources below the directory change.**  However the command ends, each
location that has changed is that of a Java source below the directory, outside of
what a build makes, and holds the conversion of its old text, or what is kept of it
where a fault has cut the write.  Where no fault ends the command, there is one result
for each source, and the exit code tells whether one of them records an error.  Each
source with a call that can be read holds its conversion then, if its write succeeds,
and its result records the fault of the write otherwise. -/
theorem run_converts_sources (hproper : around.tree.Proper)
    (hload : (Settings.load around (specsOf words) none).result = .ok (style, loaded)) :
    (∀ l, (run (word :: words) around).tree.get? l ≠ around.tree.get? l →
      ∃ names old c, IsSource around.tree (Path.read word) names l old ∧ Converts style old c ∧
        Rewritten around.tree style c l (run (word :: words) around).tree) ∧
    ((run (word :: words) around).raised = none →
      ∃ summary : Summary,
        summary.map FileResult.path = Sources.below around.tree (Path.read word) ∧
        (run (word :: words) around).output =
          some (Display.printed (heading summary.length (Path.read word)) ++ summary.draw) ∧
        ((run (word :: words) around).exitCode = 1 ↔ ∃ r ∈ summary, r.error ≠ "") ∧
        ∀ names l old c bytes, IsSource around.tree (Path.read word) names l old →
          around.tree.read (pathOf (Path.read word) names) = .ok bytes → Converts style old c →
          let w := rewriting around.tree (Path.read word) style names c
          (run (word :: words) around).tree.get? l = w.tree.get? l ∧
            (w.fault = none → w.tree.get? l = some (.file (Text.Utf8.encode c.text))) ∧
            ∀ f, w.fault = some f → ∃ r ∈ summary, r.path = pathOf (Path.read word) names ∧
              r.output = none ∧ r.error = f.report) := by
  obtain ⟨entries, hrun⟩ := run_of_load word hload
  rw [hrun]
  obtain ⟨done, rest, hsplit, hdone, hchanged, hend⟩ :=
    exists_done hproper (Path.read word) style entries
  refine ⟨fun l hl => ?_, fun hraised => ?_⟩
  -- what has changed was changed by a job that is done
  · rcases hchanged.get? l with ⟨j, hj, new, hchange, hget⟩ | ⟨-, hget⟩
    · have hjob : j ∈ jobs around.tree (Path.read word) style := by
        rw [hsplit]
        exact List.mem_append_left rest hj
      obtain ⟨names, old, c, hsource, hconverts, rfl⟩ := isSource_of_change? hproper hjob hchange
      exact ⟨names, old, c, hsource, hconverts, rewritten_of_kept hget⟩
    · exact absurd hget hl
  -- without a fault, all jobs are done
  obtain ⟨rfl, hcode, houtput⟩ := hend hraised
  rw [List.append_nil] at hsplit
  subst hsplit
  have hpaths : (resultsAlone around.tree (jobs around.tree (Path.read word) style)).map
      FileResult.path = Sources.below around.tree (Path.read word) := by
    rw [resultsAlone, jobs, List.map_map, List.map_map]
    simp only [Function.comp_def, Job.path_run, jobFor, List.map_id']
  have hlength := congrArg List.length hpaths
  rw [List.length_map] at hlength
  refine ⟨_, hpaths, ?_, ?_, fun names l old c bytes hsource hread hconverts => ?_⟩
  · rw [houtput, hlength]
  · rw [hcode]
    exact Summary.exitCode_eq_one_iff _
  · obtain ⟨hmem, hspot, rfl⟩ := hsource.mem_jobs hproper hread style
    refine ⟨get?_convertSources hproper hsource hread hconverts hraised, fun hnone => ?_,
      fun f hf => ?_⟩
    · obtain ⟨m, new, htarget, hnew, htree⟩ := Tree.write_of_fault_eq_none hnone
      obtain rfl : l = m := Except.ok.inj (hspot.symm.trans (Tree.spot_of_target htarget))
      rw [rewriting, htree, Tree.get?_put_self, Style.eq_of_encode_eq_ok hnew]
      rintro rfl
      exact Tree.not_directory_of_target htarget (Tree.get?_nil _)
    · obtain ⟨v, hdecode, hconvert, hsome⟩ := hconverts
      obtain ⟨hfails, hcontained⟩ := Job.FailsWith.of_write
        (j := jobFor style (pathOf (Path.read word) names)) ⟨bytes, hread, hdecode⟩ hconvert hsome
        rfl hf
      have hstops := Job.run_of_failsWith hfails
      refine ⟨_, List.mem_map_of_mem hmem, Job.path_run _ _, hstops.output, ?_⟩
      rw [hstops.error, if_pos hcontained]

/-! ### A source, and a copy of it that a build has made -/

/-- A style that can be used raises no fault, if the directory can be asked for and its
name does not spoil the heading. -/
theorem raised_convertSources_of_ready {found : Bool} (hready : Conversion.Ready style none)
    (hfound : t.isFile root = .ok found)
    (hflaw : Markup.flaw? (heading (Sources.below t root).length root) = none) :
    (convertSources root style t entries).raised = none := by
  obtain ⟨done, rest, hsplit, heq, -⟩ :=
    Batch.exists_foldl_next_eq (jobs t root style) (Batch.start t)
  have hnone : (Batch.sequence t (jobs t root style)).raised = none := by
    rw [Batch.sequence, heq]
    refine Job.raised_pool_of_ready (fun j hj => ?_) t
    have hjob : j ∈ jobs t root style := by
      rw [hsplit]
      exact List.mem_append_left rest hj
    obtain ⟨p, -, rfl⟩ := List.mem_map.mp hjob
    exact hready
  have hjobs : ((Sources.below t root).map fun p => (⟨p, style, options, none⟩ : Job)) =
      jobs t root style := rfl
  unfold convertSources
  rw [hfound]
  dsimp only
  rw [hflaw]
  unfold convertAll
  rw [hjobs]
  dsimp only
  rw [hnone]
  rfl

/-- A file with one call. -/
def callBytes : List UInt8 := Text.Utf8.encode (Conversion.printOf ['x'])

/-- A source, and a copy of it below a directory that a build has made. -/
def copied : Surroundings where
  tree := { entries := [(["src"], .directory), (["src", "A.java"], .file callBytes),
    (["src", "build"], .directory), (["src", "build", "A.java"], .file callBytes)] }
  settingsDirectory := none
  directory := ""
  time := ""

theorem proper_copied : copied.tree.Proper := ⟨by decide, by decide, by decide⟩

theorem isSource_copied : IsSource copied.tree (Path.read "src") ["A.java"] ["src", "A.java"]
    callBytes :=
  ⟨⟨["src"], by decide +kernel, rfl⟩, by decide +kernel, by decide +kernel⟩

theorem read_copied : copied.tree.read (pathOf (Path.read "src") ["A.java"]) = .ok callBytes := by
  decide +kernel

theorem target_copied :
    copied.tree.target (pathOf (Path.read "src") ["A.java"]) = .ok ["src", "A.java"] := by
  decide +kernel

theorem raised_copied (hready : Conversion.Ready style none) :
    (convertSources (Path.read "src") style copied.tree entries).raised = none := by
  have hfound : copied.tree.isFile (Path.read "src") = .ok false := by decide +kernel
  refine raised_convertSources_of_ready hready hfound ?_
  have hbelow : (Sources.below copied.tree (Path.read "src")).length = 1 := by
    have hspot : copied.tree.spot (Path.read "src") = .ok ["src"] := by decide +kernel
    have hdirectory : copied.tree.get? ["src"] = some .directory := by decide +kernel
    have hrelative : Sources.relative copied.tree ["src"] = [["A.java"]] := by decide +kernel
    rw [Sources.below, hspot]
    dsimp only
    rw [if_pos hdirectory, hrelative, List.mergeSort_singleton]
    rfl
  rw [hbelow]
  decide +kernel

theorem run_converts_sources_copied :
    copied.tree.Proper ∧
      (Settings.load copied (specsOf ["run.workers=1"]) none).result =
        .ok (Style.default, RunOptions.default) ∧
      (run ["src", "run.workers=1"] copied).raised = none ∧
      (run ["src", "run.workers=1"] copied).tree.get? ["src", "build", "A.java"] =
        some (.file callBytes) ∧
      ∃ c, Converts Style.default callBytes c ∧
        (run ["src", "run.workers=1"] copied).tree.get? ["src", "A.java"] =
          some (.file (Text.Utf8.encode c.text)) := by
  have hload : (Settings.load copied (specsOf ["run.workers=1"]) none).result =
      .ok (Style.default, RunOptions.default) := by decide +kernel
  obtain ⟨hframe, hall⟩ := @run_converts_sources _ "src" _ _ _ proper_copied hload
  have hraised : (run ["src", "run.workers=1"] copied).raised = none := by
    obtain ⟨entries, hrun⟩ := run_of_load "src" hload
    rw [hrun]
    exact raised_copied (Conversion.ready_default none)
  refine ⟨proper_copied, hload, hraised, ?_, ?_⟩
  -- the copy that the build has made is no source, so it cannot have changed
  · have hold : copied.tree.get? ["src", "build", "A.java"] = some (.file callBytes) := by
      decide +kernel
    rw [← hold]
    refine Classical.byContradiction fun hchanged => ?_
    obtain ⟨names, -, -, ⟨⟨base, hbase, hlocation⟩, hcounts, -⟩, -⟩ := hframe _ hchanged
    have hspot : copied.tree.spot (Path.read "src") = .ok ["src"] := by decide +kernel
    obtain rfl : ["src"] = base := Except.ok.inj (hspot.symm.trans hbase)
    obtain rfl : names = ["build", "A.java"] := (List.append_right_inj ["src"]).mp hlocation.symm
    exact absurd hcounts (by decide +kernel)
  · obtain ⟨c, hconvert, hsome⟩ := Job.exists_convert_oneCall
    have hconverts : Converts Style.default callBytes c :=
      ⟨_, by decide +kernel, hconvert, hsome⟩
    obtain ⟨_, -, -, -, hsources⟩ := hall hraised
    obtain ⟨hleft, hwhole, -⟩ := hsources _ _ _ c _ isSource_copied read_copied hconverts
    have hplain : (Style.default.names.all fun name => !name.toList.any Text.Surrogate.isStandIn) =
        true := by decide +kernel
    refine ⟨c, hconverts, ?_⟩
    rw [hleft]
    refine hwhole ?_
    rw [rewriting, Tree.write_of_target target_copied, Style.encode_of_plain hplain]
    rfl

/-! ### A name without bytes -/

/-- A spec for a logger whose name is a surrogate. -/
def surrogateSpec : String := "rewrite.logger_reference=\"\\ud800\""

/-- The style with that logger. -/
def surrogateLogger : Style := Job.withLogger (String.singleton (Text.Surrogate.charOf 0xD800))

theorem ready_surrogateLogger : Conversion.Ready surrogateLogger none :=
  ⟨⟨_, Style.read_lombokPattern_default⟩, fun _ _ _ => ⟨_, Style.titleFor_default _ _ _⟩⟩

theorem decode_callBytes : Text.Utf8.decode callBytes = .ok (Conversion.printOf ['x']) := by
  decide +kernel

/-- A name without bytes is accepted, and no fault ends the command.  The source is
emptied, although what it is converted to is not empty: it has no bytes. -/
theorem run_surrogateLogger :
    (Settings.load copied (specsOf [surrogateSpec]) none).result =
        .ok (surrogateLogger, RunOptions.default) ∧
      (run ["src", surrogateSpec] copied).raised = none ∧
      copied.tree.get? ["src", "A.java"] = some (.file callBytes) ∧
      (run ["src", surrogateSpec] copied).tree.get? ["src", "A.java"] = some (.file []) ∧
      ∀ c, Converts surrogateLogger callBytes c →
        (∃ f, surrogateLogger.encode c.text = .error f) ∧ Text.Utf8.encode c.text ≠ [] := by
  have hload : (Settings.load copied (specsOf [surrogateSpec]) none).result =
      .ok (surrogateLogger, RunOptions.default) := by decide +kernel
  obtain ⟨entries, hrun⟩ := run_of_load "src" hload
  have hraised : (run ["src", surrogateSpec] copied).raised = none := by
    rw [hrun]
    exact raised_copied ready_surrogateLogger
  have hconvert : (convert surrogateLogger none (Conversion.printOf ['x'])).result = _ :=
    Job.convert_oneCall _
  obtain ⟨f, hencode⟩ : ∃ f, surrogateLogger.encode
      (Job.oneCallWritten (String.singleton (Text.Surrogate.charOf 0xD800))) = .error f := ⟨_, rfl⟩
  refine ⟨hload, hraised, by decide +kernel, ?_, ?_⟩
  · rw [hrun] at hraised ⊢
    rw [get?_convertSources proper_copied isSource_copied read_copied
      ⟨_, decode_callBytes, hconvert, Nat.one_ne_zero⟩ hraised, rewriting,
      Tree.write_of_target target_copied, hencode]
    rfl
  · rintro c ⟨v, hv, hc, -⟩
    obtain rfl := Except.ok.inj (decode_callBytes.symm.trans hv)
    obtain rfl := Except.ok.inj (hconvert.symm.trans hc)
    exact ⟨⟨f, hencode⟩, by decide +kernel⟩

end LogCalls.Command.Directory
