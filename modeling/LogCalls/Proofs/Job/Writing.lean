/-
LogCalls/Proofs/Job/Writing.lean

What a job leaves behind, read off the four ways in which it can end (`ends_run`).

A job adds one result to a summary.  It changes no location but that of its output, and
that one only where a call is converted and the output can be opened.  Where the whole
text can be written then (`WritesWhole`), a job that fails changes nothing
(`after_writes_output_only`).

A copy does not touch its source, since the name of the copy is longer than that of
the source (`Tree.ne_of_longer_name`).  An empty suffix makes the two names the same,
and the source is overwritten although this was not asked for (`run_keeps_source`,
`run_emptySuffix`).
-/
import LogCalls.Proofs.Job.Containment
import LogCalls.Proofs.Job.Copy

namespace LogCalls

namespace Job

variable {j : Job} {t : Tree} {l : Tree.Location} {q : Path}

/-! ### What a job writes -/

theorem exists_failsWith_iff :
    (∃ f, j.FailsWith t f) ↔ (j.run t).raised ≠ none ∨ (j.run t).result.error ≠ "" := by
  constructor
  · rintro ⟨f, hf⟩
    have hstops := run_of_failsWith hf
    by_cases hcontained : f.isContained = true
    · rw [hstops.error, if_pos hcontained]
      exact .inr f.report_ne
    · rw [hstops.raised, if_neg hcontained]
      exact .inl (Option.some_ne_none f)
  · intro h
    refine Classical.byContradiction fun hnot => ?_
    obtain ⟨hraised, herror⟩ := run_of_not_failsWith (not_exists.mp hnot)
    exact h.elim (fun hr => hr hraised) (fun he => he herror)

/-- A job changes nothing but what is at the location of its output. -/
theorem outputs_of_get?_ne (h : (j.run t).tree.get? l ≠ t.get? l) : j.Outputs t l := by
  refine Classical.byContradiction fun hnot => h (get?_run_of_not_change? fun content hchange => ?_)
  exact hnot (outputs_of_change? hchange).1

/-- Where the output of a job can be opened, the whole text can be written. -/
def WritesWhole (j : Job) (t : Tree) : Prop :=
  ∀ u c q l, j.Reads t u → (convert j.style j.forced u).result = .ok c →
    j.options.outputPath j.path = .ok q → t.target q = .ok l →
    t.limits.cut? l (j.style.encode c.text) = none

/-- A fault has cut what a job writes to its output, which holds what is kept of the
new text. -/
def IsCut (j : Job) (t u : Tree) : Prop :=
  ∃ v c q l f, j.Reads t v ∧ (convert j.style j.forced v).result = .ok c ∧
    j.options.outputPath j.path = .ok q ∧ t.target q = .ok l ∧
    t.limits.cut? l (j.style.encode c.text) = some f ∧
    u = t.put l (.file (t.limits.kept l (j.style.encode c.text)))

theorem WritesWhole.not_isCut {u : Tree} (h : j.WritesWhole t) : ¬ j.IsCut t u := by
  rintro ⟨v, c, q, l, f, hreads, hconvert, hname, htarget, hcut, -⟩
  cases (h _ _ _ _ hreads hconvert hname htarget).symm.trans hcut

/-- Where there is room for everything, and no name of the style holds a surrogate, all
that is opened is written as a whole. -/
theorem writesWhole_of_room (hroom : ∀ l, t.limits.room l = none)
    (hnames : (j.style.names.all fun name => !name.toList.any Text.Surrogate.isStandIn) = true) :
    j.WritesWhole t := by
  intro u c q l _ _ _ _
  rw [Style.encode_of_plain hnames, Tree.Limits.cut?_eq_none_iff]
  refine ⟨_, rfl, ?_⟩
  rw [Tree.Limits.kept, hroom l]

/-- A job that a fault stops, or that converts no call, has no output, and the tree is as
it was unless a fault has cut what was written. -/
theorem run_of_nothing_written
    (h : (∃ f, j.FailsWith t f) ∨ (j.run t).result.converted = 0) :
    ((j.run t).tree = t ∨ j.IsCut t (j.run t).tree) ∧ (j.run t).result.output = none := by
  cases ends_run j t with
  | stopped _ hstops htree => exact ⟨.inl htree, hstops.output⟩
  | cut hreads hconvert hsome hname htarget hcut hstops htree =>
      exact ⟨.inr ⟨_, _, _, _, _, hreads, hconvert, hname, htarget, hcut, htree⟩, hstops.output⟩
  | idle _ _ _ hresult _ htree => exact ⟨.inl htree, by rw [hresult]⟩
  | wrote hreads hconvert hsome hname htarget _ hresult hraised _ =>
      -- the result of a job that wrote something denies both
      rcases h with hfails | hzero
      · rw [exists_failsWith_iff, hraised, hresult] at hfails
        exact absurd hfails (by simp)
      · rw [hresult] at hzero
        exact absurd hzero hsome

/-- A job that no fault stops and that converts a call writes the converted text to
its output. -/
theorem exists_run_of_written (hfails : ¬ ∃ f, j.FailsWith t f)
    (hsome : (j.run t).result.converted ≠ 0) :
    ∃ q u c, j.options.outputPath j.path = .ok q ∧ j.Reads t u ∧
      (convert j.style j.forced u).result = .ok c ∧
      (j.run t).result = ⟨j.path, some q, c.converted, c.skipped, ""⟩ ∧
      (j.run t).tree.Holds q (Text.Utf8.encode c.text) := by
  cases ends_run j t with
  | stopped hf _ _ => exact absurd ⟨_, hf⟩ hfails
  | cut hreads hconvert hsome hname htarget hcut _ _ =>
      exact absurd ⟨_, .writing hreads hconvert hsome hname htarget hcut⟩ hfails
  | idle _ _ _ hresult _ _ =>
      rw [hresult] at hsome
      exact absurd rfl hsome
  | wrote hreads hconvert _ hname htarget _ hresult _ htree =>
      refine ⟨_, _, _, hname, hreads, hconvert, hresult, ?_⟩
      rw [htree]
      exact Tree.holds_put_of_target htarget

/-- **One result, and one file or none.**  A job adds one result to a summary.  It
changes no location but that of its output.  Where a fault stops it, contained or not, or
where no call is converted, it has no output; nothing at all has changed then, if
the whole text could be written where it was opened, and otherwise the output holds what
is kept of the text.  In all other cases the output holds the converted text. -/
theorem after_writes_output_only (b : Batch) (j : Job) :
    (b.after j).summary = b.summary ++ [(j.run b.tree).result] ∧
      (∀ l, (b.after j).tree.get? l ≠ b.tree.get? l → j.Outputs b.tree l) ∧
      ((∃ f, j.FailsWith b.tree f) ↔
        (j.run b.tree).raised ≠ none ∨ (j.run b.tree).result.error ≠ "") ∧
      ((∃ f, j.FailsWith b.tree f) ∨ (j.run b.tree).result.converted = 0 →
        (j.WritesWhole b.tree → (b.after j).tree = b.tree) ∧
          ((b.after j).tree = b.tree ∨ j.IsCut b.tree (b.after j).tree) ∧
          (j.run b.tree).result.output = none) ∧
      (¬ (∃ f, j.FailsWith b.tree f) → (j.run b.tree).result.converted ≠ 0 →
        ∃ q u c, j.options.outputPath j.path = .ok q ∧ j.Reads b.tree u ∧
          (convert j.style j.forced u).result = .ok c ∧
          (j.run b.tree).result = ⟨j.path, some q, c.converted, c.skipped, ""⟩ ∧
          (b.after j).tree.Holds q (Text.Utf8.encode c.text)) := by
  refine ⟨rfl, fun _ => outputs_of_get?_ne, exists_failsWith_iff, fun h => ?_,
    exists_run_of_written⟩
  obtain ⟨htree, houtput⟩ := run_of_nothing_written h
  exact ⟨fun hwhole => htree.resolve_right hwhole.not_isCut, htree, houtput⟩

/-- The usual style with another logger. -/
def withLogger (logger : String) : Style := { Style.default with logger }

/-- What is written for the one call. -/
def oneCallWritten (logger : String) : Text :=
  Action.callee logger "debug" ++ "(\"\x7b\x7d\", x)".toList

theorem convert_oneCall (logger : String) :
    (convert (withLogger logger) none (Conversion.printOf ['x'])).result =
      .ok ⟨oneCallWritten logger, 1, 0⟩ := by
  have htakes : Conversion.Takes (Conversion.printOf ['x']) 0 Conversion.printMention
      ⟨Conversion.printMention, 18, 21, [.expression ['x']]⟩ := ⟨by decide, rfl⟩
  have hlombok : (withLogger logger).usesLombok (Text.upTo (Conversion.printOf ['x']) 0) =
      .ok false :=
    Style.usesLombok_eq_ok_iff.mpr ⟨_, Style.read_lombokPattern_default, rfl⟩
  rw [Conversion.result_convert_of_single all_oneCall htakes hlombok
    (Action.create_eq_ok_iff.mpr ⟨_, _, Style.titleFor_default _ _ _, rfl, rfl⟩)]
  rfl

/-- The job for the file with one call, with the given suffix. -/
def oneCallWith (suffix : String) : Job :=
  { ofName "A.java" Style.default with options := { RunOptions.default with suffix } }

theorem writesWhole_oneCallWith (suffix : String) : (oneCallWith suffix).WritesWhole oneCall := by
  have hnames : (Style.default.names.all fun name => !name.toList.any Text.Surrogate.isStandIn) =
      true := by decide +kernel
  exact writesWhole_of_room (fun _ => rfl) hnames

theorem run_oneCallWith {suffix : String}
    (hname : (oneCallWith suffix).options.outputPath ⟨0, ["A.java"]⟩ = .ok q)
    (htarget : oneCall.target q = .ok l) :
    ((oneCallWith suffix).run oneCall).result = ⟨⟨0, ["A.java"]⟩, some q, 1, 0, ""⟩ ∧
      ((oneCallWith suffix).run oneCall).raised = none ∧
      ((oneCallWith suffix).run oneCall).tree.Holds q
        (Text.Utf8.encode (oneCallWritten "logger")) := by
  have hreads : (oneCallWith suffix).Reads oneCall (Conversion.printOf ['x']) :=
    reads_oneCall Style.default
  obtain ⟨htree, -, hdone⟩ :=
    run_of_target hreads (convert_oneCall "logger") Nat.one_ne_zero hname htarget
  have hcut :=
    writesWhole_oneCallWith suffix _ _ _ _ hreads (convert_oneCall "logger") hname htarget
  obtain ⟨hresult, hraised⟩ := hdone hcut
  refine ⟨hresult, hraised, ?_⟩
  rw [htree, Style.kept_of_cut?_eq_none hcut]
  exact Tree.holds_put_of_target htarget

theorem outputPath_oneCallWith :
    (oneCallWith ".converted").options.outputPath ⟨0, ["A.java"]⟩ =
      .ok ⟨0, ["A.java.converted"]⟩ := by
  decide +kernel

theorem target_oneCallWith :
    oneCall.target ⟨0, ["A.java.converted"]⟩ = .ok ["A.java.converted"] := by
  decide +kernel

theorem after_writes_output_only_oneCall :
    (oneCallWith ".converted").WritesWhole oneCall ∧
      ((Batch.start oneCall).after (oneCallWith ".converted")).summary =
        [⟨⟨0, ["A.java"]⟩, some ⟨0, ["A.java.converted"]⟩, 1, 0, ""⟩] ∧
      ∃ u c, (oneCallWith ".converted").Reads oneCall u ∧
        (convert Style.default none u).result = .ok c ∧
        ((Batch.start oneCall).after (oneCallWith ".converted")).tree.Holds
          ⟨0, ["A.java.converted"]⟩ (Text.Utf8.encode c.text) := by
  obtain ⟨hresult, hraised, -⟩ := run_oneCallWith outputPath_oneCallWith target_oneCallWith
  obtain ⟨hsummary, -, hfails, -, hwritten⟩ :=
    after_writes_output_only (Batch.start oneCall) (oneCallWith ".converted")
  have htree : (Batch.start oneCall).tree = oneCall := rfl
  rw [htree, hresult] at hsummary
  rw [htree, hraised, hresult] at hfails
  rw [htree, hresult] at hwritten
  have hdone : ¬ ∃ f, (oneCallWith ".converted").FailsWith oneCall f := by
    rw [hfails]
    simp
  obtain ⟨q, u, c, hq, hreads, hconvert, -, hholds⟩ := hwritten hdone Nat.one_ne_zero
  obtain rfl := Except.ok.inj (outputPath_oneCallWith.symm.trans hq)
  exact ⟨writesWhole_oneCallWith _, hsummary, u, c, hreads, hconvert, hholds⟩

/-! ### The source of a copy -/

/-- A job leaves what is at its path as it was where it writes to another location. -/
theorem read_put_of_copy (hcopy : j.options.inPlace = false) (hsuffix : j.options.suffix ≠ "")
    {u : Text} (hreads : j.Reads t u) (hname : j.options.outputPath j.path = .ok q)
    (htarget : t.target q = .ok l) (content : List UInt8) :
    (t.put l (.file content)).read j.path = t.read j.path := by
  obtain ⟨bytes, hread, -⟩ := hreads
  obtain ⟨m, hm, hfile, -⟩ := Tree.read_eq_ok_iff.mp hread
  have hdirectory : t.get? m ≠ some .directory := by
    rw [hfile]
    exact nofun
  have hl := Tree.not_directory_of_target htarget
  obtain ⟨name, hlast, hq⟩ := withName_of_outputPath hcopy hname
  exact Tree.read_put_of_ne hm hl
    (Tree.ne_of_longer_name hlast hq hsuffix hm hdirectory (Tree.spot_of_target htarget) hl)

/-- **Sources of copies.**  Where a file is not to be overwritten and the suffix is
not empty, a job leaves what is at its path as it was, whatever the path and
whatever becomes of the job.  With an empty suffix the output is the source, and it
is overwritten wherever a call is converted and the job does not fail. -/
theorem run_keeps_source (hcopy : j.options.inPlace = false) (t : Tree) :
    (j.options.suffix ≠ "" → (j.run t).tree.read j.path = t.read j.path) ∧
      ((j.run t).result.output = none → j.WritesWhole t →
        (j.run t).tree.read j.path = t.read j.path) ∧
      (j.options.suffix = "" → ∀ q, (j.run t).result.output = some q →
        q = j.path ∧ ∃ u c, j.Reads t u ∧ (convert j.style j.forced u).result = .ok c ∧
          (j.run t).tree.read j.path = .ok (Text.Utf8.encode c.text)) := by
  cases ends_run j t with
  | stopped _ hstops htree =>
      rw [htree, hstops.output]
      exact ⟨fun _ => rfl, fun _ _ => rfl, fun _ q hq => nomatch hq⟩
  | cut hreads hconvert _ hname htarget hcut hstops htree =>
      rw [htree, hstops.output]
      refine ⟨fun hsuffix => ?_, fun _ hwhole => ?_, fun _ q hq => nomatch hq⟩
      · exact read_put_of_copy hcopy hsuffix hreads hname htarget _
      · cases (hwhole _ _ _ _ hreads hconvert hname htarget).symm.trans hcut
  | idle _ _ _ hresult _ htree =>
      rw [htree, hresult]
      exact ⟨fun _ => rfl, fun _ _ => rfl, fun _ q hq => nomatch hq⟩
  | @wrote u c q l hreads hconvert _ hname htarget _ hresult _ htree =>
      rw [htree, hresult]
      refine ⟨fun hsuffix => ?_, nofun, fun hsuffix q' hq' => ?_⟩
      · exact read_put_of_copy hcopy hsuffix hreads hname htarget _
      · obtain rfl : q = q' := Option.some.inj hq'
        obtain rfl := outputPath_of_empty_suffix hcopy hsuffix hname
        refine ⟨rfl, u, c, hreads, hconvert, ?_⟩
        -- the file could be read before, at the location that it was written to
        obtain ⟨bytes, hread, -⟩ := hreads
        obtain ⟨m, hm, -, hreadable⟩ := Tree.read_eq_ok_iff.mp hread
        obtain rfl : m = l := Except.ok.inj (hm.symm.trans (Tree.spot_of_target htarget))
        exact Tree.read_put_of_target htarget hreadable

theorem run_keeps_source_oneCall :
    (oneCallWith ".converted").options.inPlace = false ∧
      ((oneCallWith ".converted").run oneCall).result.output = some ⟨0, ["A.java.converted"]⟩ ∧
      ((oneCallWith ".converted").run oneCall).tree.read ⟨0, ["A.java"]⟩ =
        oneCall.read ⟨0, ["A.java"]⟩ := by
  obtain ⟨hresult, -, -⟩ := run_oneCallWith outputPath_oneCallWith target_oneCallWith
  obtain ⟨hkept, -, -⟩ := run_keeps_source (j := oneCallWith ".converted") rfl oneCall
  exact ⟨rfl, by rw [hresult], hkept (by decide)⟩

/-- The settings for an empty suffix are accepted and do not ask for the file to be
overwritten, but the job for a file with a call overwrites it. -/
theorem run_emptySuffix :
    Settings.ofMapping [(.text "run", .mapping [(.text "suffix", .text "")])] =
        .ok (Style.default, (oneCallWith "").options) ∧
      (oneCallWith "").options.inPlace = false ∧
      ((oneCallWith "").run oneCall).tree.read ⟨0, ["A.java"]⟩ ≠
        oneCall.read ⟨0, ["A.java"]⟩ := by
  have hname : (oneCallWith "").options.outputPath ⟨0, ["A.java"]⟩ = .ok ⟨0, ["A.java"]⟩ := by
    decide +kernel
  have htarget : oneCall.target ⟨0, ["A.java"]⟩ = .ok ["A.java"] := by decide +kernel
  obtain ⟨-, -, hholds⟩ := run_oneCallWith hname htarget
  have hold : oneCall.read ⟨0, ["A.java"]⟩ = .ok (Text.Utf8.encode (Conversion.printOf ['x'])) := by
    decide +kernel
  refine ⟨rfl, rfl, fun hsame => ?_⟩
  exact absurd (hholds.unique (Tree.holds_of_read (hsame.trans hold))) (by decide +kernel)

end Job

end LogCalls
