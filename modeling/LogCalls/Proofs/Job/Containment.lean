/-
LogCalls/Proofs/Job/Containment.lean

How a job can fail, and what becomes of the fault.  A job fails where its file
cannot be read, is no text, cannot be converted, has no output path, cannot be opened
for writing or cannot be written as a whole (`FailsWith`), and the result of the job is
told by that fault alone (`run_of_failsWith`).  A job that does not fail has nothing to
convert, or it writes its output (`ends_run`).

Faults of the file system and of the content are contained, and so are those of
long integers.  What is left are faults of the style: its pattern or its titles
(`ofStyle_of_not_contained`).

Main result: a job raises exactly the faults that are not contained, which its
result does not record, and under a style that can be used it raises none
(`run_records_contained_faults`).
-/
import LogCalls.Batch
import LogCalls.Proofs.Conversion.Failure
import LogCalls.Proofs.Tree.Walk
import LogCalls.Settings.Load

namespace LogCalls

/-! ### Faults that are contained -/

theorem Fault.IsOfDigits.isContained {f : Fault} (h : f.IsOfDigits) : f.isContained = true := by
  rcases h with ⟨count, rfl⟩ | rfl <;> rfl

namespace Tree

variable {t : Tree} {p : Path} {f : Fault}

theorem isContained_of_spot (h : t.spot p = .error f) : f.isContained = true := by
  rw [spot] at h
  split at h
  · obtain rfl := Except.error.inj h
    rfl
  · rcases hfollow : t.follow p with refusal | l
    · rw [hfollow] at h
      obtain rfl := Except.error.inj h
      rfl
    · rw [hfollow] at h
      cases h

theorem isContained_of_read (h : t.read p = .error f) : f.isContained = true := by
  rw [read, bind_eq_error_iff] at h
  rcases h with hspot | ⟨l, -, h⟩
  · exact isContained_of_spot hspot
  split at h
  · split at h
    · obtain rfl := Except.error.inj h
      rfl
    · cases h
  -- there is a directory or nothing
  · obtain rfl := Except.error.inj h
    rfl
  · obtain rfl := Except.error.inj h
    rfl

theorem isContained_of_target (h : t.target p = .error f) : f.isContained = true := by
  rw [target, bind_eq_error_iff] at h
  rcases h with hspot | ⟨l, -, h⟩
  · exact isContained_of_spot hspot
  split at h
  · obtain rfl := Except.error.inj h
    rfl
  split at h
  · obtain rfl := Except.error.inj h
    rfl
  · cases h

/-- A write is cut by a fault of its content, or for there is no room. -/
theorem isContained_of_cut? {limits : Limits} {l : Location} {content : Except Fault (List UInt8)}
    (hcontent : ∀ f, content = .error f → f.isContained = true)
    (h : limits.cut? l content = some f) : f.isContained = true := by
  unfold Limits.cut? at h
  split at h
  next g =>
    obtain rfl := Option.some.inj h
    exact hcontent g rfl
  · split at h
    · split at h
      · obtain rfl := Option.some.inj h
        rfl
      · cases h
    · cases h

end Tree

/-- Where no name of a style holds a surrogate, all texts have their bytes. -/
theorem Style.encode_of_plain {s : Style}
    (h : (s.names.all fun name => !name.toList.any Text.Surrogate.isStandIn) = true) (t : Text) :
    s.encode t = .ok (Text.Utf8.encode t) := by
  rw [encode, if_pos h]

/-- A text either has its bytes, or there are none for a surrogate in it. -/
theorem Style.encode_cases (s : Style) (t : Text) :
    s.encode t = .ok (Text.Utf8.encode t) ∨
      ∃ wording, s.encode t = .error (.mistaken .encoding wording) := by
  rw [encode]
  split
  · exact .inl rfl
  · split
    next u _ => exact .inr ⟨u.message, rfl⟩
    · exact .inl rfl

theorem Style.isContained_of_encode {s : Style} {t : Text} {f : Fault} (h : s.encode t = .error f) :
    f.isContained = true := by
  rcases s.encode_cases t with hok | ⟨wording, herror⟩
  · cases hok.symm.trans h
  · obtain rfl := Except.error.inj (herror.symm.trans h)
    rfl

/-- Bytes of a text are those in UTF-8. -/
theorem Style.eq_of_encode_eq_ok {s : Style} {t : Text} {bytes : List UInt8}
    (h : s.encode t = .ok bytes) : bytes = Text.Utf8.encode t := by
  rcases s.encode_cases t with hok | ⟨wording, herror⟩
  · exact Except.ok.inj (h.symm.trans hok)
  · cases h.symm.trans herror

/-- What nothing cuts is the text in bytes. -/
theorem Style.kept_of_cut?_eq_none {s : Style} {limits : Tree.Limits} {l : Tree.Location}
    {t : Text} (h : limits.cut? l (s.encode t) = none) :
    limits.kept l (s.encode t) = Text.Utf8.encode t := by
  obtain ⟨bytes, hbytes, hkept⟩ := Tree.Limits.cut?_eq_none_iff.mp h
  rw [hkept, Style.eq_of_encode_eq_ok hbytes]

theorem Path.isContained_of_withName {p : Path} {name : String} {f : Fault}
    (h : p.withName name = .error f) : f.isContained = true := by
  rw [withName] at h
  split at h
  · obtain rfl := Except.error.inj h
    rfl
  split at h
  · cases h
  · obtain rfl := Except.error.inj h
    rfl

theorem RunOptions.isContained_of_outputPath {o : RunOptions} {p : Path} {f : Fault}
    (h : o.outputPath p = .error f) : f.isContained = true := by
  rw [outputPath] at h
  split at h
  · cases h
  rcases bind_eq_error_iff.mp h with hname | ⟨q, -, h⟩
  · exact Path.isContained_of_withName hname
  · split at h
    · obtain rfl := Except.error.inj h
      rfl
    · cases h

theorem Fault.report_ne (f : Fault) : f.report ≠ "" := by
  rw [report, ne_eq, String.append_eq_empty_iff, String.append_eq_empty_iff]
  rintro ⟨⟨-, hcolon⟩, -⟩
  exact absurd hcolon (by decide)

namespace Job

/-! ### How a job fails -/

/-- The file of a job holds a text. -/
def Reads (j : Job) (t : Tree) (u : Text) : Prop :=
  ∃ bytes, t.read j.path = .ok bytes ∧ Text.Utf8.decode bytes = .ok u

/-- A job cannot be done for a fault: the file cannot be read, it cannot be
converted, or the new text cannot be written, or not as a whole. -/
inductive FailsWith (j : Job) (t : Tree) (f : Fault) : Prop
  | reading : t.read j.path = .error f → FailsWith j t f
  | decoding {bytes : List UInt8} {flaw : Text.Utf8.Flaw} : t.read j.path = .ok bytes →
      Text.Utf8.decode bytes = .error flaw → f = .undecodable flaw → FailsWith j t f
  | converting {u : Text} : j.Reads t u → (convert j.style j.forced u).result = .error f →
      FailsWith j t f
  | naming {u : Text} {c : Conversion} : j.Reads t u →
      (convert j.style j.forced u).result = .ok c → c.converted ≠ 0 →
      j.options.outputPath j.path = .error f → FailsWith j t f
  | opening {u : Text} {c : Conversion} {q : Path} : j.Reads t u →
      (convert j.style j.forced u).result = .ok c → c.converted ≠ 0 →
      j.options.outputPath j.path = .ok q → t.target q = .error f → FailsWith j t f
  | writing {u : Text} {c : Conversion} {q : Path} {l : Tree.Location} : j.Reads t u →
      (convert j.style j.forced u).result = .ok c → c.converted ≠ 0 →
      j.options.outputPath j.path = .ok q → t.target q = .ok l →
      t.limits.cut? l (j.style.encode c.text) = some f → FailsWith j t f

variable {j : Job} {t : Tree} {u : Text} {f : Fault}

/-! ### What a job plans -/

theorem write_plan_of_read_error (h : t.read j.path = .error f) :
    (j.plan (t.read j.path)).write = .error f := by
  rw [h]
  rfl

theorem write_plan_of_decode_error {bytes : List UInt8} {flaw : Text.Utf8.Flaw}
    (hbytes : t.read j.path = .ok bytes) (h : Text.Utf8.decode bytes = .error flaw) :
    (j.plan (t.read j.path)).write = .error (.undecodable flaw) := by
  rw [hbytes, plan, ok_bind, h]
  rfl

theorem write_plan_of_convert_error (hreads : j.Reads t u)
    (h : (convert j.style j.forced u).result = .error f) :
    (j.plan (t.read j.path)).write = .error f := by
  obtain ⟨bytes, hbytes, htext⟩ := hreads
  simp only [plan, hbytes, ok_bind, htext, mapError_ok, h]

/-- The plan of a job whose text can be converted. -/
theorem plan_of_convert (hreads : j.Reads t u) {c : Conversion}
    (h : (convert j.style j.forced u).result = .ok c) :
    j.plan (t.read j.path) = ⟨c.converted, c.skipped,
      if c.converted = 0 then .ok none
      else (j.options.outputPath j.path).map fun q => some (q, j.style.encode c.text),
      (convert j.style j.forced u).entries⟩ := by
  obtain ⟨bytes, hbytes, htext⟩ := hreads
  simp only [plan, hbytes, ok_bind, htext, mapError_ok, h]

/-! ### The end of a job -/

/-- The end of a job that a fault stops: a contained fault is recorded and any
other one is raised. -/
structure StopsWith (o : Outcome) (f : Fault) : Prop where
  raised : o.raised = if f.isContained then none else some f
  error : o.result.error = if f.isContained then f.report else ""
  output : o.result.output = none

theorem stopsWith_failed (j : Job) (p : Plan) (t : Tree) (f : Fault) :
    StopsWith (j.failed p t f) f := by
  refine ⟨?_, ?_, output_failed j p t f⟩
  · unfold failed
    split <;> rfl
  · unfold failed
    split <;> rfl

/-- How a job ends: a fault stops it before anything is opened for writing, or cuts what
it writes, there is nothing to convert, or it writes its output. -/
inductive Ends (j : Job) (t : Tree) (o : Outcome) : Prop
  | stopped {f : Fault} : j.FailsWith t f → StopsWith o f → o.tree = t → Ends j t o
  | cut {u : Text} {c : Conversion} {q : Path} {l : Tree.Location} {f : Fault} : j.Reads t u →
      (convert j.style j.forced u).result = .ok c → c.converted ≠ 0 →
      j.options.outputPath j.path = .ok q → t.target q = .ok l →
      t.limits.cut? l (j.style.encode c.text) = some f → StopsWith o f →
      o.tree = t.put l (.file (t.limits.kept l (j.style.encode c.text))) → Ends j t o
  | idle {u : Text} {c : Conversion} : j.Reads t u →
      (convert j.style j.forced u).result = .ok c → c.converted = 0 →
      o.result = ⟨j.path, none, 0, c.skipped, ""⟩ → o.raised = none → o.tree = t → Ends j t o
  | wrote {u : Text} {c : Conversion} {q : Path} {l : Tree.Location} : j.Reads t u →
      (convert j.style j.forced u).result = .ok c → c.converted ≠ 0 →
      j.options.outputPath j.path = .ok q → t.target q = .ok l →
      t.limits.cut? l (j.style.encode c.text) = none →
      o.result = ⟨j.path, some q, c.converted, c.skipped, ""⟩ → o.raised = none →
      o.tree = t.put l (.file (Text.Utf8.encode c.text)) → Ends j t o

theorem finish_of_write_error {p : Plan} (h : p.write = .error f) :
    j.finish p t = j.failed p t f := by
  rw [finish, h]

/-- A job that opens its output leaves there what is kept of the new text. -/
theorem run_of_target {c : Conversion} {q : Path} {l : Tree.Location} (hreads : j.Reads t u)
    (hconvert : (convert j.style j.forced u).result = .ok c) (hsome : c.converted ≠ 0)
    (hname : j.options.outputPath j.path = .ok q) (htarget : t.target q = .ok l) :
    (j.run t).tree = t.put l (.file (t.limits.kept l (j.style.encode c.text))) ∧
      (∀ f, t.limits.cut? l (j.style.encode c.text) = some f → StopsWith (j.run t) f) ∧
      (t.limits.cut? l (j.style.encode c.text) = none →
        (j.run t).result = ⟨j.path, some q, c.converted, c.skipped, ""⟩ ∧
          (j.run t).raised = none) := by
  have hwrite := Tree.write_of_target htarget (j.style.encode c.text)
  rw [run, plan_of_convert hreads hconvert]
  simp only [finish, if_neg hsome, hname, map_ok, hwrite]
  rcases hcut : t.limits.cut? l (j.style.encode c.text) with _ | g
  · exact ⟨rfl, nofun, fun _ => ⟨rfl, rfl⟩⟩
  · refine ⟨tree_failed _ _ _ _, ?_, nofun⟩
    rintro f hf
    obtain rfl := Option.some.inj hf
    exact stopsWith_failed _ _ _ _

/-- A job that fails before it opens its output leaves the tree as it was. -/
theorem run_of_write_error (h : (j.plan (t.read j.path)).write = .error f) :
    StopsWith (j.run t) f ∧ (j.run t).tree = t := by
  rw [run, finish_of_write_error h]
  exact ⟨stopsWith_failed _ _ _ _, tree_failed _ _ _ _⟩

theorem run_of_target_error {c : Conversion} {q : Path} (hreads : j.Reads t u)
    (hconvert : (convert j.style j.forced u).result = .ok c) (hsome : c.converted ≠ 0)
    (hname : j.options.outputPath j.path = .ok q) (htarget : t.target q = .error f) :
    StopsWith (j.run t) f ∧ (j.run t).tree = t := by
  have hwrite := Tree.write_of_target_error htarget (j.style.encode c.text)
  rw [run, plan_of_convert hreads hconvert]
  simp only [finish, if_neg hsome, hname, map_ok, hwrite]
  exact ⟨stopsWith_failed _ _ _ _, tree_failed _ _ _ _⟩

theorem write_plan_of_name_error {c : Conversion} (hreads : j.Reads t u)
    (hconvert : (convert j.style j.forced u).result = .ok c) (hsome : c.converted ≠ 0)
    (hname : j.options.outputPath j.path = .error f) :
    (j.plan (t.read j.path)).write = .error f := by
  rw [plan_of_convert hreads hconvert]
  simp only [if_neg hsome, hname, map_error]

/-- A job ends as the fault tells that it fails with. -/
theorem run_of_failsWith (h : j.FailsWith t f) : StopsWith (j.run t) f := by
  cases h with
  | reading hread => exact (run_of_write_error (write_plan_of_read_error hread)).1
  | decoding hbytes hflaw hf =>
      subst hf
      exact (run_of_write_error (write_plan_of_decode_error hbytes hflaw)).1
  | converting hreads hconvert =>
      exact (run_of_write_error (write_plan_of_convert_error hreads hconvert)).1
  | naming hreads hconvert hsome hname =>
      exact (run_of_write_error (write_plan_of_name_error hreads hconvert hsome hname)).1
  | opening hreads hconvert hsome hname htarget =>
      exact (run_of_target_error hreads hconvert hsome hname htarget).1
  | writing hreads hconvert hsome hname htarget hcut =>
      exact (run_of_target hreads hconvert hsome hname htarget).2.1 _ hcut

/-- A job ends in one of the four ways. -/
theorem ends_run (j : Job) (t : Tree) : Ends j t (j.run t) := by
  have hstopped : ∀ {f}, j.FailsWith t f → (j.run t).tree = t → Ends j t (j.run t) :=
    fun hf htree => .stopped hf (run_of_failsWith hf) htree
  -- in the order in which the job goes on; each step that fails is an end of its own
  rcases hread : t.read j.path with f | bytes
  · exact hstopped (.reading hread) (run_of_write_error (write_plan_of_read_error hread)).2
  rcases hdecode : Text.Utf8.decode bytes with flaw | u
  · exact hstopped (.decoding hread hdecode rfl)
      (run_of_write_error (write_plan_of_decode_error hread hdecode)).2
  have hreads : j.Reads t u := ⟨bytes, hread, hdecode⟩
  rcases hconvert : (convert j.style j.forced u).result with f | c
  · exact hstopped (.converting hreads hconvert)
      (run_of_write_error (write_plan_of_convert_error hreads hconvert)).2
  by_cases hnone : c.converted = 0
  · have hplan := plan_of_convert hreads hconvert
    refine .idle hreads hconvert hnone ?_ ?_ ?_ <;> simp [run, hplan, finish, hnone, Plan.result]
  rcases hname : j.options.outputPath j.path with f | q
  · exact hstopped (.naming hreads hconvert hnone hname)
      (run_of_write_error (write_plan_of_name_error hreads hconvert hnone hname)).2
  rcases htarget : t.target q with f | l
  · exact hstopped (.opening hreads hconvert hnone hname htarget)
      (run_of_target_error hreads hconvert hnone hname htarget).2
  -- the output has been opened, so the tree has changed whatever comes next
  obtain ⟨htree, hfault, hdone⟩ := run_of_target hreads hconvert hnone hname htarget
  rcases hcut : t.limits.cut? l (j.style.encode c.text) with _ | f
  · obtain ⟨hresult, hraised⟩ := hdone hcut
    rw [Style.kept_of_cut?_eq_none hcut] at htree
    exact .wrote hreads hconvert hnone hname htarget hcut hresult hraised htree
  · exact .cut hreads hconvert hnone hname htarget hcut (hfault f hcut) htree

/-- A job fails as its write does, and such a fault is contained. -/
theorem FailsWith.of_write {c : Conversion} {q : Path} (hreads : j.Reads t u)
    (hconvert : (convert j.style j.forced u).result = .ok c) (hsome : c.converted ≠ 0)
    (hname : j.options.outputPath j.path = .ok q)
    (h : (t.write q (j.style.encode c.text)).fault = some f) :
    j.FailsWith t f ∧ f.isContained = true := by
  rcases htarget : t.target q with g | l
  · rw [Tree.write_of_target_error htarget] at h
    obtain rfl : g = f := Option.some.inj h
    exact ⟨.opening hreads hconvert hsome hname htarget, Tree.isContained_of_target htarget⟩
  · rw [Tree.write_of_target htarget] at h
    exact ⟨.writing hreads hconvert hsome hname htarget h,
      Tree.isContained_of_cut? (fun _ => Style.isContained_of_encode) h⟩

/-- A job that does not fail raises no fault and records none. -/
theorem run_of_not_failsWith (h : ∀ f, ¬ j.FailsWith t f) :
    (j.run t).raised = none ∧ (j.run t).result.error = "" := by
  cases ends_run j t with
  | stopped hfails _ _ => exact absurd hfails (h _)
  | cut hreads hconvert hsome hname htarget hcut _ _ =>
      exact absurd (.writing hreads hconvert hsome hname htarget hcut) (h _)
  | idle _ _ _ hresult hraised _ => exact ⟨hraised, by rw [hresult]⟩
  | wrote _ _ _ _ _ _ hresult hraised _ => exact ⟨hraised, by rw [hresult]⟩

/-! ### Which faults are raised -/

/-- A fault that is not contained is one of the style. -/
theorem ofStyle_of_not_contained (h : j.FailsWith t f) (hf : ¬ f.isContained = true) :
    Conversion.OfStyle j.style j.forced f := by
  cases h with
  | reading hread => exact absurd (Tree.isContained_of_read hread) hf
  | decoding _ _ hflaw =>
      subst hflaw
      exact absurd rfl hf
  | converting _ hconvert =>
      refine (Conversion.fault_cases_of_convert hconvert).resolve_left fun hdigits => ?_
      exact hf hdigits.isContained
  | naming _ _ _ hname => exact absurd (RunOptions.isContained_of_outputPath hname) hf
  | opening _ _ _ _ htarget => exact absurd (Tree.isContained_of_target htarget) hf
  | writing _ _ _ _ _ hcut =>
      exact absurd (Tree.isContained_of_cut? (fun _ => Style.isContained_of_encode) hcut) hf

theorem raised_run_eq_some_iff :
    (j.run t).raised = some f ↔ j.FailsWith t f ∧ ¬ f.isContained = true := by
  constructor
  · intro hraised
    by_cases hfails : ∃ g, j.FailsWith t g
    · obtain ⟨g, hg⟩ := hfails
      rw [(run_of_failsWith hg).raised] at hraised
      split at hraised
      · cases hraised
      next hcontained =>
        obtain rfl : g = f := Option.some.inj hraised
        exact ⟨hg, hcontained⟩
    · rw [(run_of_not_failsWith (not_exists.mp hfails)).1] at hraised
      cases hraised
  · rintro ⟨hfails, hf⟩
    rw [(run_of_failsWith hfails).raised, if_neg hf]

theorem error_run_ne_iff :
    (j.run t).result.error ≠ "" ↔ ∃ f, j.FailsWith t f ∧ f.isContained = true := by
  constructor
  · intro herror
    by_cases hfails : ∃ g, j.FailsWith t g
    · obtain ⟨g, hg⟩ := hfails
      rw [(run_of_failsWith hg).error] at herror
      split at herror
      next hcontained => exact ⟨g, hg, hcontained⟩
      · exact absurd rfl herror
    · exact absurd (run_of_not_failsWith (not_exists.mp hfails)).2 herror
  · rintro ⟨f, hfails, hf⟩
    rw [(run_of_failsWith hfails).error, if_pos hf]
    exact f.report_ne

/-- Under a style that can be used, all faults are contained. -/
theorem isContained_of_ready (h : Conversion.Ready j.style j.forced) (hf : j.FailsWith t f) :
    f.isContained = true :=
  Classical.byContradiction fun hnot => h.not_ofStyle f (ofStyle_of_not_contained hf hnot)

theorem raised_run_of_ready (h : Conversion.Ready j.style j.forced) (t : Tree) :
    (j.run t).raised = none := by
  rw [Option.eq_none_iff_forall_ne_some]
  intro f hraised
  obtain ⟨hfails, hnot⟩ := raised_run_eq_some_iff.mp hraised
  exact hnot (isContained_of_ready h hfails)

/-- Jobs of styles that can be used raise no fault, whatever they do to each
other. -/
theorem raised_pool_of_ready {jobs : List Job}
    (h : ∀ j ∈ jobs, Conversion.Ready j.style j.forced) (t : Tree) :
    (Batch.pool t jobs).raised = none := by
  have hrest : ∀ b : Batch, b.raised = none → (jobs.foldl Batch.after b).raised = none := by
    induction jobs with
    | nil => exact fun _ hb => hb
    | cons j jobs ih =>
        rw [List.forall_mem_cons] at h
        intro b hb
        refine ih h.2 _ ?_
        rw [Batch.after, hb, raised_run_of_ready h.1]
        rfl
  exact hrest _ rfl

/-- **Results record the contained faults.**  A job raises a fault exactly where
it fails with one that is not contained, and its result records an error exactly
where it fails with one that is.  All faults but those of the style are
contained; so under a style that can be used a job raises none, and its result
records an error exactly where the job fails. -/
theorem run_records_contained_faults (j : Job) (t : Tree) :
    (∀ f, (j.run t).raised = some f ↔ j.FailsWith t f ∧ ¬ f.isContained = true) ∧
      (∀ f, j.FailsWith t f → ¬ f.isContained = true →
        Conversion.OfStyle j.style j.forced f) ∧
      ((j.run t).result.error ≠ "" ↔ ∃ f, j.FailsWith t f ∧ f.isContained = true) ∧
      (Conversion.Ready j.style j.forced → (j.run t).raised = none ∧
        ((j.run t).result.error ≠ "" ↔ ∃ f, j.FailsWith t f)) := by
  refine ⟨fun f => raised_run_eq_some_iff, fun f => ofStyle_of_not_contained, error_run_ne_iff,
    fun hready => ⟨raised_run_of_ready hready t, ?_⟩⟩
  rw [error_run_ne_iff]
  exact exists_congr fun f => and_iff_left_of_imp (isContained_of_ready hready)

/-! ### A file that is missing, and a pattern that cannot be read -/

/-- A job for a file of the directory that a run starts in. -/
def ofName (name : String) (style : Style) : Job :=
  ⟨⟨0, [name]⟩, style, RunOptions.default, none⟩

theorem run_records_contained_faults_missing :
    Conversion.Ready Style.default none ∧
      ((ofName "A.java" Style.default).run Tree.empty).raised = none ∧
      ((ofName "A.java" Style.default).run Tree.empty).result.error ≠ "" := by
  obtain ⟨-, -, -, hready⟩ :=
    run_records_contained_faults (ofName "A.java" Style.default) Tree.empty
  obtain ⟨hnone, herror⟩ := hready (Conversion.ready_default none)
  have hmissing : Tree.empty.read ⟨0, ["A.java"]⟩ = .error (.refused .missing "A.java") := by
    decide +kernel
  exact ⟨Conversion.ready_default none, hnone, herror.mpr ⟨_, .reading hmissing⟩⟩

/-- A style whose pattern opens a group and does not close it. -/
def openGroup : Style := { Style.default with lombokPattern := "(" }

/-- A file with one call. -/
def oneCall : Tree where
  entries := [(["A.java"], .file (Text.Utf8.encode (Conversion.printOf ['x'])))]

theorem reads_oneCall (style : Style) :
    (ofName "A.java" style).Reads oneCall (Conversion.printOf ['x']) := by
  refine ⟨Text.Utf8.encode (Conversion.printOf ['x']), ?_, by decide +kernel⟩
  show oneCall.read ⟨0, ["A.java"]⟩ = _
  decide +kernel

theorem all_oneCall : Mention.all (Conversion.printOf ['x']) = [Conversion.printMention] := by
  decide +kernel

/-- The settings for an open group are accepted, but the job for a file with a
call raises the fault of the pattern, and its result records no error. -/
theorem run_openGroup :
    Settings.ofMapping [(.text "rewrite", .mapping [(.text "lombok_pattern", .text "(")])] =
        .ok (openGroup, RunOptions.default) ∧
      (ofName "A.java" openGroup).FailsWith oneCall .malformedPattern ∧
      ((ofName "A.java" openGroup).run oneCall).raised = some .malformedPattern ∧
      ((ofName "A.java" openGroup).run oneCall).result.error = "" := by
  have hsite : (CallSite.ofMention? (Conversion.printOf ['x']) Conversion.printMention).result =
      .ok (some ⟨Conversion.printMention, 18, 21, [.expression ['x']]⟩) := by rfl
  have hrun : (Conversion.run openGroup none (Conversion.printOf ['x'])
      (Mention.all (Conversion.printOf ['x'])) {}).result = .error .malformedPattern := by
    rw [all_oneCall, Conversion.run, Logged.result_bind, Conversion.step, if_neg (by decide),
      Logged.result_bind, hsite, ok_bind, Logged.result_bind, Logged.result_liftM]
    rfl
  have hconvert : (convert openGroup none (Conversion.printOf ['x'])).result =
      .error .malformedPattern := by
    rw [convert, Logged.result_bind, hrun, error_bind]
  have hfails := FailsWith.converting (reads_oneCall openGroup) hconvert
  have hstops := run_of_failsWith hfails
  exact ⟨rfl, hfails, hstops.raised, hstops.error⟩

/-- Under the default style the call is converted. -/
theorem exists_convert_oneCall :
    ∃ c, (convert Style.default none (Conversion.printOf ['x'])).result = .ok c ∧
      c.converted ≠ 0 := by
  have hready := Conversion.ready_default none
  have hall : ∀ m ∈ Mention.all (Conversion.printOf ['x']),
      Conversion.Convertible Style.default none (Conversion.printOf ['x']) m := by
    intro m hm
    refine (Conversion.convertible_iff_not_tooLong hready hm).mpr ?_
    rw [all_oneCall, List.mem_singleton] at hm
    subst hm
    exact Conversion.not_tooLong_of_head (by decide +kernel)
  obtain ⟨c, hc⟩ := Conversion.exists_convert_eq_ok hall
  have hone : (Conversion.sites (Conversion.printOf ['x'])).length = 1 := by decide +kernel
  refine ⟨c, hc, ?_⟩
  rw [Conversion.converted_eq_length_sites hc, hone]
  decide

end Job

end LogCalls
