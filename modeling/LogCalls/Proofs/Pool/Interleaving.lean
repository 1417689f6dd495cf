/-
LogCalls/Proofs/Pool/Interleaving.lean

The jobs of a pool when their steps mix.  Each job reads its file, then writes its
output and then records its result, and any worker may go on at any time
(`Step`).

    waiting --read--> planned --write--> finished --record--> recorded

For jobs that are separate in the tree they start in, no mixture matters, and
independent jobs of one request are separate (`separate_of_read?`).  `Sound t s` says
what holds between any two steps: what is planned or finished is what the job comes to
alone in `t`, the tree is `t` with what some of the jobs have written, and the summary
holds the results of the recorded jobs.  One step keeps it (`Sound.step`), so a whole
run does (`sound_of_run`).

Main result: when all jobs of independent files are recorded, outputs, results,
the printed summary and the exit code are those of the jobs alone, and of the jobs
in their order (`end_of_independent`).  The jobs in their order are such a run
(`run_in_order`), and a pool never gets stuck (`exists_step_of_not_done`).
-/
import Mathlib.Logic.Relation
import LogCalls.Command.Convert
import LogCalls.Proofs.Job.Containment
import LogCalls.Proofs.Job.Copy
import LogCalls.Proofs.Summary.Order

namespace LogCalls

/-- How far a job of a pool has come. -/
inductive Pool.Stage where
  | waiting
  | planned (p : Job.Plan)
  | finished (o : Job.Outcome)
  | recorded

/-- Jobs that are done at the same time in one tree. -/
structure Pool where
  jobs : List (Job × Pool.Stage)
  tree : Tree
  summary : Summary
  /-- The first fault that was recorded and that its job does not contain. -/
  raised : Option Fault

namespace Pool

/-! ### Steps -/

/-- Whether a worker is at a job. -/
def Stage.isBusy : Stage → Bool
  | .planned _ | .finished _ => true
  | .waiting | .recorded => false

/-- Whether a job has written what it writes. -/
def Stage.isWritten : Stage → Bool
  | .finished _ | .recorded => true
  | .waiting | .planned _ => false

/-- Whether the result of a job is in the summary. -/
def Stage.isRecorded : Stage → Bool
  | .recorded => true
  | .waiting | .planned _ | .finished _ => false

/-- The jobs that have come to some stage. -/
def reached (q : Stage → Bool) (l : List (Job × Stage)) : List Job :=
  (l.filter fun x => q x.2).map Prod.fst

/-- The pool before the first step. -/
def start (t : Tree) (jobs : List Job) : Pool := ⟨jobs.map fun j => (j, .waiting), t, [], none⟩

/-- One step of one job.  A worker is at one job at a time, and there is at least
one worker. -/
inductive Step (workers : Int) : Pool → Pool → Prop
  | read {before after : List (Job × Stage)} {j : Job} {u : Tree} {s : Summary}
      {r : Option Fault} :
      ((reached Stage.isBusy (before ++ after)).length : Int) < max 1 workers →
      Step workers ⟨before ++ (j, .waiting) :: after, u, s, r⟩
        ⟨before ++ (j, .planned (j.plan (u.read j.path))) :: after, u, s, r⟩
  | write {before after : List (Job × Stage)} {j : Job} {p : Job.Plan} {u : Tree} {s : Summary}
      {r : Option Fault} :
      Step workers ⟨before ++ (j, .planned p) :: after, u, s, r⟩
        ⟨before ++ (j, .finished (j.finish p u)) :: after, (j.finish p u).tree, s, r⟩
  | record {before after : List (Job × Stage)} {j : Job} {o : Job.Outcome} {u : Tree} {s : Summary}
      {r : Option Fault} :
      Step workers ⟨before ++ (j, .finished o) :: after, u, s, r⟩
        ⟨before ++ (j, .recorded) :: after, u, s ++ [o.result], r.or o.raised⟩

/-- Steps in a row. -/
abbrev Run (workers : Int) : Pool → Pool → Prop := Relation.ReflTransGen (Step workers)

/-- All jobs have been recorded. -/
def Done (s : Pool) : Prop := ∀ x ∈ s.jobs, x.2.isRecorded = true

variable {t : Tree} {jobs : List Job} {workers : Int} {s s' : Pool}
variable {q : Stage → Bool} {before after : List (Job × Stage)} {j : Job} {stage : Stage}

theorem reached_of_not (h : q stage = false) :
    reached q (before ++ (j, stage) :: after) = reached q (before ++ after) := by
  simp [reached, h]

theorem reached_perm (h : q stage = true) :
    (reached q (before ++ (j, stage) :: after)).Perm (j :: reached q (before ++ after)) := by
  have hcons : reached q ((j, stage) :: (before ++ after)) = j :: reached q (before ++ after) := by
    simp [reached, h]
  rw [← hcons]
  exact (List.perm_middle.filter _).map _

theorem mem_of_mem_reached {a : Job} (h : a ∈ reached q (before ++ after)) :
    a ∈ before.map Prod.fst ∨ a ∈ after.map Prod.fst := by
  obtain ⟨x, hx, rfl⟩ := List.mem_map.mp h
  rcases List.mem_append.mp (List.mem_filter.mp hx).1 with hx | hx
  · exact .inl (List.mem_map_of_mem hx)
  · exact .inr (List.mem_map_of_mem hx)

theorem reached_eq_nil_iff {l : List (Job × Stage)} :
    reached q l = [] ↔ ∀ x ∈ l, q x.2 = false := by
  simp only [reached, List.map_eq_nil_iff, List.filter_eq_nil_iff, Bool.not_eq_true]

/-- A worker is free where no job is under way. -/
theorem length_reached_lt (h : ∀ x ∈ before ++ after, x.2.isBusy = false) :
    ((reached Stage.isBusy (before ++ after)).length : Int) < max 1 workers := by
  rw [reached_eq_nil_iff.mpr h]
  exact Int.lt_of_lt_of_le Int.zero_lt_one (Int.le_max_left 1 workers)

theorem Done.reached_eq (h : s.Done) (hq : q .recorded = true) :
    reached q s.jobs = s.jobs.map Prod.fst := by
  rw [reached, List.filter_eq_self.mpr]
  rintro ⟨j, stage⟩ hx
  have hrecorded := h _ hx
  cases stage with
  | recorded => exact hq
  | waiting | planned | finished => cases hrecorded

/-! ### What holds between the steps -/

/-- What a stage of a job comes to is what the job comes to alone in `t`. -/
def Stage.Agrees (t : Tree) (j : Job) : Stage → Prop
  | .planned p => p = j.plan (t.read j.path)
  | .finished o => o.result = (j.run t).result ∧ o.raised = (j.run t).raised
  | .waiting | .recorded => True

/-- What the recorded jobs of a pool that was started in `t` leave behind. -/
structure Records (t : Tree) (recorded : List Job) (summary : Summary) (raised : Option Fault) :
    Prop where
  summary : summary.Perm (recorded.map fun j => (j.run t).result)
  raised : raised = none ↔ ∀ j ∈ recorded, (j.run t).raised = none

/-- What holds of a pool that has been started in `t`. -/
structure Sound (t : Tree) (s : Pool) : Prop where
  stages : ∀ x ∈ s.jobs, x.2.Agrees t x.1
  tree : Job.Changed t (reached Stage.isWritten s.jobs) s.tree
  records : Records t (reached Stage.isRecorded s.jobs) s.summary s.raised

theorem Records.cons {recorded : List Job} {summary : Summary} {raised : Option Fault}
    (h : Records t recorded summary raised) {o : Job.Outcome}
    (ho : o.result = (j.run t).result ∧ o.raised = (j.run t).raised) :
    Records t (j :: recorded) (summary ++ [o.result]) (raised.or o.raised) := by
  constructor
  · rw [List.map_cons, ← ho.1]
    exact (List.perm_append_singleton _ _).trans (h.summary.cons _)
  · rw [Option.or_eq_none_iff, h.raised, ho.2, List.forall_mem_cons]
    exact and_comm

theorem Records.perm {recorded recorded' : List Job} {summary : Summary} {raised : Option Fault}
    (h : Records t recorded summary raised) (hperm : recorded.Perm recorded') :
    Records t recorded' summary raised := by
  constructor
  · exact h.summary.trans (hperm.map _)
  · rw [h.raised]
    exact forall_congr' fun a => imp_congr_left hperm.mem_iff

theorem reached_start (hq : q .waiting = false) : reached q (start t jobs).jobs = [] := by
  refine reached_eq_nil_iff.mpr fun x hx => ?_
  obtain ⟨j, -, rfl⟩ := List.mem_map.mp hx
  exact hq

theorem sound_start (t : Tree) (jobs : List Job) : Sound t (start t jobs) := by
  constructor
  · intro x hx
    obtain ⟨j, -, rfl⟩ := List.mem_map.mp hx
    trivial
  · rw [reached_start rfl]
    exact Job.changed_nil t
  · rw [reached_start rfl]
    exact ⟨List.Perm.nil, iff_of_true rfl (List.forall_mem_nil _)⟩

/-- A step keeps the jobs. -/
theorem Step.jobs_eq (h : Step workers s s') : s'.jobs.map Prod.fst = s.jobs.map Prod.fst := by
  cases h <;> simp only [List.map_append, List.map_cons]

/-- Among separate jobs, each is safe from those that have come further. -/
theorem safeFrom_of_pairwise
    (h : ((before ++ (j, stage) :: after).map Prod.fst).Pairwise (Job.Separate t)) :
    ∀ a ∈ reached q (before ++ after), Job.SafeFrom t a j := by
  rw [List.map_append, List.map_cons, List.pairwise_append, List.pairwise_cons] at h
  obtain ⟨-, ⟨hafter, -⟩, hbefore⟩ := h
  intro a ha
  rcases mem_of_mem_reached ha with ha | ha
  · exact (hbefore a ha j List.mem_cons_self).1
  · exact (hafter a ha).2

/-- The stages of the other jobs are as before, where one job goes on. -/
theorem agrees_of_middle {stage' : Stage}
    (h : ∀ x ∈ before ++ (j, stage) :: after, x.2.Agrees t x.1) (hstage : stage'.Agrees t j) :
    ∀ x ∈ before ++ (j, stage') :: after, x.2.Agrees t x.1 := by
  simp only [List.forall_mem_append, List.forall_mem_cons] at h ⊢
  exact ⟨h.1, hstage, h.2.2⟩

/-- What holds of a pool of separate jobs still holds after a step. -/
theorem Sound.step (h : Sound t s) (hjobs : (s.jobs.map Prod.fst).Pairwise (Job.Separate t))
    (hstep : Step workers s s') : Sound t s' := by
  cases hstep with
  | @read before after j u summary raised hworkers =>
      have hwritten := h.tree
      rw [reached_of_not rfl] at hwritten
      -- no job before it has changed what it reads
      have hread : u.read j.path = t.read j.path := hwritten.read_eq (safeFrom_of_pairwise hjobs)
      constructor
      · exact agrees_of_middle h.stages (congrArg j.plan hread)
      · rw [reached_of_not rfl]
        exact hwritten
      · have hrecords := h.records
        rw [reached_of_not rfl] at hrecords ⊢
        exact hrecords
  | @write before after j p u summary raised =>
      obtain rfl : p = j.plan (t.read j.path) := h.stages (j, .planned p) (by simp)
      have hwritten := h.tree
      rw [reached_of_not rfl] at hwritten
      -- what was written since it has read is in no way of its output
      have hsafe : ∀ a ∈ reached Stage.isWritten (before ++ after), Job.SafeFrom t a j :=
        safeFrom_of_pairwise hjobs
      obtain ⟨hresult, hraise, -⟩ := Job.finish_of_changed hwritten hsafe
      constructor
      · exact agrees_of_middle h.stages ⟨hresult, hraise⟩
      · exact (hwritten.finish hsafe).congr fun a => (reached_perm rfl).mem_iff.symm
      · have hrecords := h.records
        rw [reached_of_not rfl] at hrecords ⊢
        exact hrecords
  | @record before after j o u summary raised =>
      constructor
      · exact agrees_of_middle h.stages trivial
      · have hmem : ∀ a, a ∈ reached Stage.isWritten (before ++ (j, .finished o) :: after) ↔
            a ∈ reached Stage.isWritten (before ++ (j, .recorded) :: after) := fun a =>
          (reached_perm rfl).mem_iff.trans (reached_perm rfl).mem_iff.symm
        exact h.tree.congr hmem
      · have hrecords := h.records
        rw [reached_of_not rfl] at hrecords
        have hagrees : (Stage.finished o).Agrees t j := h.stages (j, .finished o) (by simp)
        exact (hrecords.cons hagrees).perm (reached_perm rfl).symm

/-- What holds of a pool of separate jobs holds throughout a run. -/
theorem sound_of_run (hjobs : jobs.Pairwise (Job.Separate t))
    (h : Run workers (start t jobs) s) : Sound t s ∧ s.jobs.map Prod.fst = jobs := by
  induction h with
  | refl =>
      refine ⟨sound_start t jobs, ?_⟩
      rw [start, List.map_map]
      exact List.map_id jobs
  | tail _ hstep ih =>
      obtain ⟨hsound, heq⟩ := ih
      rw [← heq] at hjobs
      exact ⟨hsound.step hjobs hstep, hstep.jobs_eq.trans heq⟩

/-! ### Runs that end -/

/-- A pool never gets stuck: a worker can go on, or one is free for a job that
waits. -/
theorem exists_step_of_not_done (h : ¬ s.Done) : ∃ s', Step workers s s' := by
  obtain ⟨all, tree, summary, raised⟩ := s
  by_cases hbusy : ∃ x ∈ all, x.2.isBusy = true
  · obtain ⟨⟨j, stage⟩, hx, hstage⟩ := hbusy
    obtain ⟨before, after, rfl⟩ := List.append_of_mem hx
    cases stage with
    | planned p => exact ⟨_, .write⟩
    | finished o => exact ⟨_, .record⟩
    | waiting | recorded => cases hstage
  · simp only [Done, not_forall] at h
    obtain ⟨⟨j, stage⟩, hx, hstage⟩ := h
    obtain ⟨before, after, rfl⟩ := List.append_of_mem hx
    cases stage with
    | planned | finished => exact absurd ⟨_, hx, rfl⟩ hbusy
    | recorded => exact absurd rfl hstage
    | waiting =>
        refine ⟨_, .read (length_reached_lt fun x hxmem => ?_)⟩
        rw [← Bool.not_eq_true]
        intro hxbusy
        refine hbusy ⟨x, ?_, hxbusy⟩
        rw [List.mem_append, List.mem_cons]
        exact (List.mem_append.mp hxmem).imp_right .inr

/-- The pool at the end of a batch, with more jobs behind it. -/
def ofBatch (b : Batch) (past jobs : List Job) : Pool :=
  ⟨past.map (fun j => (j, .recorded)) ++ jobs.map fun j => (j, .waiting), b.tree, b.summary,
    b.raised⟩

@[simp] theorem raised_ofBatch (b : Batch) (past jobs : List Job) :
    (ofBatch b past jobs).raised = b.raised := rfl

@[simp] theorem summary_ofBatch (b : Batch) (past jobs : List Job) :
    (ofBatch b past jobs).summary = b.summary := rfl

/-- One job from its first to its last step, while no other one goes on. -/
theorem run_after (b : Batch) (past : List Job) (j : Job) (jobs : List Job) :
    Run workers (ofBatch b past (j :: jobs)) (ofBatch (b.after j) (past ++ [j]) jobs) := by
  have hidle : ∀ x ∈ past.map (fun a => (a, Stage.recorded)) ++
      jobs.map fun a => (a, Stage.waiting), x.2.isBusy = false := by
    intro x hx
    rcases List.mem_append.mp hx with hx | hx
    · obtain ⟨a, -, rfl⟩ := List.mem_map.mp hx
      rfl
    · obtain ⟨a, -, rfl⟩ := List.mem_map.mp hx
      rfl
  have hend : ofBatch (b.after j) (past ++ [j]) jobs =
      ⟨past.map (fun a => (a, .recorded)) ++ (j, .recorded) :: jobs.map fun a => (a, .waiting),
        (j.run b.tree).tree, b.summary ++ [(j.run b.tree).result],
        b.raised.or (j.run b.tree).raised⟩ := by
    simp [ofBatch, Batch.after]
  rw [hend]
  exact .tail (.tail (.single (.read (length_reached_lt hidle))) .write) .record

theorem run_foldl_after (b : Batch) (past jobs : List Job) :
    Run workers (ofBatch b past jobs) (ofBatch (jobs.foldl Batch.after b) (past ++ jobs) []) := by
  induction jobs generalizing b past with
  | nil =>
      rw [List.append_nil]
      exact .refl
  | cons j jobs ih =>
      have hrest := ih (b.after j) (past ++ [j])
      rw [List.append_assoc, List.singleton_append] at hrest
      exact (run_after b past j jobs).trans hrest

/-- The jobs in their order are one of the runs of a pool. -/
theorem run_in_order (t : Tree) (jobs : List Job) :
    Run workers (start t jobs) (ofBatch (Batch.pool t jobs) jobs []) :=
  run_foldl_after (Batch.start t) [] jobs

theorem done_ofBatch (b : Batch) (past : List Job) : (ofBatch b past []).Done := by
  intro x hx
  rw [ofBatch, List.map_nil, List.append_nil] at hx
  obtain ⟨j, -, rfl⟩ := List.mem_map.mp hx
  rfl

end Pool

/-! ### The command -/

namespace Command.Convert

variable {words : List String} {r : Request}

theorem Request.proper_of_read? (h : Request.read? words = some r) : ∀ p ∈ r.files, p.Proper := by
  simp only [Request.read?, Option.bind_eq_bind, Option.bind_eq_some_iff] at h
  obtain ⟨w, -, workers, -, -, -, h⟩ := h
  obtain rfl := Option.some.inj h
  intro p hp
  obtain ⟨name, -, rfl⟩ := List.mem_map.mp hp
  exact Path.proper_read name

/-- The jobs of a request. -/
def Request.jobs (r : Request) (style : Style) (options : RunOptions) : List Job :=
  r.files.map fun p => ⟨p, style, options, r.severity⟩

variable {style : Style} {options : RunOptions} {t : Tree}

/-- Where no fault is raised, the command ends with the summary of its jobs. -/
theorem convertFiles_of_pool {shown : Text} (entries : List Entry)
    (hworkers : Number.writeWhole options.workers = .ok shown)
    (h : (Batch.pool t (r.jobs style options)).raised = none) :
    (convertFiles r style options t entries).raised = none ∧
      (convertFiles r style options t entries).output =
        some (Batch.pool t (r.jobs style options)).summary.draw ∧
      (convertFiles r style options t entries).exitCode =
        (Batch.pool t (r.jobs style options)).summary.exitCode := by
  rw [Request.jobs] at h ⊢
  unfold convertFiles
  rw [hworkers]
  dsimp only
  rw [h]
  exact ⟨rfl, rfl, rfl⟩

end Command.Convert

namespace Pool

open Command.Convert

variable {words : List String} {r : Request} {style : Style} {options : RunOptions} {t : Tree}
variable {s : Pool}

/-- The jobs of a request have the same options, and so are separate where they are
independent. -/
theorem separate_of_read? (hread : Request.read? words = some r)
    (h : (r.jobs style options).Pairwise (Job.Independent t)) :
    (r.jobs style options).Pairwise (Job.Separate t) := by
  have hjob : ∀ j ∈ r.jobs style options, j.path.Proper ∧ j.options = options := fun j hj => by
    obtain ⟨p, hp, rfl⟩ := List.mem_map.mp hj
    exact ⟨Request.proper_of_read? hread p hp, rfl⟩
  refine h.imp_of_mem fun ha hb hindependent => ?_
  obtain ⟨hpath, hoptions⟩ := hjob _ ha
  obtain ⟨hpath', hoptions'⟩ := hjob _ hb
  exact Job.separate_of_independent hpath hpath' (hoptions.trans hoptions'.symm) hindependent

/-- Among the results of a request, the path tells the result. -/
theorem eq_of_path_text_eq (hread : Request.read? words = some r) {a b : FileResult}
    (ha : a ∈ (r.jobs style options).map fun j => (j.run t).result)
    (hb : b ∈ (r.jobs style options).map fun j => (j.run t).result)
    (h : a.path.text = b.path.text) : a = b := by
  rw [Request.jobs, List.map_map] at ha hb
  obtain ⟨p, hp, rfl⟩ := List.mem_map.mp ha
  obtain ⟨q, hq, rfl⟩ := List.mem_map.mp hb
  have hpaths : p = q := by
    refine Path.eq_of_text_eq (Request.proper_of_read? hread p hp)
      (Request.proper_of_read? hread q hq) ?_
    rwa [Function.comp_apply, Function.comp_apply, Job.path_run, Job.path_run] at h
  rw [hpaths]

/-- **Independent files do not influence each other.**  When all jobs of a request
are recorded, by any workers and in any order, and no fault was raised, then each
output holds what its job alone writes, nothing else has changed, and the summary
holds the result of each job alone.  It is printed as for the jobs in their order,
which is how the command ends, and the exit code tells whether a job alone records
an error. -/
theorem end_of_independent (hread : Request.read? words = some r)
    (hjobs : (r.jobs style options).Pairwise (Job.Independent t))
    (hrun : Run options.workers (start t (r.jobs style options)) s) (hdone : s.Done)
    (hraised : s.raised = none) :
    (∀ j ∈ r.jobs style options, ∀ l, j.Outputs t l → s.tree.get? l = (j.run t).tree.get? l) ∧
      (∀ l, (∀ j ∈ r.jobs style options, ¬ j.Outputs t l) → s.tree.get? l = t.get? l) ∧
      s.summary.Perm ((r.jobs style options).map fun j => (j.run t).result) ∧
      s.summary.draw = (Batch.pool t (r.jobs style options)).summary.draw ∧
      (s.summary.exitCode = 1 ↔
        ∃ j ∈ r.jobs style options, (j.run t).result.error ≠ "") ∧
      ∀ w entries, Number.writeWhole options.workers = .ok w →
        (convertFiles r style options t entries).raised = none ∧
          (convertFiles r style options t entries).output = some s.summary.draw ∧
          (convertFiles r style options t entries).exitCode = s.summary.exitCode := by
  -- all jobs are recorded, so what holds between the steps holds of all of them
  have hseparate := separate_of_read? hread hjobs
  obtain ⟨hsound, hlist⟩ := sound_of_run hseparate hrun
  have hwritten : reached Stage.isWritten s.jobs = r.jobs style options :=
    (hdone.reached_eq rfl).trans hlist
  have hrecorded : reached Stage.isRecorded s.jobs = r.jobs style options :=
    (hdone.reached_eq rfl).trans hlist
  have htree : Job.Changed t (r.jobs style options) s.tree := by
    rw [← hwritten]
    exact hsound.tree
  obtain ⟨hsummary, hnone⟩ : Records t (r.jobs style options) s.summary s.raised := by
    rw [← hrecorded]
    exact hsound.records
  obtain ⟨-, hpool, hpoolraised⟩ := Batch.pool_of_separate hseparate
  have hdraw : s.summary.draw = (Batch.pool t (r.jobs style options)).summary.draw := by
    rw [hpool]
    refine Summary.draw_perm hsummary fun a ha b hb => ?_
    exact eq_of_path_text_eq hread (hsummary.mem_iff.mp ha) (hsummary.mem_iff.mp hb)
  have hcode : s.summary.exitCode = (Batch.pool t (r.jobs style options)).summary.exitCode := by
    rw [hpool]
    exact Summary.exitCode_perm hsummary
  refine ⟨fun j hj l hl => htree.get?_of_outputs hseparate hj hl,
    fun l hl => htree.get?_of_not_outputs hl, hsummary, hdraw, ?_, fun w entries hw => ?_⟩
  · rw [hcode, hpool, Summary.exitCode_eq_one_iff]
    simp only [List.mem_map, exists_exists_and_eq_and]
  · have hend : (Batch.pool t (r.jobs style options)).raised = none :=
      hpoolraised.mpr (hnone.mp hraised)
    rw [hdraw, hcode]
    exact convertFiles_of_pool entries hw hend

/-! ### Two files, and a file behind an output -/

/-- A job for a file of the directory that a run starts in is clear of a job whose
output is another file. -/
theorem clearOf_of_name {a b : Job} {p q : Path} {l m n : Tree.Location} {name : String}
    (hstart : t.get? t.start ≠ none)
    (ha : a.options.outputPath a.path = .ok p) (hl : t.spot p = .ok l)
    (hb : b.options.outputPath b.path = .ok q) (hm : t.spot q = .ok m)
    (hn : t.spot b.path = .ok n) (hpath : b.path.slashes = 0 ∧ b.path.names = [name])
    (hne : l ≠ m ∧ l ≠ n) : Job.ClearOf t a b := by
  rintro l' ⟨p', ha', hl'⟩
  obtain rfl : p = p' := Except.ok.inj (ha.symm.trans ha')
  obtain rfl : l = l' := Except.ok.inj (hl.symm.trans hl')
  refine ⟨fun hinput => hne.2 (Except.ok.inj (hinput.symm.trans hn)), ?_, fun hway => ?_⟩
  · rintro ⟨q', hb', hm'⟩
    obtain rfl : q = q' := Except.ok.inj (hb.symm.trans hb')
    exact hne.1 (Except.ok.inj (hm'.symm.trans hm))
  · -- on the way of a single name is the directory that a run starts in
    have hnames : b.path.names = [] ++ [name] := hpath.2
    obtain ⟨names, hnil, hwalk⟩ := (Tree.onWay_iff_of_concat hnames).mp hway
    obtain rfl := List.prefix_nil.mp hnil
    rw [Tree.origin, if_pos hpath.1] at hwalk
    obtain rfl := Except.ok.inj hwalk
    exact hstart

/-- Jobs for two files of the directory that a run starts in. -/
def pairJobs : List Job := [Job.ofName "A.java" Style.default, Job.ofName "B.java" Style.default]

theorem exists_read_pair :
    ∃ r, Request.read? ["A.java", "B.java"] = some r ∧
      r.jobs Style.default RunOptions.default = pairJobs := by
  have hwords : (Request.read? ["A.java", "B.java"]).map (fun r => (r.files, r.severity)) =
      some ([⟨0, ["A.java"]⟩, ⟨0, ["B.java"]⟩], none) := by decide +kernel
  obtain ⟨r, hr, hfiles⟩ := Option.map_eq_some_iff.mp hwords
  obtain ⟨hfiles, hseverity⟩ := Prod.mk.inj hfiles
  refine ⟨r, hr, ?_⟩
  rw [Request.jobs, hfiles, hseverity]
  rfl

theorem outputPath_first :
    RunOptions.default.outputPath ⟨0, ["A.java"]⟩ = .ok ⟨0, ["A.java.converted"]⟩ := by
  decide +kernel

theorem independent_pairJobs : pairJobs.Pairwise (Job.Independent Job.oneCall) := by
  have hsecond : RunOptions.default.outputPath ⟨0, ["B.java"]⟩ =
      .ok ⟨0, ["B.java.converted"]⟩ := by
    decide +kernel
  have hspot : ∀ name ∈ ["A.java", "B.java", "A.java.converted", "B.java.converted"],
      Job.oneCall.spot ⟨0, [name]⟩ = .ok ([name]) := by decide +kernel
  have hAin := hspot "A.java" (by simp)
  have hBin := hspot "B.java" (by simp)
  have hAout := hspot "A.java.converted" (by simp)
  have hBout := hspot "B.java.converted" (by simp)
  have hroot : Job.oneCall.get? Job.oneCall.start ≠ none := by decide +kernel
  rw [pairJobs, List.pairwise_pair]
  exact ⟨clearOf_of_name hroot outputPath_first hAout hsecond hBout hBin ⟨rfl, rfl⟩ (by decide),
    clearOf_of_name hroot hsecond hBout outputPath_first hAout hAin ⟨rfl, rfl⟩ (by decide)⟩

/-- Jobs of the usual style raise no fault. -/
theorem raised_pool_of_default {jobs : List Job} (h : ∀ j ∈ jobs, j.style = Style.default)
    (t : Tree) : (Batch.pool t jobs).raised = none := by
  refine Job.raised_pool_of_ready (fun j hj => ?_) t
  rw [h j hj]
  exact Conversion.ready_default j.forced

theorem end_of_independent_pair :
    ∃ r s, Request.read? ["A.java", "B.java"] = some r ∧
      (r.jobs Style.default RunOptions.default).Pairwise (Job.Independent Job.oneCall) ∧
      Run RunOptions.default.workers
        (start Job.oneCall (r.jobs Style.default RunOptions.default)) s ∧
      s.Done ∧ s.raised = none ∧ s.summary.exitCode = 1 := by
  obtain ⟨r, hr, hjobs⟩ := exists_read_pair
  have hindependent : (r.jobs Style.default RunOptions.default).Pairwise
      (Job.Independent Job.oneCall) := hjobs ▸ independent_pairJobs
  have hraised : (Batch.pool Job.oneCall (r.jobs Style.default RunOptions.default)).raised =
      none := by
    refine raised_pool_of_default (fun j hj => ?_) _
    obtain ⟨p, -, rfl⟩ := List.mem_map.mp hj
    rfl
  -- the jobs in their order are one of the runs
  have hrun : Run RunOptions.default.workers
      (start Job.oneCall (r.jobs Style.default RunOptions.default)) _ := run_in_order _ _
  have hdone := done_ofBatch (Batch.pool Job.oneCall (r.jobs Style.default RunOptions.default))
    (r.jobs Style.default RunOptions.default)
  obtain ⟨-, -, -, -, hcode, -⟩ := end_of_independent hr hindependent hrun hdone hraised
  refine ⟨r, _, hr, hindependent, hrun, hdone, hraised, hcode.mpr ?_⟩
  -- the second file is missing
  have hmissing : Job.oneCall.read ⟨0, ["B.java"]⟩ = .error (.refused .missing "B.java") := by
    decide +kernel
  refine ⟨Job.ofName "B.java" Style.default, ?_, ?_⟩
  · rw [hjobs]
    exact List.mem_cons_of_mem _ List.mem_cons_self
  · exact Job.error_run_ne_iff.mpr ⟨_, .reading hmissing, rfl⟩

/-- Two jobs name different files, and the output of neither is the file or the
output of the other. -/
structure Apart (t : Tree) (a b : Job) : Prop where
  files : ∀ l, a.Inputs t l → ¬ b.Inputs t l
  output : ∀ l, a.Outputs t l → ¬ b.Inputs t l ∧ ¬ b.Outputs t l
  output' : ∀ l, b.Outputs t l → ¬ a.Inputs t l ∧ ¬ a.Outputs t l
  paths : ∃ p q, a.options.outputPath a.path = .ok p ∧ b.options.outputPath b.path = .ok q ∧
    [a.path, p, b.path, q].Nodup

/-- A job for a file in a directory that has the name of another job's output. -/
def behindOutput : Job :=
  ⟨⟨0, ["A.java.converted", "B.java"]⟩, Style.default, RunOptions.default, none⟩

theorem outputPath_behindOutput : behindOutput.options.outputPath behindOutput.path =
    .ok ⟨0, ["A.java.converted", "B.java.converted"]⟩ := by decide +kernel

theorem apart_behindOutput :
    Apart Job.oneCall (Job.ofName "A.java" Style.default) behindOutput := by
  have hin : ∀ l, ¬ behindOutput.Inputs Job.oneCall l := by
    intro l hl
    have hspot : Job.oneCall.spot ⟨0, ["A.java.converted", "B.java"]⟩ =
        .error (.refused .missing "A.java.converted/B.java") := by decide +kernel
    cases hspot.symm.trans hl
  have hout : ∀ l, ¬ behindOutput.Outputs Job.oneCall l := by
    rintro l ⟨q, hq, hl⟩
    obtain rfl := Except.ok.inj (outputPath_behindOutput.symm.trans hq)
    have hspot : Job.oneCall.spot ⟨0, ["A.java.converted", "B.java.converted"]⟩ =
        .error (.refused .missing "A.java.converted/B.java.converted") := by decide +kernel
    cases hspot.symm.trans hl
  exact ⟨fun l _ => hin l, fun l _ => ⟨hin l, hout l⟩, fun l hl => absurd hl (hout l),
    _, _, outputPath_first, outputPath_behindOutput, by decide +kernel⟩

/-- The first job writes its output. -/
theorem exists_change?_first :
    ∃ content, (Job.ofName "A.java" Style.default).change? Job.oneCall =
      some (["A.java.converted"], content) := by
  obtain ⟨c, hconvert, hsome⟩ := Job.exists_convert_oneCall
  refine ⟨_, Job.change?_eq_some_iff.mpr ⟨⟨0, ["A.java.converted"]⟩, Style.default.encode c.text,
    ?_, by decide +kernel, rfl⟩⟩
  rw [Job.plan_of_convert (j := Job.ofName "A.java" Style.default) (Job.reads_oneCall _) hconvert]
  dsimp only
  rw [if_neg hsome, Job.ofName, outputPath_first]
  rfl

/-- A file with the name of its directory stands in the way of the second job. -/
theorem read_behindOutput_of_file {u : Tree} {content : List UInt8} (hstart : u.start = [])
    (hfile : u.get? ["A.java.converted"] = some (.file content)) :
    u.read behindOutput.path = .error (.refused .notADirectory "A.java.converted/B.java") := by
  have hshort : ¬ Tree.pathLimit ≤ behindOutput.path.text.utf8ByteSize := by decide +kernel
  have hzero : ¬ behindOutput.path.hasZero = true := by decide +kernel
  have hnames : behindOutput.path.names = ["A.java.converted", "B.java"] := by decide +kernel
  have horigin : u.origin behindOutput.path = [] := hstart
  have hstep : u.step [] "A.java.converted" = .ok ["A.java.converted"] := by
    simp only [Tree.step, Tree.get?_nil]
    rfl
  have hstop : u.step ["A.java.converted"] "B.java" = .error .notADirectory := by
    simp only [Tree.step, hfile]
  have hfollow : u.follow behindOutput.path = .error .notADirectory := by
    rw [Tree.follow, if_neg hshort, hnames, horigin, Tree.walk, List.foldlM_cons, hstep, ok_bind,
      List.foldlM_cons, hstop, error_bind]
  rw [Tree.read, Tree.spot, if_neg hzero, hfollow]
  rfl

/-- The output that the first job has written stands in the way of the second. -/
theorem read_behindOutput :
    ((Job.ofName "A.java" Style.default).run Job.oneCall).tree.read behindOutput.path =
      .error (.refused .notADirectory "A.java.converted/B.java") := by
  obtain ⟨content, hchange⟩ := exists_change?_first
  exact read_behindOutput_of_file (Job.ofOneRun_run _ _).start (Job.get?_run_of_change? hchange)

theorem mem_summary_pool_pair {t : Tree} {a b : Job} {o : FileResult}
    (h : o ∈ (Batch.pool t [a, b]).summary) :
    o = (a.run t).result ∨ o = (b.run (a.run t).tree).result := by
  have hsummary : (Batch.pool t [a, b]).summary =
      [(a.run t).result, (b.run (a.run t).tree).result] := rfl
  rw [hsummary, List.mem_cons, List.mem_singleton] at h
  exact h

/-- Files that are apart do influence each other where an output takes the name of
a directory: the second job does not record the error that it records alone. -/
theorem result_behindOutput :
    Apart Job.oneCall (Job.ofName "A.java" Style.default) behindOutput ∧
      ∃ s, Run 1 (start Job.oneCall [Job.ofName "A.java" Style.default, behindOutput]) s ∧
        s.Done ∧ s.raised = none ∧ (behindOutput.run Job.oneCall).result ∉ s.summary := by
  have hraised : (Batch.pool Job.oneCall
      [Job.ofName "A.java" Style.default, behindOutput]).raised = none := by
    refine raised_pool_of_default ?_ _
    rw [List.forall_mem_cons, List.forall_mem_singleton]
    exact ⟨rfl, rfl⟩
  -- alone the file is missing; after the first job its directory is a file
  have halone : (behindOutput.run Job.oneCall).result.error =
      (Fault.refused .missing "A.java.converted/B.java").report := by
    have hread : Job.oneCall.read behindOutput.path =
        .error (.refused .missing "A.java.converted/B.java") := by decide +kernel
    exact (Job.run_of_failsWith (.reading hread)).error
  have hafter := (Job.run_of_failsWith (.reading read_behindOutput)).error
  refine ⟨apart_behindOutput, _, run_in_order _ _, done_ofBatch _ _, ?_, fun hmem => ?_⟩
  · rw [raised_ofBatch, hraised]
  rw [summary_ofBatch] at hmem
  rcases mem_summary_pool_pair hmem with heq | heq
  · have hpath := congrArg FileResult.path heq
    rw [Job.path_run, Job.path_run] at hpath
    exact absurd hpath (by decide +kernel)
  · have herror := congrArg FileResult.error heq
    rw [halone, hafter] at herror
    exact absurd herror (by decide +kernel)

end Pool

end LogCalls
