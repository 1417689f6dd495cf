/-
LogCalls/Proofs/Job/Effect.lean

What a job changes in a tree, and when other jobs do not matter to it.  A job
writes one file or none, which holds afterwards what is kept of the new text
(`change?`), and `Changed t done u` says that a tree `u` is `t` after some jobs, each of
which has written what it writes in `t`.

A job is safe from another one where the other's output is neither its file nor its
output, and creates no file where its path or its output's has to lead through a
directory (`SafeFrom`).  Then it does in `u` what it does in `t` (`finish_of_changed`), and the
relation goes on (`Changed.finish`): this is the step that both the jobs of a pool
and those of a sequence repeat.
-/
import Mathlib.Data.List.Pairwise
import LogCalls.Batch
import LogCalls.Proofs.Tree.Walk

namespace LogCalls

namespace Job

/-! ### What a job writes -/

/-- Where a plan writes in a tree, and what is left there, if it opens a file. -/
def Plan.change? (p : Plan) (t : Tree) : Option (Tree.Location × List UInt8) :=
  match p.write with
  | .ok (some (q, content)) =>
    match t.target q with
    | .ok l => some (l, t.limits.kept l content)
    | .error _ => none
  | _ => none

/-- What a job writes in a tree where it runs alone. -/
def change? (j : Job) (t : Tree) : Option (Tree.Location × List UInt8) :=
  (j.plan (t.read j.path)).change? t

/-- The location of a job's file. -/
def Inputs (j : Job) (t : Tree) (l : Tree.Location) : Prop := t.spot j.path = .ok l

/-- The location of a job's output. -/
def Outputs (j : Job) (t : Tree) (l : Tree.Location) : Prop :=
  ∃ q, j.options.outputPath j.path = .ok q ∧ t.spot q = .ok l

variable {j : Job} {p : Plan} {t u : Tree} {l : Tree.Location} {content : List UInt8}

/-- What is left of a job in the tree is what its plan writes. -/
theorem tree_finish (j : Job) (p : Plan) (t : Tree) :
    (j.finish p t).tree = match p.change? t with
      | some (l, content) => t.put l (.file content)
      | none => t := by
  rcases hwrite : p.write with f | (_ | ⟨q, v⟩)
  · simp [finish, Plan.change?, hwrite]
  · simp [finish, Plan.change?, hwrite]
  · rcases htarget : t.target q with f | l
    · simp [finish, Plan.change?, Tree.write_of_target_error htarget, hwrite, htarget]
    · simp only [finish, Plan.change?, Tree.write_of_target htarget, hwrite, htarget]
      split <;> simp only [tree_failed]

theorem ofOneRun_finish (h : t.OfOneRun u) (j : Job) (p : Plan) :
    t.OfOneRun (j.finish p u).tree := by
  rw [tree_finish]
  split
  · exact h.put _ _
  · exact h

theorem ofOneRun_run (j : Job) (t : Tree) : t.OfOneRun (j.run t).tree :=
  ofOneRun_finish t.ofOneRun_refl j _

/-- What a fault comes to does not depend on the tree. -/
theorem failed_congr (j : Job) (p : Plan) (t u : Tree) (f : Fault) :
    (j.failed p u f).result = (j.failed p t f).result ∧
      (j.failed p u f).raised = (j.failed p t f).raised := by
  unfold failed
  split <;> exact ⟨rfl, rfl⟩

/-- The end of a job depends on where it can write. -/
theorem finish_congr (hrun : t.OfOneRun u)
    (h : ∀ q content, p.write = .ok (some (q, content)) → u.target q = t.target q) :
    (j.finish p u).result = (j.finish p t).result ∧
      (j.finish p u).raised = (j.finish p t).raised ∧ p.change? u = p.change? t := by
  rcases hwrite : p.write with f | (_ | ⟨q, content⟩)
  · obtain ⟨hresult, hraised⟩ := failed_congr j p t u f
    simp only [finish, Plan.change?, hwrite]
    exact ⟨hresult, hraised, trivial⟩
  · simp [finish, Plan.change?, hwrite]
  · have htarget := h q content hwrite
    rcases ht : t.target q with f | l
    · rw [ht] at htarget
      obtain ⟨hresult, hraised⟩ := failed_congr j p t u f
      simp only [finish, Plan.change?, Tree.write_of_target_error htarget,
        Tree.write_of_target_error ht, hwrite, ht, htarget]
      exact ⟨hresult, hraised, trivial⟩
    -- a file that is opened: what is kept of the content depends on the limits alone
    · rw [ht] at htarget
      simp only [finish, Plan.change?, Tree.write_of_target htarget, Tree.write_of_target ht,
        hwrite, ht, htarget, hrun.limits]
      rcases t.limits.cut? l content with _ | f
      · exact ⟨rfl, rfl, trivial⟩
      · obtain ⟨hresult, hraised⟩ :=
          failed_congr j p _ (u.put l (.file (t.limits.kept l content))) f
        exact ⟨hresult, hraised, trivial⟩

/-- The result of a job is for its path. -/
theorem path_run (j : Job) (t : Tree) : (j.run t).result.path = j.path := by
  rw [run, finish]
  split
  · exact path_failed _ _ _ _
  · rfl
  · dsimp only
    split
    · exact path_failed _ _ _ _
    · rfl

/-- A plan writes where the content is a text with a call, and the new text goes
to the output path. -/
theorem write_plan_eq_iff {content v : Except Fault (List UInt8)} {q : Path} :
    (j.plan content).write = .ok (some (q, v)) ↔
      ∃ bytes u c, content = .ok bytes ∧ Text.Utf8.decode bytes = .ok u ∧
        (convert j.style j.forced u).result = .ok c ∧ c.converted ≠ 0 ∧
        j.options.outputPath j.path = .ok q ∧ j.style.encode c.text = v := by
  rw [plan]
  constructor
  · intro h
    split at h
    · cases h
    next u htext =>
      obtain ⟨bytes, rfl, hbytes⟩ := bind_eq_ok_iff.mp htext
      have hdecode : Text.Utf8.decode bytes = .ok u := by
        rcases hd : Text.Utf8.decode bytes with flaw | u'
        · rw [hd] at hbytes
          cases hbytes
        · rw [hd] at hbytes
          rw [Except.ok.inj hbytes]
      rcases hconvert : (convert j.style j.forced u).result with f | c
      · simp only [hconvert] at h
        cases h
      · simp only [hconvert] at h
        split at h
        · cases h
        next hsome =>
          obtain ⟨q', hq', heq⟩ := map_eq_ok_iff.mp h
          obtain ⟨rfl, hv⟩ := Prod.mk.inj (Option.some.inj heq)
          exact ⟨bytes, u, c, rfl, hdecode, hconvert, hsome, hq', hv⟩
  · rintro ⟨bytes, u, c, rfl, hdecode, hconvert, hsome, hq, rfl⟩
    simp only [ok_bind, hdecode, mapError_ok, hconvert, if_neg hsome, hq, map_ok]

theorem outputPath_of_plan {content v : Except Fault (List UInt8)} {q : Path}
    (h : (j.plan content).write = .ok (some (q, v))) : j.options.outputPath j.path = .ok q := by
  obtain ⟨-, -, -, -, -, -, -, hq, -⟩ := write_plan_eq_iff.mp h
  exact hq

theorem change?_eq_some_iff :
    j.change? t = some (l, content) ↔
      ∃ q v, (j.plan (t.read j.path)).write = .ok (some (q, v)) ∧ t.target q = .ok l ∧
        content = t.limits.kept l v := by
  rw [change?, Plan.change?]
  constructor
  · intro h
    split at h
    next q v hwrite =>
      split at h
      next htarget =>
        obtain ⟨rfl, rfl⟩ := Prod.mk.inj (Option.some.inj h)
        exact ⟨q, v, hwrite, htarget, rfl⟩
      · cases h
    · cases h
  · rintro ⟨q, v, hwrite, htarget, rfl⟩
    simp only [hwrite, htarget]

/-- What a job leaves behind is what its write leaves. -/
theorem tree_run_of_plan {q : Path} {v : Except Fault (List UInt8)}
    (h : (j.plan (t.read j.path)).write = .ok (some (q, v))) :
    (j.run t).tree = (t.write q v).tree := by
  rw [run, finish, h]
  dsimp only
  split
  · exact tree_failed _ _ _ _
  · rfl

/-- A job writes at the location of its output, where no directory is. -/
theorem outputs_of_change? (h : j.change? t = some (l, content)) :
    j.Outputs t l ∧ t.get? l ≠ some .directory := by
  obtain ⟨q, v, hwrite, htarget, -⟩ := change?_eq_some_iff.mp h
  exact ⟨⟨q, outputPath_of_plan hwrite, Tree.spot_of_target htarget⟩,
    Tree.not_directory_of_target htarget⟩

theorem ne_nil_of_change? (h : j.change? t = some (l, content)) : l ≠ [] := by
  rintro rfl
  exact (outputs_of_change? h).2 (Tree.get?_nil t)

theorem get?_run_of_change? (h : j.change? t = some (l, content)) :
    (j.run t).tree.get? l = some (.file content) := by
  rw [run, tree_finish, ← change?, h]
  exact Tree.get?_put_self t _ (ne_nil_of_change? h)

theorem get?_run_of_not_change? (h : ∀ content, j.change? t ≠ some (l, content)) :
    (j.run t).tree.get? l = t.get? l := by
  rw [run, tree_finish, ← change?]
  rcases hchange : j.change? t with _ | ⟨m, content⟩
  · rfl
  · refine Tree.get?_put_of_ne t _ ?_
    rintro rfl
    exact h content hchange

/-! ### Jobs that do not matter to each other -/

/-- A job `b` is clear of a job `a`: the output of `a` is neither the file nor the
output of `b`, and where the path of `b` leads through it, something is there
already. -/
def ClearOf (t : Tree) (a b : Job) : Prop :=
  ∀ l, a.Outputs t l → ¬ b.Inputs t l ∧ ¬ b.Outputs t l ∧ (t.OnWay b.path l → t.get? l ≠ none)

/-- Two jobs are clear of each other. -/
def Independent (t : Tree) (a b : Job) : Prop := ClearOf t a b ∧ ClearOf t b a

/-- A job `b` is safe from a job `a`: it is clear of it, and also where the path of its
output leads through the output of `a`, something is there already. -/
structure SafeFrom (t : Tree) (a b : Job) : Prop where
  clear : ClearOf t a b
  way : ∀ l q, a.Outputs t l → b.options.outputPath b.path = .ok q → t.OnWay q l →
    t.get? l ≠ none

/-- Two jobs are safe from each other. -/
def Separate (t : Tree) (a b : Job) : Prop := SafeFrom t a b ∧ SafeFrom t b a

instance (t : Tree) : Std.Symm (Separate t) := ⟨fun _ _ h => ⟨h.2, h.1⟩⟩

/-- The tree `u` is `t` after some jobs have written what each of them writes in
`t`. -/
structure Changed (t : Tree) (jobs : List Job) (u : Tree) : Prop where
  ofOneRun : t.OfOneRun u
  get? : ∀ l, (∃ a ∈ jobs, ∃ content, a.change? t = some (l, content) ∧
      u.get? l = some (.file content)) ∨
    ((∀ a ∈ jobs, ∀ content, a.change? t ≠ some (l, content)) ∧ u.get? l = t.get? l)

theorem changed_nil (t : Tree) : Changed t [] t :=
  ⟨t.ofOneRun_refl, fun _ => .inr ⟨List.forall_mem_nil _, rfl⟩⟩

variable {jobs : List Job}

theorem Changed.congr {others : List Job} (h : Changed t jobs u)
    (hmem : ∀ a, a ∈ jobs ↔ a ∈ others) : Changed t others u := by
  refine ⟨h.ofOneRun, fun l => ?_⟩
  simpa only [hmem] using h.get? l

theorem Changed.get?_of_not_outputs (h : Changed t jobs u) (hl : ∀ a ∈ jobs, ¬ a.Outputs t l) :
    u.get? l = t.get? l := by
  rcases h.get? l with ⟨a, ha, content, hchange, -⟩ | ⟨-, hget⟩
  · exact absurd (outputs_of_change? hchange).1 (hl a ha)
  · exact hget

/-- What some jobs have written is of the same kind as before where something was. -/
theorem Changed.alike (h : Changed t jobs u)
    (hsome : ∀ a ∈ jobs, a.Outputs t l → t.get? l ≠ none) : Tree.Alike t u l := by
  rcases h.get? l with ⟨a, ha, content, hchange, hget⟩ | ⟨-, hget⟩
  · obtain ⟨houtputs, hdirectory⟩ := outputs_of_change? hchange
    -- there was a file before
    rcases ht : t.get? l with _ | (_ | old)
    · exact absurd ht (hsome a ha houtputs)
    · exact absurd ht hdirectory
    · rw [Tree.Alike, ht, hget]
      rfl
  · exact Tree.alike_of_eq hget

/-- A job reads the same where it is safe from the jobs before it. -/
theorem Changed.read_eq (h : Changed t jobs u) (hsafe : ∀ a ∈ jobs, SafeFrom t a j) :
    u.read j.path = t.read j.path := by
  refine Tree.read_congr h.ofOneRun (fun l hway => ?_) fun l hspot => ?_
  · exact h.alike fun a ha houtputs => ((hsafe a ha).clear l houtputs).2.2 hway
  · exact h.get?_of_not_outputs fun a ha houtputs => ((hsafe a ha).clear l houtputs).1 hspot

theorem Changed.target_eq (h : Changed t jobs u) (hsafe : ∀ a ∈ jobs, SafeFrom t a j) {q : Path}
    (hq : j.options.outputPath j.path = .ok q) : u.target q = t.target q := by
  refine Tree.target_congr h.ofOneRun (fun l hway => ?_) fun l hspot => ?_
  · exact h.alike fun a ha houtputs => (hsafe a ha).way l q houtputs hq hway
  · exact h.get?_of_not_outputs fun a ha houtputs =>
      ((hsafe a ha).clear l houtputs).2.1 ⟨q, hq, hspot⟩

/-- The end of a job after jobs that it is safe from is the end of the job
alone. -/
theorem finish_of_changed (h : Changed t jobs u) (hsafe : ∀ a ∈ jobs, SafeFrom t a j) :
    (j.finish (j.plan (t.read j.path)) u).result = (j.run t).result ∧
      (j.finish (j.plan (t.read j.path)) u).raised = (j.run t).raised ∧
      (j.plan (t.read j.path)).change? u = j.change? t :=
  finish_congr h.ofOneRun fun _ _ hwrite => h.target_eq hsafe (outputPath_of_plan hwrite)

/-- One more job that is safe from the jobs before it. -/
theorem Changed.finish (h : Changed t jobs u) (hsafe : ∀ a ∈ jobs, SafeFrom t a j) :
    Changed t (j :: jobs) (j.finish (j.plan (t.read j.path)) u).tree := by
  obtain ⟨-, -, hchange⟩ := finish_of_changed h hsafe
  refine ⟨ofOneRun_finish h.ofOneRun j _, fun l => ?_⟩
  rw [tree_finish, hchange]
  by_cases hwritten : ∃ content, j.change? t = some (l, content)
  · obtain ⟨content, hj⟩ := hwritten
    refine .inl ⟨j, List.mem_cons_self, content, hj, ?_⟩
    rw [hj]
    exact Tree.get?_put_self u _ (ne_nil_of_change? hj)
  -- elsewhere the job leaves what the jobs before it have left
  · rw [not_exists] at hwritten
    have hsame : (match j.change? t with
        | some (m, content) => u.put m (.file content)
        | none => u).get? l = u.get? l := by
      rcases hj : j.change? t with _ | ⟨m, content⟩
      · rfl
      · refine Tree.get?_put_of_ne u _ ?_
        rintro rfl
        exact hwritten content hj
    rw [hsame]
    rcases h.get? l with ⟨a, ha, content, hcontent, hget⟩ | ⟨hnone, hget⟩
    · exact .inl ⟨a, List.mem_cons_of_mem j ha, content, hcontent, hget⟩
    · exact .inr ⟨List.forall_mem_cons.mpr ⟨hwritten, hnone⟩, hget⟩

/-- After separate jobs, the output of each is what it is after that job
alone. -/
theorem Changed.get?_of_outputs (h : Changed t jobs u) (hjobs : jobs.Pairwise (Separate t))
    (hj : j ∈ jobs) (hl : j.Outputs t l) : u.get? l = (j.run t).tree.get? l := by
  rcases h.get? l with ⟨a, ha, content, hchange, hget⟩ | ⟨hnone, hget⟩
  -- no other job writes there
  · have heq : a = j := by
      refine Classical.byContradiction fun hne => ?_
      have hsafe := (hjobs.forall ha hj hne).1
      exact (hsafe.clear l (outputs_of_change? hchange).1).2.1 hl
    subst heq
    rw [hget, get?_run_of_change? hchange]
  · rw [hget, get?_run_of_not_change? (hnone j hj)]

end Job

/-! ### Jobs one after the other -/

namespace Batch

open Job

variable {t : Tree}

/-- Jobs one after the other, separate from each other and from the jobs before
them: each has the result that it has alone. -/
theorem foldl_after_of_separate {before jobs : List Job} {b : Batch}
    (h : Changed t before b.tree) (hsafe : ∀ a ∈ before, ∀ j ∈ jobs, SafeFrom t a j)
    (hjobs : jobs.Pairwise (Separate t)) :
    Changed t (jobs.reverse ++ before) (jobs.foldl after b).tree ∧
      (jobs.foldl after b).summary = b.summary ++ jobs.map (fun j => (j.run t).result) ∧
      ((jobs.foldl after b).raised = none ↔
        b.raised = none ∧ ∀ j ∈ jobs, (j.run t).raised = none) := by
  -- the first job joins those before it
  induction jobs generalizing before b with
  | nil => exact ⟨h, by simp, by simp⟩
  | cons j jobs ih =>
      obtain ⟨hj, hjobs⟩ := List.pairwise_cons.mp hjobs
      have hsafej : ∀ a ∈ before, SafeFrom t a j := fun a ha => hsafe a ha j List.mem_cons_self
      have hread : b.tree.read j.path = t.read j.path := h.read_eq hsafej
      obtain ⟨hresult, hraised, -⟩ := finish_of_changed h hsafej
      have hafter : Changed t (j :: before) (b.after j).tree := by
        rw [Batch.after, run, hread]
        exact h.finish hsafej
      have hsafe' : ∀ a ∈ j :: before, ∀ j' ∈ jobs, SafeFrom t a j' := by
        rw [List.forall_mem_cons]
        exact ⟨fun j' hj' => (hj j' hj').1,
          fun a ha j' hj' => hsafe a ha j' (List.mem_cons_of_mem j hj')⟩
      obtain ⟨htree, hsummary, hnone⟩ := ih hafter hsafe' hjobs
      refine ⟨?_, ?_, ?_⟩
      · rw [List.foldl_cons, List.reverse_cons, List.append_assoc]
        exact htree
      · rw [List.foldl_cons, hsummary, List.map_cons, Batch.after, run, hread, hresult]
        simp
      · rw [List.foldl_cons, hnone, List.forall_mem_cons, Batch.after, run, hread, hraised]
        simp [and_assoc]

/-- The jobs of a pool that are separate, taken in their order. -/
theorem pool_of_separate {jobs : List Job} (h : jobs.Pairwise (Separate t)) :
    Changed t jobs (pool t jobs).tree ∧
      (pool t jobs).summary = jobs.map (fun j => (j.run t).result) ∧
      ((pool t jobs).raised = none ↔ ∀ j ∈ jobs, (j.run t).raised = none) := by
  obtain ⟨htree, hsummary, hraised⟩ := foldl_after_of_separate (b := start t) (changed_nil t)
    (List.forall_mem_nil _) h
  refine ⟨htree.congr (by simp), hsummary, ?_⟩
  rw [pool, hraised]
  exact and_iff_right rfl

/-! ### Jobs that end with the first fault -/

theorem foldl_next_of_raised {b : Batch} (h : b.raised.isSome = true) (jobs : List Job) :
    jobs.foldl next b = b := by
  induction jobs with
  | nil => rfl
  | cons j jobs ih => rw [List.foldl_cons, next, if_pos h, ih]

/-- A sequence does some of its jobs, and all of them where no fault is raised. -/
theorem exists_foldl_next_eq (jobs : List Job) (b : Batch) :
    ∃ done rest, jobs = done ++ rest ∧ jobs.foldl next b = done.foldl after b ∧
      ((jobs.foldl next b).raised = none → rest = []) := by
  induction jobs generalizing b with
  | nil => exact ⟨[], [], rfl, rfl, fun _ => rfl⟩
  | cons j jobs ih =>
      by_cases hb : b.raised.isSome = true
      · refine ⟨[], j :: jobs, rfl, foldl_next_of_raised hb _, fun hnone => ?_⟩
        rw [foldl_next_of_raised hb] at hnone
        rw [hnone] at hb
        cases hb
      · obtain ⟨done, rest, rfl, heq, hnone⟩ := ih (b.after j)
        rw [List.foldl_cons, next, if_neg hb]
        exact ⟨j :: done, rest, rfl, heq, hnone⟩

/-- The jobs of a sequence that are separate: those that are done have the
results that they have alone. -/
theorem sequence_of_separate {jobs : List Job} (h : jobs.Pairwise (Separate t)) :
    ∃ done rest, jobs = done ++ rest ∧ done.Pairwise (Separate t) ∧
      Changed t done (sequence t jobs).tree ∧
      (sequence t jobs).summary = done.map (fun j => (j.run t).result) ∧
      ((sequence t jobs).raised = none → rest = []) := by
  obtain ⟨done, rest, rfl, heq, hnone⟩ := exists_foldl_next_eq jobs (start t)
  have hdone := (List.pairwise_append.mp h).1
  obtain ⟨htree, hsummary, -⟩ := pool_of_separate hdone
  have hpool : sequence t (done ++ rest) = pool t done := heq
  rw [hpool]
  refine ⟨done, rest, rfl, hdone, htree, hsummary, fun hraised => hnone ?_⟩
  rw [heq]
  exact hraised

end Batch

end LogCalls
