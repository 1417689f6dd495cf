/-
LogCalls/Batch.lean

Several jobs in one tree.  The jobs of a pool are all run, whatever becomes of
each; those of a sequence end with the first that raises a fault.
-/
import LogCalls.Summary

namespace LogCalls

/-- What some jobs have led to. -/
structure Batch where
  summary : Summary
  /-- The first fault that a job did not contain. -/
  raised : Option Fault
  tree : Tree
  entries : List Entry

namespace Batch

/-- No job in a tree. -/
def start (t : Tree) : Batch := ⟨[], none, t, []⟩

/-- The batch after one more job. -/
def after (b : Batch) (j : Job) : Batch :=
  let o := j.run b.tree
  ⟨b.summary ++ [o.result], b.raised.or o.raised, o.tree, b.entries ++ o.entries⟩

/-- The batch after all jobs of a pool. -/
def pool (t : Tree) (jobs : List Job) : Batch := jobs.foldl after (start t)

/-- The batch after one more job, unless a fault has ended it. -/
def next (b : Batch) (j : Job) : Batch := if b.raised.isSome then b else b.after j

/-- The batch after the jobs of a sequence. -/
def sequence (t : Tree) (jobs : List Job) : Batch := jobs.foldl next (start t)

/-! ### Small laws -/

theorem length_summary_after (b : Batch) (j : Job) :
    (b.after j).summary.length = b.summary.length + 1 := by simp [after]

theorem length_summary_foldl_after (b : Batch) (jobs : List Job) :
    (jobs.foldl after b).summary.length = b.summary.length + jobs.length := by
  induction jobs generalizing b with
  | nil => simp
  | cons j r ih =>
    simp [ih, length_summary_after]
    omega

theorem length_summary_pool (t : Tree) (jobs : List Job) :
    (pool t jobs).summary.length = jobs.length := by
  simp [pool, length_summary_foldl_after, start]

end Batch

end LogCalls
