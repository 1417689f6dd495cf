/-
LogCalls/Summary.lean

The summary of a run over files: what became of each, in the order of their
paths, and the totals.  It depends on the results alone and not on their order.
-/
import LogCalls.Display.Table
import LogCalls.Job

namespace LogCalls

namespace FileResult

/-- Whether something went wrong. -/
def isFailed (r : FileResult) : Bool := r.error ≠ ""

/-- What a summary shows as the result of a file. -/
def shown (r : FileResult) : Text :=
  if r.isFailed then Markup.styled "red" (Markup.escape r.error.toList)
  else
    match r.output with
    | some p => Markup.styled "green" (Markup.escape p.text.toList)
    | none => Markup.styled "dim" "unchanged".toList

/-- The row of a file. -/
def row (r : FileResult) : List Text :=
  [Markup.escape r.path.text.toList, Text.numeral r.converted, Text.numeral r.skipped, r.shown]

end FileResult

/-- The results of a run over files. -/
abbrev Summary := List FileResult

namespace Summary

/-- The results in the order of their paths. -/
def sorted (s : Summary) : Summary := s.mergeSort fun a b => a.path.text ≤ b.path.text

/-- The number of calls that were converted. -/
def converted (s : Summary) : Nat := s.foldr (fun r n => r.converted + n) 0

/-- The number of files that something went wrong with. -/
def failures (s : Summary) : Nat := s.countP FileResult.isFailed

/-- The table of the results. -/
def table (s : Summary) : Display.Table where
  title := "Conversion summary".toList
  columns := [⟨"File", false⟩, ⟨"Converted", true⟩, ⟨"Skipped", true⟩, ⟨"Result", false⟩]
  rows := s.sorted.map FileResult.row

/-- The line with the totals. -/
def totals (s : Summary) : Text :=
  (toString s.converted ++ " call(s) converted in " ++ toString s.length ++ " file(s), " ++
    toString s.failures ++ " failed").toList

/-- The summary as it is printed. -/
def draw (s : Summary) : Text := s.table.draw ++ Display.printed s.totals

/-- The exit code of a run: one if something went wrong with a file. -/
def exitCode (s : Summary) : Nat := if s.any FileResult.isFailed then 1 else 0

/-! ### Small laws -/

theorem exitCode_eq_one_iff (s : Summary) :
    s.exitCode = 1 ↔ ∃ r ∈ s, r.error ≠ "" := by
  simp [exitCode, FileResult.isFailed]

end Summary

end LogCalls
