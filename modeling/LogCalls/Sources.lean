/-
LogCalls/Sources.lean

The Java sources below a directory: everything whose name ends in `.java`,
except below directories that hold what a build has made.
-/
import LogCalls.Tree

namespace LogCalls

namespace Sources

/-- The names of directories that are left out. -/
def skipped : List String := ["build", "target", "out", ".git", ".gradle"]

/-- Whether a name is that of a source. -/
def isSource (name : String) : Bool := ".java".toList.isSuffixOf name.toList

/-- Whether what is below a directory counts as a source of it. -/
def counts (names : Tree.Location) : Bool :=
  names.getLast?.any isSource && !names.any skipped.contains

/-- The names that lead from a directory to its sources. -/
def relative (t : Tree) (root : Tree.Location) : List Tree.Location :=
  (t.entries.filterMap fun e => Tree.below? root e.1).filter counts

/-- Whether one list of names comes before another or is the same: by the first
names that differ, or as its beginning. -/
def earlier : Tree.Location → Tree.Location → Bool
  | [], _ => true
  | _ :: _, [] => false
  | a :: r, b :: s => if a = b then earlier r s else decide (a < b)

/-- The sources below a path, in the order of their parts. -/
def below (t : Tree) (root : Path) : List Path :=
  match t.spot root with
  | .ok l =>
    if t.get? l = some .directory then
      ((relative t l).mergeSort earlier).map fun names =>
        { root with parts := root.parts ++ names }
    else []
  | .error _ => []

end Sources

end LogCalls
