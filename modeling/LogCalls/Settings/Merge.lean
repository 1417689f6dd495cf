/-
LogCalls/Settings/Merge.lean

Merging mappings from left to right.  A later value replaces an earlier one,
except that a mapping is merged into the mapping that it meets; an option that
was not given changes nothing.
-/
import LogCalls.Settings.Value

namespace LogCalls

namespace Mapping

/-- The entries of the mapping that a key has, none where it has another
value. -/
def inner (m : Mapping) (k : Key) : Mapping := ((get? m k).bind Value.entries?).getD []

mutual

/-- The mapping after one value has come for a key. -/
def adopt (m : Mapping) (k : Key) : Value → Mapping
  | .unset => m
  | .mapping entries => put m k (.mapping (adoptAll (inner m k) entries))
  | .null => put m k .null
  | .truth b => put m k (.truth b)
  | .whole n => put m k (.whole n)
  | .real x => put m k (.real x)
  | .text s => put m k (.text s)
  | .moment t => put m k (.moment t)
  | .bytes b => put m k (.bytes b)
  | .set keys => put m k (.set keys)
  | .list items => put m k (.list items)

/-- The mapping after the entries of another have come, in their order. -/
def adoptAll (m : Mapping) : List (Key × Value) → Mapping
  | [] => m
  | e :: r => adoptAll (adoptEntry m e) r

/-- The mapping after one entry of another has come. -/
def adoptEntry (m : Mapping) : Key × Value → Mapping
  | (k, v) => adopt m k v

end

/-- The merge of some mappings, in their order; a missing one counts as empty. -/
def merge (ms : List (Option Mapping)) : Mapping :=
  ms.foldl (fun m d => adoptAll m (d.getD [])) []

/-! ### Small laws -/

@[simp] theorem adoptAll_nil (m : Mapping) : adoptAll m [] = m := by rw [adoptAll]

@[simp] theorem adoptAll_cons (m : Mapping) (k : Key) (v : Value) (r : Mapping) :
    adoptAll m ((k, v) :: r) = adoptAll (adopt m k v) r := by rw [adoptAll, adoptEntry]

@[simp] theorem adopt_unset (m : Mapping) (k : Key) : adopt m k .unset = m := by rw [adopt]

theorem merge_append (ms ns : List (Option Mapping)) :
    merge (ms ++ ns) = ns.foldl (fun m d => adoptAll m (d.getD [])) (merge ms) := by
  simp [merge, List.foldl_append]

end Mapping

end LogCalls
