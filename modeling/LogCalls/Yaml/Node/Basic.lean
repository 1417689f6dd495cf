/-
LogCalls/Yaml/Node/Basic.lean

The tree that a document describes, before its scalars are read, and the
merging of mappings into mappings: the entries that come in stand first, so
that those of the mapping itself replace them.
-/
import LogCalls.Yaml.Tag

namespace LogCalls.Yaml

/-- A node of a document with its sort. -/
inductive Node where
  | scalar (tag : Tag) (content : Text)
  | list (tag : Tag) (items : List Node)
  | mapping (tag : Tag) (entries : List (Node × Node))
  /-- A list or a mapping around this place, once more. -/
  | around (ofMapping : Bool)
  deriving Repr

namespace Node

/-- The node of an absent value. -/
def empty : Node := .scalar .null []

/-- Whether the node is the key that merges mappings in. -/
def isMergeKey : Node → Bool
  | .scalar .merge _ => true
  | _ => false

/-- The entries of a mapping. -/
def entries? : Node → Option (List (Node × Node))
  | .mapping _ entries => some entries
  | .around true => some []
  | _ => none

/-- The entries that a value brings in when it is merged: those of a mapping, or
those of some mappings, the first of which counts most. -/
def incoming? : Node → Option (List (Node × Node))
  | .mapping _ entries => some entries
  | .list _ items => (items.mapM entries?).map fun parts => parts.reverse.flatten
  -- what a mapping would bring into itself it has already
  | .around ofMapping => if ofMapping then some [] else none
  | .scalar .. => none

/-- The entries with those that are merged in first; where a value cannot be
merged, its entry alone. -/
def withIncoming (entries : List (Node × Node)) : List (Node × Node) :=
  let (merging, own) := entries.partition fun e => e.1.isMergeKey
  match merging.find? fun e => e.2.incoming?.isNone with
  | some e => [e]
  | none => (merging.filterMap fun e => e.2.incoming?).flatten ++ own

mutual

/-- The node with all its mappings merged. -/
def merged : Node → Node
  | .scalar tag content => .scalar tag content
  | .list tag items => .list tag (mergedItems items)
  | .mapping tag entries => .mapping tag (withIncoming (mergedEntries entries))
  | .around ofMapping => .around ofMapping

/-- The items with all their mappings merged. -/
def mergedItems : List Node → List Node
  | [] => []
  | n :: r => merged n :: mergedItems r

/-- The entries with all their mappings merged. -/
def mergedEntries : List (Node × Node) → List (Node × Node)
  | [] => []
  | e :: r => mergedEntry e :: mergedEntries r

/-- An entry with all its mappings merged. -/
def mergedEntry : Node × Node → Node × Node
  | (k, v) => (merged k, merged v)

end

end Node

end LogCalls.Yaml
