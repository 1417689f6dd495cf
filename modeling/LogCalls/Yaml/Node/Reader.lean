/-
LogCalls/Yaml/Node/Reader.lean

The tree of a document from its tokens.  A reading takes tokens from the front
and remembers the nodes that were given names; a name is given once, and inside
of its own node it stands for a place further out.
-/
import LogCalls.Yaml.Node.Basic
import LogCalls.Yaml.Token.Basic

namespace LogCalls.Yaml.Node

/-- The tokens that are left, the nodes with names, the first of them last, and
what the handles of tags stand for. -/
structure Supply where
  tokens : List Token
  names : List (Text × Node)
  handles : List (Text × Text)

/-- A reading of tokens. -/
abbrev Reading (α : Type) := StateT Supply Option α

namespace Reading

/-- The next token, without taking it. -/
def peek : Reading (Option Token) := do return (← get).tokens.head?

/-- Takes one token. -/
def drop : Reading Unit := modify fun s => { s with tokens := s.tokens.drop 1 }

/-- Takes the next token if it is `t`. -/
def take? (t : Token) : Reading Bool := do
  if (← peek) = some t then
    drop
    return true
  else return false

/-- Takes the token `t`. -/
def expect (t : Token) : Reading Unit := do
  guard (← take? t)

/-- The anchor and the tag in front of a node, in either order, as they are
written. -/
def writtenProperties : Reading (Option Text × Option WrittenTag) := do
  match ← peek with
  | some (.anchor name) =>
    drop
    match ← peek with
    | some (.tagging t) =>
      drop
      return (some name, some t)
    | _ => return (some name, none)
  | some (.tagging t) =>
    drop
    match ← peek with
    | some (.anchor name) =>
      drop
      return (some name, some t)
    | _ => return (none, some t)
  | _ => return (none, none)

/-- The anchor and the tag in front of a node. -/
def properties : Reading (Option Text × Option Tagging) := do
  match ← writtenProperties with
  | (name, none) => return (name, none)
  | (name, some w) =>
    match w.resolve (← get).handles with
    | some t => return (name, some t)
    | none => failure

/-- Gives a new name to a node. -/
def bindName (name : Option Text) (n : Node) : Reading Node := do
  match name with
  | none => return n
  | some name =>
    guard (((← get).names.lookup name).isNone)
    modify fun s => { s with names := (name, n) :: s.names }
    return n

/-- Reads a collection under a name, which stands for `inside` until it is
complete. -/
def bindAround (name : Option Text) (inside : Node) (collection : Reading Node) :
    Reading Node := do
  let _ ← bindName name inside
  let n ← collection
  match name with
  | none => return n
  | some name =>
    modify fun s => { s with names := (name, n) :: s.names }
    return n

end Reading

/-- The sort of a scalar. -/
def scalarTag (plain : Bool) (content : Text) : Option Tagging → Tag
  | none => if plain then Tag.ofPlain content else .text
  | some .unspecific => Tag.ofUntagged content
  | some (.sort tag) => tag

/-- The sort of a collection. -/
def collectionTag (natural : Tag) : Option Tagging → Tag
  | some (.sort tag) => tag
  | _ => natural

open Reading

mutual

/-- A node.  Outside of brackets it may be a block, and after a key the dashes
of a list may stand in the column of the key. -/
def node (inBlock dashes : Bool) : Nat → Reading Node
  | 0 => failure
  | fuel + 1 => do
    match ← peek with
    | some (.alias name) =>
      drop
      match (← get).names.lookup name with
      | some n => return n
      | none => failure
    | _ =>
      let (name, tagging) ← properties
      let next ← peek
      if dashes && next == some .dash then
        bindAround name (.around false) do
          return .list (collectionTag .list tagging) (← dashItems fuel)
      else
        match next with
        | some (.scalar plain content) =>
          drop
          bindName name (.scalar (scalarTag plain content tagging) content)
        | some .listOpen =>
          drop
          bindAround name (.around false) do
            return .list (collectionTag .list tagging) (← bracketItems true fuel)
        | some .mappingOpen =>
          drop
          bindAround name (.around true) do
            return .mapping (collectionTag .mapping tagging) (← braceEntries true fuel)
        | some .blockListStart =>
          guard inBlock
          drop
          bindAround name (.around false) do
            return .list (collectionTag .list tagging) (← blockItems fuel)
        | some .blockMappingStart =>
          guard inBlock
          drop
          bindAround name (.around true) do
            return .mapping (collectionTag .mapping tagging) (← blockEntries fuel)
        | _ =>
          guard (name.isSome || tagging.isSome)
          bindName name (.scalar (scalarTag true [] tagging) [])

/-- The items of a list in a block, up to its end. -/
def blockItems : Nat → Reading (List Node)
  | 0 => failure
  | fuel + 1 => do
    if ← take? .dash then
      let next ← peek
      let item ← if next = some .dash || next = some .blockEnd then pure empty
        else node true false fuel
      return item :: (← blockItems fuel)
    else
      expect .blockEnd
      return []

/-- The items of a list in the column of its key. -/
def dashItems : Nat → Reading (List Node)
  | 0 => failure
  | fuel + 1 => do
    if ← take? .dash then
      let next ← peek
      let item ← if next = some .dash || next = some .key || next = some .colon ||
          next = some .blockEnd then pure empty
        else node true false fuel
      return item :: (← dashItems fuel)
    else return []

/-- What stands after the mark of a key or a value in a block. -/
def blockPart : Nat → Reading Node
  | 0 => failure
  | fuel + 1 => do
    let next ← peek
    if next = some .key || next = some .colon || next = some .blockEnd then return empty
    else node true true fuel

/-- The entries of a mapping in a block, up to its end. -/
def blockEntries : Nat → Reading (List (Node × Node))
  | 0 => failure
  | fuel + 1 => do
    if ← take? .key then
      let k ← blockPart fuel
      let v ← if ← take? .colon then blockPart fuel else pure empty
      return (k, v) :: (← blockEntries fuel)
    else
      expect .blockEnd
      return []

/-- The value of an entry between brackets that `close` closes, after its key. -/
def bracketValue (close : Token) : Nat → Reading Node
  | 0 => failure
  | fuel + 1 => do
    if ← take? .colon then
      let next ← peek
      if next = some .comma || next = some close then return empty
      else node false false fuel
    else return empty

/-- An entry between brackets that `close` closes, after the mark of its key. -/
def bracketEntry (close : Token) : Nat → Reading (Node × Node)
  | 0 => failure
  | fuel + 1 => do
    let next ← peek
    let k ← if next = some .colon || next = some .comma || next = some close then pure empty
      else node false false fuel
    return (k, ← bracketValue close fuel)

/-- The items of a list in brackets, up to the closing one. -/
def bracketItems (first : Bool) : Nat → Reading (List Node)
  | 0 => failure
  | fuel + 1 => do
    if ← take? .listClose then return []
    unless first do expect .comma
    -- a comma may stand before the closing bracket
    if ← take? .listClose then return []
    let item ← if ← take? .key then do
        let e ← bracketEntry .listClose fuel
        pure (.mapping .mapping [e])
      else node false false fuel
    return item :: (← bracketItems false fuel)

/-- The entries of a mapping in braces, up to the closing one. -/
def braceEntries (first : Bool) : Nat → Reading (List (Node × Node))
  | 0 => failure
  | fuel + 1 => do
    if ← take? .mappingClose then return []
    unless first do expect .comma
    if ← take? .mappingClose then return []
    let entry ← if ← take? .key then bracketEntry .mappingClose fuel
      else do
        let k ← node false false fuel
        pure (k, empty)
    return entry :: (← braceEntries false fuel)

end

/-- Takes directives; the version of the format may be given once, and so may
what each handle stands for. -/
def directives (seen : Bool) (handles : List (Text × Text)) :
    List Token → Option (List (Text × Text) × List Token)
  | .directive .version :: r => if seen then none else directives true handles r
  | .directive (.handle handle start) :: r =>
    if (handles.lookup handle).isSome then none
    else directives seen ((handle, start) :: handles) r
  | .directive .other :: r => directives seen handles r
  | tokens => some (handles, tokens)

/-- A single document; none in it is an absent value. -/
def ofTokens? (tokens : List Token) : Option Node := do
  let fuel := 4 * tokens.length + 4
  let (n, s) ← match tokens with
    | [] => some (empty, ⟨[], [], []⟩)
    | .directive _ :: _ | .documentStart :: _ => do
      match ← directives false [] tokens with
      | (handles, .documentStart :: r) =>
        match r with
        | [] | .directive _ :: _ | .documentStart :: _ | .documentEnd :: _ =>
          some (empty, ⟨r, [], handles⟩)
        | _ => (node true false fuel).run ⟨r, [], handles⟩
      | _ => none
    | _ => (node true false fuel).run ⟨tokens, [], []⟩
  guard (s.tokens.all (· == .documentEnd))
  return n

end LogCalls.Yaml.Node
