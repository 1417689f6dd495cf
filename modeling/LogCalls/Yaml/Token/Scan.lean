/-
LogCalls/Yaml/Token/Scan.lean

The tokens of a text.  A key needs no mark of its own: it is known as one only
when its colon comes, so every token that could start a key is remembered with
its place, one for each level of brackets, and the colon puts the start of the
key (and of a block, if the key opens one) in front of that token.  A key and
its colon stand on one line, at most `keyReach` characters apart.
-/
import LogCalls.Yaml.Block
import LogCalls.Yaml.Plain
import LogCalls.Yaml.Quoted
import LogCalls.Yaml.Token.Basic

namespace LogCalls.Yaml

/-- The greatest distance between the start of a key and its colon. -/
def keyReach : Nat := 1024

/-- A place in a text. -/
structure Place where
  index : Nat
  line : Nat
  column : Nat
  deriving DecidableEq, Repr

/-- The place after one character; a byte order mark takes no room. -/
def Place.after (p : Place) (c : Char) : Place :=
  if isBreak c then ⟨p.index + 1, p.line + 1, 0⟩
  else if c = '\uFEFF' then ⟨p.index + 1, p.line, p.column⟩
  else ⟨p.index + 1, p.line, p.column + 1⟩

/-- A token that may turn out to start a key. -/
structure Candidate where
  /-- The number of tokens before it. -/
  count : Nat
  place : Place
  /-- Whether the indentation leaves no other reading. -/
  required : Bool
  deriving DecidableEq, Repr

/-- A scan in progress. -/
structure Scan where
  /-- What is left of the text. -/
  rest : Text
  place : Place
  /-- The tokens so far, the last one first. -/
  tokens : List Token
  /-- The columns of the open blocks, the innermost first. -/
  blocks : List Nat
  /-- The candidate at the current level of brackets. -/
  candidate : Option Candidate
  /-- The candidates at the levels around it. -/
  outer : List (Option Candidate)
  /-- Whether a key may start here. -/
  keyAllowed : Bool

namespace Scan

/-- The start of a text. -/
def start (t : Text) : Scan := ⟨t, ⟨0, 0, 0⟩, [], [], none, [], true⟩

/-- Whether the scan is inside brackets. -/
def bracketed (s : Scan) : Bool := !s.outer.isEmpty

/-- One more than the column of the innermost block, zero outside of all. -/
def margin (s : Scan) : Nat :=
  match s.blocks with
  | [] => 0
  | column :: _ => column + 1

/-- The scan after `n` characters. -/
def skip (n : Nat) (s : Scan) : Scan :=
  { s with rest := s.rest.drop n, place := (s.rest.take n).foldl Place.after s.place }

/-- The scan at `rest`, which is an end of what is left. -/
def moveTo (rest : Text) (s : Scan) : Scan := s.skip (s.rest.length - rest.length)

/-- The scan with one more token. -/
def push (t : Token) (s : Scan) : Scan := { s with tokens := t :: s.tokens }

/-- The scan with a token after the first `count`. -/
def insert (count : Nat) (t : Token) (s : Scan) : Scan :=
  let later := s.tokens.length - count
  { s with tokens := s.tokens.take later ++ t :: s.tokens.drop later }

/-- The scan at the next character that is neither a space nor part of a
comment nor a break; a break outside of brackets allows a key.  `comment` says
whether a comment is being skipped. -/
def toToken (bracketed : Bool) (place : Place) (keyAllowed comment : Bool) :
    Text → Text × Place × Bool
  | [] => ([], place, keyAllowed)
  | c :: r =>
    if isBreak c then toToken bracketed (place.after c) (keyAllowed || !bracketed) false r
    else if comment || c == ' ' then toToken bracketed (place.after c) keyAllowed comment r
    else if c == '#' then toToken bracketed (place.after c) keyAllowed true r
    else (c :: r, place, keyAllowed)

/-- Skips what is between two tokens. -/
def skipGap (s : Scan) : Scan :=
  let (rest, place, keyAllowed) := toToken s.bracketed s.place s.keyAllowed false s.rest
  { s with rest, place, keyAllowed }

/-! ### Candidates for keys -/

/-- Drops a candidate that its colon can no longer reach. -/
def stillOpen (place : Place) : Option Candidate → Option (Option Candidate)
  | none => some none
  | some k =>
    if k.place.line = place.line ∧ place.index - k.place.index ≤ keyReach then some (some k)
    else if k.required then none
    else some none

/-- Drops the candidates that their colons can no longer reach. -/
def dropStale (s : Scan) : Option Scan := do
  let candidate ← stillOpen s.place s.candidate
  let outer ← s.outer.mapM (stillOpen s.place)
  return { s with candidate, outer }

/-- Gives up the candidate at the current level. -/
def dropCandidate (s : Scan) : Option Scan :=
  if s.candidate.any (·.required) then none else some { s with candidate := none }

/-- Remembers that the next token may start a key. -/
def saveCandidate (s : Scan) : Option Scan :=
  if s.keyAllowed then do
    let s ← s.dropCandidate
    let required := !s.bracketed && s.margin == s.place.column + 1
    return { s with candidate := some ⟨s.tokens.length, s.place, required⟩ }
  else some s

/-! ### Blocks -/

/-- Closes the blocks that stand right of a limit; `limit` is one more than a
column. -/
def closeBlocks (limit : Nat) : List Nat → List Token → List Nat × List Token
  | [], tokens => ([], tokens)
  | column :: blocks, tokens =>
    if limit ≤ column then closeBlocks limit blocks (.blockEnd :: tokens)
    else (column :: blocks, tokens)

/-- Closes the blocks right of a limit, outside of brackets. -/
def unwind (limit : Nat) (s : Scan) : Scan :=
  if s.bracketed then s
  else
    let (blocks, tokens) := closeBlocks limit s.blocks s.tokens
    { s with blocks, tokens }

/-- Opens a block at a column right of the innermost one, with its start after
the first `count` tokens. -/
def openBlock (column count : Nat) (t : Token) (s : Scan) : Scan :=
  if s.margin ≤ column then insert count t { s with blocks := column :: s.blocks } else s

/-! ### Tokens -/

/-- A token of `n` characters that ends what a key could start. -/
def mark (n : Nat) (keyAllowed : Bool) (t : Token) (s : Scan) : Option Scan := do
  let s ← s.dropCandidate
  return { (s.skip n).push t with keyAllowed }

/-- A token at `rest` that may start a key. -/
def leaf (t : Token) (rest : Text) (s : Scan) : Option Scan := do
  let s ← s.saveCandidate
  return { (s.moveTo rest).push t with keyAllowed := false }

/-- An opening bracket. -/
def opening (t : Token) (s : Scan) : Option Scan := do
  let s ← s.saveCandidate
  let s := (s.skip 1).push t
  return { s with candidate := none, outer := s.candidate :: s.outer, keyAllowed := true }

/-- A closing bracket. -/
def closing (t : Token) (s : Scan) : Option Scan := do
  let s ← s.dropCandidate
  match s.outer with
  | [] => none
  | candidate :: outer => return { (s.skip 1).push t with candidate, outer, keyAllowed := false }

/-- A mark that opens a block outside of brackets, where a key could start. -/
def blockMark (start t : Token) (s : Scan) : Option Scan := do
  guard (s.bracketed ∨ s.keyAllowed)
  let s := if s.bracketed then s else s.openBlock s.place.column s.tokens.length start
  s.mark 1 (!s.bracketed || t == .dash) t

/-- A colon: it ends the key that the candidate has started, if there is one. -/
def colon (s : Scan) : Option Scan :=
  match s.candidate with
  | none => s.blockMark .blockMappingStart .colon
  | some k =>
    let s := { s with candidate := none, keyAllowed := false }
    -- the block is opened after the key is marked, so that its start comes first
    let s := s.insert k.count .key
    let s := if s.bracketed then s else s.openBlock k.place.column k.count .blockMappingStart
    some ((s.skip 1).push .colon)

/-- A number in a version, and what follows it. -/
def versionPart (t : Text) : Except Flaw (Nat × Text) :=
  let digits := t.takeWhile isTenDigit
  if digits = [] then .error .malformed
  else if Fault.digitLimit < digits.length then .error (.broken (.longVersion digits.length))
  else .ok (Text.digitsValue digits, t.drop digits.length)

/-- What follows the version `1.x`; both numbers are read before the first is looked
at. -/
def version (t : Text) : Except Flaw Text := do
  let (major, r) ← versionPart (t.dropWhile (· = ' '))
  match past? '.' r with
  | none => throw .malformed
  | some r =>
    let (_, r) ← versionPart r
    if major = 1 ∧ endsWord r ∧ r.head? ≠ some '\t' then return r else throw .malformed

/-- What a handle of tags is said to stand for, and what follows it. -/
def tagHandle? (t : Text) : Option (Directive × Text) := do
  let (handle, r) ← WrittenTag.handle? (← past? '!' (t.dropWhile (· = ' ')))
  guard (r.head? = some ' ')
  let (start, rest) ← WrittenTag.name? (r.dropWhile (· = ' '))
  guard (endsWord rest ∧ rest.head? ≠ some '\t')
  return (.handle handle start, rest)

/-- The scan that a defect ends. -/
def stop (d : Defect) (s : Scan) : Scan :=
  { s.push (.broken d) with rest := [], candidate := none, outer := [] }

/-- What a line that starts with `%` says after its name, and what follows. -/
def directiveOf (name r : Text) : Except Flaw (Directive × Text) :=
  if name = "YAML".toList then (version r).map fun r => (.version, r)
  else if name = "TAG".toList then
    match tagHandle? r with
    | some read => .ok read
    | none => .error .malformed
  else .ok (.other, r.dropWhile fun c => !isBreak c)

/-- A line that starts with `%`. -/
def directive (s : Scan) : Option Scan := do
  let s ← (s.unwind 0).dropCandidate
  let name := (s.rest.drop 1).takeWhile isNameChar
  let r := s.rest.drop (1 + name.length)
  guard (name ≠ [] ∧ endsWord r ∧ r.head? ≠ some '\t')
  match directiveOf name r with
  | .ok (d, r) =>
    let rest ← Block.skipLine r
    return { (s.moveTo rest).push (.directive d) with keyAllowed := false }
  | .error .malformed => none
  | .error (.broken d) => return s.stop d

/-- A mark between documents. -/
def separator (t : Token) (s : Scan) : Option Scan := (s.unwind 0).mark 3 false t

/-- The name after `&` or `*`. -/
def named (token : Text → Token) (r : Text) (s : Scan) : Option Scan := do
  let name := r.takeWhile isNameChar
  let rest := r.drop name.length
  guard (name ≠ [])
  guard (endsWord rest || rest.head?.any fun c => "?:,]\x7d%@`".toList.contains c)
  s.leaf (token name) rest

/-- A tag. -/
def tagging (r : Text) (s : Scan) : Option Scan := do
  let (t, rest) ← WrittenTag.read? r
  guard (endsWord rest ∧ rest.head? ≠ some '\t')
  s.leaf (.tagging t) rest

/-- A quoted scalar. -/
def quoted (double : Bool) (r : Text) (s : Scan) : Option Scan :=
  match Quoted.read double r with
  | .ok (content, rest) => s.leaf (.scalar false content) rest
  | .error .malformed => none
  | .error (.broken d) => some (s.stop d)

/-- A block scalar. -/
def block (folded : Bool) (r : Text) (s : Scan) : Option Scan := do
  let s ← s.dropCandidate
  let (content, rest) ← Block.read folded s.margin r
  return { (s.moveTo rest).push (.scalar false content) with keyAllowed := true }

/-- A plain scalar. -/
def plain (s : Scan) : Option Scan :=
  let (content, rest) := Plain.read s.bracketed s.margin s.rest
  s.leaf (.scalar true content) rest

/-- One token that starts with `c`, before `r`. -/
def token (c : Char) (r : Text) (s : Scan) : Option Scan :=
  -- inside of brackets the marks of keys and values need no blank behind them
  let first := s.place.column == 0
  let alone := s.bracketed || endsWord r
  if c == '%' && first then s.directive
  else if first && startsWithMark '-' s.rest then s.separator .documentStart
  else if first && startsWithMark '.' s.rest then s.separator .documentEnd
  else if c == '[' then s.opening .listOpen
  else if c == '\x7b' then s.opening .mappingOpen
  else if c == ']' then s.closing .listClose
  else if c == '\x7d' then s.closing .mappingClose
  else if c == ',' then s.mark 1 true .comma
  else if c == '-' && endsWord r then s.blockMark .blockListStart .dash
  else if c == '?' && alone then s.blockMark .blockMappingStart .key
  else if c == ':' && alone then s.colon
  else if c == '*' then s.named .alias r
  else if c == '&' then s.named .anchor r
  else if c == '!' then s.tagging r
  else if c == '|' && !s.bracketed then s.block false r
  else if c == '>' && !s.bracketed then s.block true r
  else if c == '\'' then s.quoted false r
  else if c == '"' then s.quoted true r
  else if Plain.canStart s.bracketed c r then s.plain
  else none

/-- The tokens from here on; `fuel` bounds their number. -/
def run : Nat → Scan → Option (List Token)
  | 0, _ => none
  | fuel + 1, s => do
    let s ← s.skipGap.dropStale
    let s := s.unwind (s.place.column + 1)
    match s.rest with
    | [] => return (← (s.unwind 0).dropCandidate).tokens.reverse
    | c :: r => run fuel (← s.token c r)

end Scan

/-- The tokens of a text. -/
def tokens? (t : Text) : Option (List Token) := (Scan.start t).run (t.length + 1)

end LogCalls.Yaml
