/-
LogCalls/Pattern/Reader.lean

The written form of patterns.  Alternatives are separated by bars, repetition
follows what it repeats, brackets list characters, and parentheses group,
remember, look around, ask for groups or change the ways of reading.  What does
not have this form is malformed.
-/
import LogCalls.Numeral
import LogCalls.Pattern.Escape
import LogCalls.Pattern.Search
import LogCalls.Text.Identifier

namespace LogCalls.Pattern

/-! ### Items -/

/-- What repetition does to an item. -/
inductive Repeatable where
  | yes
  /-- A place, which cannot be repeated. -/
  | place
  /-- A repetition, which cannot be repeated again. -/
  | repetition
  deriving DecidableEq, Repr

/-- A piece of a pattern that repetition applies to as a whole. -/
structure Item where
  pattern : Pattern
  repeatable : Repeatable := .yes

/-- Items in a row, the last of them first. -/
def rowOf (items : List Item) : Pattern :=
  items.foldl (fun p i => match p with
    | .empty => i.pattern
    | p => .seq i.pattern p) .empty

/-- One more than the greatest number of repetitions. -/
def repetitionLimit : Nat := 4294967295

/-- The greatest number of a group that a condition can ask for. -/
def groupLimit : Nat := 1073741822

/-- The greatest width that is read from behind. -/
def behindLimit : Nat := 4294967295

namespace Reading

/-! ### Repetition -/

/-- A number of repetitions. -/
def repetitionCount (digits : Text) : Reading Nat := do
  if Fault.digitLimit < digits.length then throw (.tooManyDigits digits.length)
  let n := Text.digitsValue digits
  if repetitionLimit ≤ n then throw .repetitionTooLarge
  return n

/-- Bounds behind an opening brace, as the least number and the number beyond
it; none where the brace stands for itself. -/
def bounds? : Reading (Option (Nat × Option Nat)) := do
  let before ← get
  if (← peek) = some (.plain '}') then return none
  let low ← passAll Char.isDigit
  let high ← if ← accept ',' then passAll Char.isDigit else pure low
  if ← accept '}' then
    let least ← if low = [] then pure 0 else repetitionCount low
    if high = [] then return some (least, none)
    let most ← repetitionCount high
    require (least ≤ most)
    return some (least, some (most - least))
  else
    set before
    return none

/-- The items, with the last of them repeated. -/
def repeatLast (items : List Item) (least : Nat) (more : Option Nat) : Reading (List Item) := do
  match items with
  | [] => refuse
  | item :: before =>
    require (item.repeatable = .yes)
    modify fun s => { s with repeats := true }
    let repetition (p : Pattern) : List Item := ⟨p, .repetition⟩ :: before
    if ← accept '?' then return repetition (.repeated item.pattern least more true)
    if ← accept '+' then
      return repetition (.committed (.repeated (.committed item.pattern) least more false))
    return repetition (.repeated item.pattern least more false)

/-! ### Flags -/

/-- Whether a letter is one that patterns ask by. -/
def isFlag (c : Char) : Bool := "iLmsxatu".toList.contains c

/-- Whether a letter asks for an alphabet. -/
def isAlphabetFlag (c : Char) : Bool := c == 'a' || c == 'u' || c == 'L'

/-- The letters from one on that are asked by, in front of those given, and the
mark behind them. -/
def lettersOn : (fuel : Nat) → Char → Text → Reading (Text × Char)
  | 0, _, _ => refuse
  | fuel + 1, c, before => do
    require (c ≠ 'L')
    require !(isAlphabetFlag c && before.any fun d => isAlphabetFlag d && d != c)
    match ← nextOne with
    | .plain d =>
      if d = ')' ∨ d = '-' ∨ d = ':' then return (c :: before, d)
      else
        require (isFlag d)
        lettersOn fuel d (c :: before)
    | _ => refuse

/-- The letters from one on up to a colon whose ways of reading are given up. -/
def lettersOff : (fuel : Nat) → Char → Text → Reading Text
  | 0, _, _ => refuse
  | fuel + 1, c, before => do
    require (isFlag c && !isAlphabetFlag c)
    match ← nextOne with
    | .plain d => if d = ':' then return c :: before else lettersOff fuel d (c :: before)
    | _ => refuse

/-- The flags that a letter or a minus starts: those asked for and given up
inside of a group, or none where they are for the whole pattern. -/
def groupFlags? (c : Char) : Reading (Option (Flags × Flags)) := do
  let fuel := (← get).rest.length + 1
  let (on, mark) ← if c = '-' then pure ([], '-') else lettersOn fuel c []
  if mark = ')' then
    modify fun s => { s with flags := ⟨s.flags.letters ++ on⟩ }
    return none
  require !(on.contains 't')
  let off ←
    if mark = '-' then
      match ← nextOne with
      | .plain d => lettersOff fuel d []
      | _ => refuse
    else pure []
  require !(off.contains 't')
  require !(on.any off.contains)
  return some (⟨on⟩, ⟨off⟩)

/-- The flags inside of a group. -/
def flagsInside (f on off : Flags) : Flags :=
  let kept :=
    if on.letters.any isAlphabetFlag then f.letters.filter (!isAlphabetFlag ·) else f.letters
  ⟨(kept ++ on.letters).filter (!off.has ·)⟩

/-! ### Conditions -/

/-- The number of the group that a condition asks for by name or number. -/
def conditionGroup (name : Text) : Reading Nat := do
  let number ←
    if Text.isName name then groupNamed name
    else
      match Numeral.whole? 10 name with
      | some n =>
        require (0 < n && n ≤ groupLimit)
        modify fun s => { s with conditions := n.toNat :: s.conditions }
        pure n.toNat
      | none => refuse
  requireBefore number
  return number

/-! ### Sequences and groups -/

/-- A character that stands for itself. -/
def itself (f : Flags) (c : Char) : Item := ⟨f.set [.one c.toNat] false, .yes⟩

/-- The set of any character, or of any but line feeds. -/
def anyChar (f : Flags) : Pattern :=
  .char ⟨if f.has 's' then [] else [.one '\n'.toNat], true, false, .every⟩

/-- Whether a character does not count where patterns are spaced out. -/
def isSpacing (c : Char) : Bool :=
  c == ' ' || c == '\t' || c == '\n' || c == '\r' || c == '\x0b' || c == '\x0c'

/-- The items behind a mark that is no parenthesis. -/
def afterMark (f : Flags) (items : List Item) : Token → Reading (List Item)
  | .dangling => refuse
  | .escaped c => do
    match placeOf? f c with
    | some p => return ⟨p, .place⟩ :: items
    | none => return ⟨← escaped f c, .yes⟩ :: items
  | .plain c => do
    match c with
    | '[' => return ⟨← bracketSet f, .yes⟩ :: items
    | '.' => return ⟨anyChar f, .yes⟩ :: items
    | '^' => return ⟨.start (f.has 'm'), .place⟩ :: items
    | '$' => return ⟨.stop (f.has 'm'), .place⟩ :: items
    | '?' => repeatLast items 0 (some 1)
    | '*' => repeatLast items 0 none
    | '+' => repeatLast items 1 none
    | '{' =>
      match ← bounds? with
      | some (least, more) => repeatLast items least more
      | none => return itself f c :: items
    | _ => return itself f c :: items

/-- What a parenthesis leaves behind. -/
inductive Opened where
  | item (p : Pattern)
  | nothing
  /-- Flags for the whole pattern. -/
  | flags

mutual

/-- Alternatives up to a closing parenthesis or the end; `outermost` tells
whether they are those of the whole pattern. -/
def alternatives (f : Flags) (outermost : Bool) : (fuel : Nat) → (first : Bool) → Reading Pattern
  | 0, _ => refuse
  | fuel + 1, first => do
    let p := rowOf (← sequence f (outermost && first) fuel [])
    if ← accept '|' then
      let f ← if outermost then pure (← get).flags else pure f
      return .either p (← alternatives f outermost fuel false)
    else return p

/-- Items in a row behind those given, up to a bar, a closing parenthesis or
the end; `first` tells whether they start the whole pattern. -/
def sequence (f : Flags) (first : Bool) : (fuel : Nat) → List Item → Reading (List Item)
  | 0, _ => refuse
  | fuel + 1, items => do
    match ← peek with
    | none => return items
    | some (.plain '|') | some (.plain ')') => return items
    | some t =>
      let _ ← next
      if f.has 'x' && (match t with | .plain c => isSpacing c | _ => false) then
        sequence f first fuel items
      else if f.has 'x' && t = .plain '#' then
        match splitAt? '\n' (← get).rest with
        | some (_, r) => modify fun s => { s with rest := r }
        | none =>
          require ((← get).rest.getLast? ≠ some .dangling)
          modify fun s => { s with rest := [] }
        sequence f first fuel items
      else if t = .plain '(' then
        match ← parenthesis f fuel with
        | .item p => sequence f first fuel (⟨p, .yes⟩ :: items)
        | .nothing => sequence f first fuel items
        | .flags =>
          require (first && items.isEmpty)
          sequence (← get).flags first fuel items
      else
        sequence f first fuel (← afterMark f items t)

/-- What stands behind an opening parenthesis up to the closing one. -/
def parenthesis (f : Flags) : (fuel : Nat) → Reading Opened
  | 0 => refuse
  | fuel + 1 => do
    if !(← accept '?') then return .item (← capture f none fuel)
    match ← nextOne with
    | .plain 'P' =>
      if ← accept '<' then
        let name ← passUntil '>'
        require (Text.isName name)
        return .item (← capture f (some name) fuel)
      else
        expect '='
        let name ← passUntil ')'
        require (Text.isName name)
        return .item (← groupAgain f (← groupNamed name))
    | .plain ':' => return .item (← inside f fuel)
    | .plain '>' => return .item (.committed (← inside f fuel))
    | .plain '=' => return .item (.ahead (← inside f fuel) true)
    | .plain '!' => return .item (.ahead (← inside f fuel) false)
    | .plain '<' =>
      match ← nextOne with
      | .plain '=' => return .item (← lookBehind f true fuel)
      | .plain '!' => return .item (← lookBehind f false fuel)
      | _ => refuse
    | .plain '(' =>
      let number ← conditionGroup (← passUntil ')')
      let yes := rowOf (← sequence f false fuel [])
      let no ← if ← accept '|' then do pure (rowOf (← sequence f false fuel [])) else pure .empty
      expect ')'
      return .item (.given number yes no)
    | .plain '#' =>
      passComment ')'
      return .nothing
    | .plain c =>
      require (isFlag c || c == '-')
      match ← groupFlags? c with
      | none => return .flags
      | some (on, off) => return .item (← inside (flagsInside f on off) fuel)
    | _ => refuse

/-- Alternatives and the closing parenthesis. -/
def inside (f : Flags) : (fuel : Nat) → Reading Pattern
  | 0 => refuse
  | fuel + 1 => do
    let p ← alternatives f false fuel false
    expect ')'
    return p

/-- A group that is remembered. -/
def capture (f : Flags) (name? : Option Text) : (fuel : Nat) → Reading Pattern
  | 0 => refuse
  | fuel + 1 => do
    let number ← openGroup name?
    let p ← inside f fuel
    closeGroup number p
    return .group number p

/-- A pattern that is read from behind. -/
def lookBehind (f : Flags) (wanted : Bool) : (fuel : Nat) → Reading Pattern
  | 0 => refuse
  | fuel + 1 => do
    let outer := (← get).groupsBefore
    let count ← groupCount
    modify fun s => { s with groupsBefore := some (outer.getD count) }
    let p ← inside f fuel
    modify fun s => { s with groupsBefore := outer }
    match (← widthOf p).fixed? with
    | some width =>
      if behindLimit < width then modify fun s => { s with uneven := true }
      return .behind width p wanted
    | none =>
      modify fun s => { s with uneven := true }
      return .behind 0 p wanted

end

end Reading

/-- The pattern that a text writes. -/
def read (t : Text) : Except Fault Pattern := do
  let marks := tokens t
  let (p, s) ← (Reading.alternatives {} true (6 * marks.length + 8) true).run { rest := marks }
  if s.flags.has 'a' && s.flags.has 'u' then throw .clashingAlphabets
  if !s.rest.isEmpty then throw .malformedPattern
  if s.conditions.any (s.groups.size < ·) then throw .malformedPattern
  if s.uneven || (s.flags.has 't' && s.repeats) then throw .malformedPattern
  return p

end LogCalls.Pattern
