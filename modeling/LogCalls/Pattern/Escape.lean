/-
LogCalls/Pattern/Escape.lean

What stands behind a backslash and between brackets in a written pattern:
characters by letter or code, kinds of characters, places, groups read once
more, and sets of characters.
-/
import LogCalls.Pattern.Token

namespace LogCalls.Pattern

/-- The set of some parts, or of all others. -/
def Flags.set (f : Flags) (members : List Member) (negated : Bool) : Pattern :=
  .char ⟨members, negated, f.has 'i', f.alphabet⟩

/-- Whether the character is a digit of base eight. -/
def isOctal (c : Char) : Bool := '0' ≤ c && c ≤ '7'

/-- The kind of characters that a letter behind a backslash stands for. -/
def kindOf? : Char → Option Member
  | 'd' => some (.kind .digit true)
  | 'D' => some (.kind .digit false)
  | 'w' => some (.kind .word true)
  | 'W' => some (.kind .word false)
  | 's' => some (.kind .blank true)
  | 'S' => some (.kind .blank false)
  | _ => none

/-- The code of the character that a letter behind a backslash stands for. -/
def letterCode? : Char → Option Nat
  | 'a' => some 0x07
  | 't' => some 0x09
  | 'n' => some 0x0A
  | 'v' => some 0x0B
  | 'f' => some 0x0C
  | 'r' => some 0x0D
  | _ => none

namespace Reading

/-- A code of a fixed number of hexadecimal digits. -/
def hexCode (count : Nat) : Reading Nat := do
  let digits ← passUpTo Text.isHexDigit count
  require (digits.length = count)
  return Text.valueInBase 16 digits

/-- The code of the character behind a backslash that is neither a kind nor a
digit.  A letter without a meaning is refused. -/
def escapedCode (c : Char) : Reading Nat := do
  match letterCode? c with
  | some code => return code
  | none =>
    match c with
    | 'x' => hexCode 2
    | 'u' => hexCode 4
    | 'U' =>
      let code ← hexCode 8
      require (code < 0x110000)
      return code
    | _ =>
      require !c.isAlphanum
      return c.toNat

/-- A code of up to three digits of base eight, the first of which is given. -/
def octalCode (c : Char) : Reading Nat := do
  let more ← passUpTo isOctal 2
  let code := Text.valueInBase 8 (c :: more)
  require (code ≤ 0xFF)
  return code

/-! ### Sets in brackets -/

/-- The part of a set that stands behind a backslash. -/
def escapedMember (c : Char) : Reading Member := do
  match kindOf? c with
  | some m => return m
  | none =>
    if c = 'b' then return .one 0x08
    else if isOctal c then return .one (← octalCode c)
    else return .one (← escapedCode c)

/-- The part of a set that a mark starts. -/
def memberFrom : Token → Reading Member
  | .plain c => return .one c.toNat
  | .escaped c => escapedMember c
  | .dangling => refuse

/-- The parts of a set up to the closing bracket, behind those given in
reverse.  A bracket that stands first closes nothing. -/
def membersUpTo : (fuel : Nat) → List Member → Reading (List Member)
  | 0, _ => refuse
  | fuel + 1, before => do
    let t ← nextOne
    if t = .plain ']' ∧ before ≠ [] then return before.reverse
    else
      let low ← memberFrom t
      if ← accept '-' then
        let u ← nextOne
        if u = .plain ']' then return (.one '-'.toNat :: low :: before).reverse
        else
          match low, ← memberFrom u with
          | .one a, .one b =>
            require (a ≤ b)
            membersUpTo fuel (.range a b :: before)
          | _, _ => refuse
      else membersUpTo fuel (low :: before)

/-- A set behind its opening bracket. -/
def bracketSet (f : Flags) : Reading Pattern := do
  let negated ← accept '^'
  let members ← membersUpTo ((← get).rest.length + 1) []
  return f.set members.eraseDups negated

/-! ### Outside of brackets -/

/-- A group read once more. -/
def groupAgain (f : Flags) (number : Nat) : Reading Pattern := do
  require (← isClosed number)
  requireBefore number
  return .again number (f.has 'i') f.alphabet

/-- What digits behind a backslash stand for: three of base eight are a code,
and others the number of a group. -/
def escapedDigits (f : Flags) (c : Char) : Reading Pattern := do
  let one (code : Nat) : Pattern := f.set [.one code] false
  if c = '0' then
    let more ← passUpTo isOctal 2
    return one (Text.valueInBase 8 more)
  else
    let more ← passUpTo Char.isDigit 1
    let third ← if isOctal c && more ≠ [] && more.all isOctal then passUpTo isOctal 1 else pure []
    if third ≠ [] then
      let code := Text.valueInBase 8 (c :: more ++ third)
      require (code ≤ 0xFF)
      return one code
    else groupAgain f (Text.digitsValue (c :: more))

/-- What a letter behind a backslash stands for, if it is a place. -/
def placeOf? (f : Flags) : Char → Option Pattern
  | 'A' => some (.start false)
  | 'b' => some (.boundary true f.alphabet)
  | 'B' => some (.boundary false f.alphabet)
  | 'Z' => some .finish
  | _ => none

/-- What a character behind a backslash stands for, unless it is a place. -/
def escaped (f : Flags) (c : Char) : Reading Pattern := do
  match kindOf? c with
  | some m => return f.set [m] false
  | none =>
    if c.isDigit then escapedDigits f c
    else return f.set [.one (← escapedCode c)] false

end Reading

end LogCalls.Pattern
