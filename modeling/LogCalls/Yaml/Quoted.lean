/-
LogCalls/Yaml/Quoted.lean

Quoted scalars.  Between single quotes a quote is written twice and all else
stands for itself; between double quotes a backslash starts an escape.  Both
kinds may go over several lines.
-/
import LogCalls.Text.Digit
import LogCalls.Yaml.Gap
import LogCalls.Yaml.Token.Basic

namespace LogCalls.Yaml.Quoted

/-- What the reading of a quoted scalar is in the middle of. -/
inductive State where
  /-- Words and the gaps between them. -/
  | words (gap : Gap)
  /-- A quote in a single-quoted scalar, which ends it unless another follows. -/
  | quote
  /-- An escape after its backslash. -/
  | escape
  /-- A character by its code, of which some digits are left. -/
  | code (left value : Nat)
  deriving DecidableEq, Repr

/-- The character that a one-letter escape stands for. -/
def escape? (c : Char) : Option Char :=
  match c with
  | '0' => some '\x00'
  | 'a' => some '\x07'
  | 'b' => some '\x08'
  | 't' => some '\t'
  | '\t' => some '\t'
  | 'n' => some '\n'
  | 'v' => some '\x0b'
  | 'f' => some '\x0c'
  | 'r' => some '\r'
  | 'e' => some '\x1b'
  | ' ' => some ' '
  | '"' => some '"'
  | '\\' => some '\\'
  | '/' => some '/'
  | 'N' => some '\x85'
  | '_' => some '\xa0'
  | 'L' => some '\u2028'
  | 'P' => some '\u2029'
  | _ => none

/-- The number of digits of an escape by code. -/
def codeLength? (c : Char) : Option Nat :=
  match c with
  | 'x' => some 2
  | 'u' => some 4
  | 'U' => some 8
  | _ => none

/-- A reading: the content and what follows it. -/
abbrev Result := Except Flaw (Text × Text)

/-- The character with a code, which may be that of a surrogate: two surrogates in a
row do not make one character. -/
def character (n : Nat) : Except Flaw Char :=
  if n < 0x110000 then .ok (Text.Surrogate.charOf n)
  else .error (.broken (if n < 0x80000000 then .noCharacter else .codeTooLarge))

/-- Puts a text in front of what is read. -/
def after (t : Text) : Result → Result
  | .ok (content, rest) => .ok (t ++ content, rest)
  | .error f => .error f

/-- Reads on in a state up to the closing quote; `fuel` bounds the number of
characters. -/
def readFrom (double : Bool) : (fuel : Nat) → State → Text → Result
  | 0, _, _ => .error .malformed
  | _ + 1, state, [] => if state = .quote then .ok ([], []) else .error .malformed
  | fuel + 1, state, c :: r =>
    match state with
    | .quote =>
      if c = '\'' then after ['\''] (readFrom double fuel (.words Gap.none) r)
      else .ok ([], c :: r)
    | .escape =>
      if isBreak c then
        if startsWithSeparator r then .error .malformed
        else readFrom double fuel (.words (.lines none [] 0)) r
      else
        match escape? c, codeLength? c with
        | some e, _ => after [e] (readFrom double fuel (.words Gap.none) r)
        | none, some left => readFrom double fuel (.code left 0) r
        | none, none => .error .malformed
    | .code left value =>
      match Text.hexValue? c with
      | none => .error .malformed
      | some digit =>
        let value := 16 * value + digit
        if 1 < left then readFrom double fuel (.code (left - 1) value) r
        else
          match character value with
          | .ok e => after [e] (readFrom double fuel (.words Gap.none) r)
          | .error f => .error f
    | .words gap =>
      if c = ' ' || c = '\t' then readFrom double fuel (.words (gap.blank c)) r
      else if isBreak c then
        if startsWithSeparator r then .error .malformed
        else readFrom double fuel (.words (gap.newLine c)) r
      else if double then
        if c = '"' then .ok (gap.text, r)
        else if c = '\\' then after gap.text (readFrom double fuel .escape r)
        else after (gap.text ++ [c]) (readFrom double fuel (.words Gap.none) r)
      else if c = '\'' then after gap.text (readFrom double fuel .quote r)
      else after (gap.text ++ [c]) (readFrom double fuel (.words Gap.none) r)

/-- The content of a quoted scalar whose opening quote has been read, and what
follows its closing quote. -/
def read (double : Bool) (t : Text) : Result :=
  readFrom double (t.length + 1) (.words Gap.none) t

end LogCalls.Yaml.Quoted
