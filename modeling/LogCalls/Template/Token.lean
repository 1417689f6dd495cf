/-
LogCalls/Template/Token.lean

The tokens of a template: pieces of plain text, the marks around expressions
and tags, and inside of them words, quoted texts, numerals and signs.  Comments
and raw sections are gone, and a hyphen at a mark has taken the blanks on its
side with it.  Line breaks are line feeds, and one at the end of the template
does not count.
-/
import LogCalls.Decimal.Binary64
import LogCalls.Fault
import LogCalls.Text.Identifier
import LogCalls.Text.Lines

namespace LogCalls.Template

/-- A token of a template. -/
inductive Token where
  /-- Text that shows as it is. -/
  | plain (t : Text)
  | openValue
  | closeValue
  | openTag
  | closeTag
  | word (s : Text)
  | quoted (t : Text)
  | whole (n : Nat)
  | real (x : Binary64)
  | sign (s : Text)
  /-- The place from which on the template cannot be read, and why. -/
  | broken (f : Fault)
  deriving DecidableEq, Repr

/-- A token and the line on which it starts. -/
structure Lexeme where
  token : Token
  line : Nat
  deriving DecidableEq, Repr

/-! ### Quoted texts -/

/-- A character outside of the basic alphabet by its number, as an escape. -/
def asciiForm (c : Char) : Text :=
  if c.toNat < 0x80 then [c] else Text.numberForm c

/-- The characters that an escape letter stands for. -/
def escapedLetter? : Char → Option Text
  | '\n' => some []
  | '\\' => some ['\\']
  | '\'' => some ['\'']
  | '"' => some ['"']
  | 'a' => some ['\x07']
  | 'b' => some ['\x08']
  | 'f' => some ['\x0c']
  | 'n' => some ['\n']
  | 'r' => some ['\r']
  | 't' => some ['\t']
  | 'v' => some ['\x0b']
  | _ => none

/-- Whether the character is an octal digit. -/
def isOctal (c : Char) : Bool := '0' ≤ c && c ≤ '7'

/-- The character of a number that an escape gives, if there is one. -/
def numbered (n : Nat) : Except Fault Char :=
  if 0x110000 ≤ n then .error .malformedTemplate else .ok (Text.Surrogate.charOf n)

/-- Reads the escapes of a text of the basic alphabet; an escape that is not
known stands for itself. -/
def unescape : Nat → Text → Except Fault Text
  | 0, _ => .ok []
  | _, [] => .ok []
  | fuel + 1, '\\' :: c :: r =>
    match escapedLetter? c with
    | some t => (unescape fuel r).map (t ++ ·)
    | none =>
      if isOctal c then do
        let digits := c :: (r.take 2).takeWhile isOctal
        let d ← numbered (Text.valueInBase 8 digits)
        return d :: (← unescape fuel (r.drop (digits.length - 1)))
      else
        match hexLength? c with
        | none => if c = 'N' then .error .malformedTemplate
          else (unescape fuel r).map fun t => '\\' :: c :: t
        | some count =>
          let digits := r.take count
          if digits.length = count ∧ digits.all Text.isHexDigit then do
            let d ← numbered (Text.valueInBase 16 digits)
            return d :: (← unescape fuel (r.drop count))
          else .error .malformedTemplate
  | fuel + 1, c :: r => (unescape fuel r).map (c :: ·)
where
  /-- How many digits follow an escape letter. -/
  hexLength? : Char → Option Nat
    | 'x' => some 2
    | 'u' => some 4
    | 'U' => some 8
    | _ => none

/-- The content of a quoted text up to its closing `mark`, escapes unread, and
what follows. -/
def quotedBody? (mark : Char) : Text → Option (Text × Text)
  | [] => none
  | '\\' :: c :: r => (quotedBody? mark r).map fun p => ('\\' :: c :: p.1, p.2)
  | c :: r =>
    if c = mark then some ([], r)
    else if c = '\\' then none
    else (quotedBody? mark r).map fun p => (c :: p.1, p.2)

/-- The token of a quoted text. -/
def quotedToken (body : Text) : Token :=
  let ascii := body.flatMap asciiForm
  match unescape ascii.length ascii with
  | .ok t => .quoted t
  | .error f => .broken f

/-! ### Numerals -/

/-- Digits with single low lines between them, and what follows. -/
def digitGroups (isMember : Char → Bool) : Nat → Text → Text × Text
  | 0, t => ([], t)
  | fuel + 1, t =>
    let digits := t.takeWhile isMember
    match digits, t.dropWhile isMember with
    | [], rest => ([], rest)
    | d, '_' :: c :: r =>
      if isMember c then
        let more := digitGroups isMember fuel (c :: r)
        (d ++ more.1, more.2)
      else (d, '_' :: c :: r)
    | d, rest => (d, rest)

/-- Decimal digits in groups. -/
def decimalGroups (t : Text) : Text × Text := digitGroups Text.isDigit t.length t

/-- An exponent: its sign, its digits, and what follows. -/
def exponentPart? : Text → Option (Bool × Text × Text)
  | c :: r =>
    if c = 'e' ∨ c = 'E' then
      let signed : Bool × Text := match r with
        | '-' :: r' => (true, r')
        | '+' :: r' => (false, r')
        | r' => (false, r')
      let digits := decimalGroups signed.2
      if digits.1 = [] then none else some (signed.1, digits.1, digits.2)
    else none
  | [] => none

/-- A numeral with a point or an exponent: digits before and after the point,
the exponent, and what follows. -/
def realPart? (t : Text) : Option (Text × Text × Bool × Text × Text) :=
  let before := decimalGroups t
  if before.1 = [] then none
  else
    let after : Text × Text := match before.2 with
      | '.' :: r => decimalGroups r
      | _ => ([], before.2)
    let rest := if after.1 = [] then before.2 else after.2
    match exponentPart? rest with
    | some (negative, digits, rest') => some (before.1, after.1, negative, digits, rest')
    | none => if after.1 = [] then none else some (before.1, after.1, false, [], rest)

/-- The token of a real numeral.  Only the digits of the basic alphabet make one. -/
def realToken (before after : Text) (negative : Bool) (exponent : Text) : Token :=
  match List.find? (fun c => 0x80 ≤ c.toNat) (before ++ after) with
  | some c =>
    .broken (.mistaken .numeral ("invalid character '" ++ String.singleton c ++ "' (U+" ++
      String.ofList ((Text.hexPadded 4 c.toNat).map Char.toUpper) ++ ") (<unknown>, line 1)"))
  | none =>
    if exponent.any fun c => 0x80 ≤ c.toNat then
      .broken (.mistaken .numeral "invalid decimal literal (<unknown>, line 1)")
    else
      let e : Int := Text.digitsValue exponent
      .real (Binary64.ofDecimal false (Text.digitsValue (before ++ after))
        ((if negative then -e else e) - after.length))

/-- The value of digits of any script in a base up to sixteen. -/
def valueOfDigits (base : Nat) (digits : Text) : Nat :=
  digits.foldl (fun v c => base * v + ((Text.hexValue? c).orElse fun _ => Text.digitValue? c).getD 0) 0

/-- Digits in another base than ten, each group after a low line or none. -/
def basedDigits (isMember : Char → Bool) : Text → Text × Text
  | '_' :: r => digitGroups isMember r.length r
  | t => digitGroups isMember t.length t

/-- The token of an integral numeral, and what follows. -/
def wholeToken? (t : Text) : Option (Token × Text) :=
  let based (base : Nat) (isMember : Char → Bool) (r : Text) : Option (Token × Text) :=
    let digits := basedDigits isMember r
    if digits.1 = [] then none else some (.whole (valueOfDigits base digits.1), digits.2)
  let marked : Option (Token × Text) := match t with
    | '0' :: x :: r =>
      if x = 'b' ∨ x = 'B' then based 2 (fun c => c == '0' || c == '1') r
      else if x = 'o' ∨ x = 'O' then based 8 isOctal r
      else if x = 'x' ∨ x = 'X' then based 16 (fun c => Text.isHexDigit c || Text.isDigit c) r
      else none
    | _ => none
  match marked with
  | some found => some found
  | none =>
    match t with
    | '0' :: _ =>
      let zeros := digitGroups (· == '0') t.length t
      some (.whole 0, zeros.2)
    | c :: _ =>
      if '1' ≤ c ∧ c ≤ '9' then
        let digits := decimalGroups t
        if Fault.digitLimit < digits.1.length then
          some (.broken (.tooManyDigits digits.1.length), digits.2)
        else some (.whole (Text.digitsValue digits.1), digits.2)
      else none
    | [] => none

/-! ### Signs and words -/

/-- The signs of two characters. -/
def doubleSigns : List Text := ["//", "**", "==", "!=", ">=", "<="].map String.toList

/-- The signs of one character. -/
def isSign (c : Char) : Bool := "+-/*%~[]()\x7b\x7d><=.:|,;".toList.contains c

/-- The sign that a text starts with, and what follows. -/
def sign? (t : Text) : Option (Text × Text) :=
  if doubleSigns.contains (t.take 2) then some (t.take 2, t.drop 2)
  else
    match t with
    | c :: r => if isSign c then some ([c], r) else none
    | [] => none

/-- Whether the character goes on with a word. -/
def isWordPart (c : Char) : Bool := Text.isWord c || Text.isNameMark c

/-- The token that a text starts with, which is not blank, and what follows.
After a point a numeral has no fraction of its own. -/
def token? (afterPoint : Bool) (t : Text) : Option (Token × Text) :=
  match if afterPoint then none else realPart? t with
  | some (before, after, negative, exponent, rest) =>
    some (realToken before after negative exponent, rest)
  | none =>
    match wholeToken? t with
    | some found => some found
    | none =>
      let word := t.takeWhile isWordPart
      if word ≠ [] then
        some (if Text.isName word then .word word else .broken .malformedTemplate,
          t.dropWhile isWordPart)
      else
        match t with
        | c :: r =>
          if c = '\'' ∨ c = '"' then
            (quotedBody? c r).map fun p => (quotedToken p.1, p.2)
          else (sign? t).map fun p => (.sign p.1, p.2)
        | [] => none

/-! ### Marks -/

/-- The mark that ends the part of the template that a token opens, and what
follows it; a hyphen takes the blanks behind the mark with it. -/
def closing? (close : Char) (t : Text) : Option Text :=
  match t with
  | '-' :: c :: '}' :: r => if c = close then some (Text.trimStart r) else none
  | '+' :: '%' :: '}' :: r => if close = '%' then some r else none
  | c :: '}' :: r => if c = close then some r else none
  | _ => none

/-- The brackets that stay open behind a sign; none where it closes the wrong one. -/
def balance? (openBrackets : List Char) : Text → Option (List Char)
  | ['{'] => some ('}' :: openBrackets)
  | ['('] => some (')' :: openBrackets)
  | ['['] => some (']' :: openBrackets)
  | [c] =>
    if c = '}' ∨ c = ')' ∨ c = ']' then
      match openBrackets with
      | d :: r => if c = d then some r else none
      | [] => none
    else some openBrackets
  | _ => some openBrackets

/-- The number of line feeds in a text. -/
def breaks (t : Text) : Nat := t.count '\n'

/-- The tokens up to the closing mark, what follows it, and its line.  Inside
brackets the closing mark is a sign like any other.  A template that ends
before the mark just ends. -/
def inside (close : Char) : Nat → Nat → List Char → Bool → Text → List Lexeme × Text × Nat
  | 0, line, _, _, t => ([], t, line)
  | _, line, _, _, [] => ([], [], line)
  | fuel + 1, line, openBrackets, afterPoint, c :: r =>
    let t := c :: r
    match if openBrackets = [] then closing? close t else none with
    | some rest =>
      let used := t.take (t.length - rest.length)
      ([⟨if close = '}' then .closeValue else .closeTag, line⟩], rest, line + breaks used)
    | none =>
      if Text.isBlank c then inside close fuel (line + breaks [c]) openBrackets false r
      else
        match token? afterPoint t with
        | none => ([⟨.broken .malformedTemplate, line⟩], [], line)
        | some (token, rest) =>
          let used := t.take (t.length - rest.length)
          let go (now : List Char) : List Lexeme × Text × Nat :=
            let more := inside close fuel (line + breaks used) now (token == .sign ['.']) rest
            (⟨token, line⟩ :: more.1, more.2)
          match token with
          | .broken _ => ([⟨token, line⟩], [], line)
          | .sign s =>
            match balance? openBrackets s with
            | some now => go now
            | none => ([⟨.broken .malformedTemplate, line⟩], [], line)
          | _ => go openBrackets

/-! ### Templates -/

/-- What an opening mark opens. -/
inductive Opening where
  | value
  | tag
  | comment
  | raw
  deriving DecidableEq, Repr

/-- The sign after an opening mark that keeps or trims the blanks before it. -/
def signed : Text → Option Char × Text
  | '-' :: r => (some '-', r)
  | '+' :: r => (some '+', r)
  | t => (none, t)

/-- What follows a word between blanks. -/
def afterWord? (word : Text) (t : Text) : Option Text :=
  let t' := Text.trimStart t
  if t'.take word.length = word then some (Text.trimStart (t'.drop word.length)) else none

/-- What follows the rest of a tag that opens a raw section. -/
def rawStart? (t : Text) : Option Text := do
  match ← afterWord? "raw".toList t with
  | '-' :: '%' :: '}' :: r => some (Text.trimStart r)
  | '%' :: '}' :: r => some r
  | _ => none

/-- What an opening mark opens, whether blanks before it are trimmed, and what
follows. -/
def opening? : Text → Option (Opening × Bool × Text)
  | '{' :: c :: r =>
    let s := signed r
    let trims := s.1 == some '-'
    if c = '{' then some (.value, trims, s.2)
    else if c = '#' then some (.comment, trims, s.2)
    else if c = '%' then
      match rawStart? s.2 with
      | some rest => some (.raw, trims, rest)
      | none => some (.tag, trims, s.2)
    else none
  | _ => none

/-- The text before the first opening mark, and the mark with what follows. -/
def untilOpening : Text → Text × Option (Opening × Bool × Text)
  | [] => ([], none)
  | c :: r =>
    match opening? (c :: r) with
    | some found => ([], some found)
    | none =>
      let more := untilOpening r
      (c :: more.1, more.2)

/-- What follows a comment. -/
def afterComment? : Text → Option Text
  | [] => none
  | c :: r =>
    match c, r with
    | '+', '#' :: '}' :: r' => some r'
    | '-', '#' :: '}' :: r' => some (Text.trimStart r')
    | '#', '}' :: r' => some r'
    | _, r => afterComment? r

/-- The content of a raw section, whether its end trims the blanks before it,
and what follows. -/
def rawBody? : Text → Option (Text × Bool × Text)
  | [] => none
  | c :: r =>
    let ended : Option (Bool × Text) := match c, r with
      | '{', '%' :: r' => do
        let s := signed r'
        let rest ← afterWord? "endraw".toList s.2
        let rest' ← closing? '%' rest
        return (s.1 == some '-', rest')
      | _, _ => none
    match ended with
    | some (trims, rest) => some ([], trims, rest)
    | none => (rawBody? r).map fun p => (c :: p.1, p.2)

/-- A piece of plain text, unless it is empty. -/
def plain (trims : Bool) (line : Nat) (t : Text) : List Lexeme :=
  match if trims then Text.trimEnd t else t with
  | [] => []
  | shown => [⟨.plain shown, line⟩]

/-- The tokens of a template from a line on. -/
def lexemes : Nat → Nat → Text → List Lexeme
  | 0, _, _ => []
  | _, _, [] => []
  | fuel + 1, line, t =>
    match untilOpening t with
    | (before, none) => plain false line before
    | (before, some (what, trims, rest)) =>
      let line' := line + breaks (t.take (t.length - rest.length))
      let start := line + breaks before
      let broken : List Lexeme := if rest = [] then [] else [⟨.broken .malformedTemplate, line'⟩]
      plain trims line before ++
        match what with
        | .comment =>
          match afterComment? rest with
          | some rest' =>
            lexemes fuel (line' + breaks (rest.take (rest.length - rest'.length))) rest'
          | none => broken
        | .raw =>
          match rawBody? rest with
          | some (body, trimsEnd, rest') =>
            plain trimsEnd line' body ++
              lexemes fuel (line' + breaks (rest.take (rest.length - rest'.length))) rest'
          | none => broken
        | .value =>
          let part := inside '}' (rest.length + 1) line' [] false rest
          ⟨.openValue, start⟩ :: part.1 ++ lexemes fuel part.2.2 part.2.1
        | .tag =>
          let part := inside '%' (rest.length + 1) line' [] false rest
          ⟨.openTag, start⟩ :: part.1 ++ lexemes fuel part.2.2 part.2.1

/-- The text without the line feed at its end, if it ends with one. -/
def dropFinalBreak (t : Text) : Text := if t.getLast? = some '\n' then t.dropLast else t

/-- The tokens of a written template. -/
def tokens (t : Text) : List Lexeme :=
  let source := dropFinalBreak (Text.unifyBreaks t)
  lexemes (source.length + 1) 1 source

/-! ### Small laws -/

@[simp] theorem dropFinalBreak_append_break (t : Text) : dropFinalBreak (t ++ ['\n']) = t := by
  simp [dropFinalBreak]

theorem untilOpening_fst_append {t u : Text} (h : untilOpening t = (u, none)) : u = t := by
  induction t generalizing u with
  | nil => simp_all [untilOpening]
  | cons c r ih =>
    rw [untilOpening] at h
    split at h
    · simp at h
    · cases hr : untilOpening r with
      | mk a b =>
        rw [hr] at h
        simp only [Prod.mk.injEq] at h
        obtain ⟨rfl, rfl⟩ := h
        rw [ih hr]

end LogCalls.Template
