/-
LogCalls/Command/Words.lean

The words of a command line.  Options may stand anywhere before `--`; a long
option takes its value from behind `=` or from the next word, short options may
share a word, and the rest of that word is the value of the first that takes one.
-/
import LogCalls.Number
import LogCalls.Text.Lines

namespace LogCalls.Command

/-- The options of the commands. -/
inductive Switch where
  | config
  | inPlace
  | suffix
  | severity
  | workers
  | logFile
  | line
  | column
  deriving DecidableEq, Repr

/-- How an option is written, and whether it takes a value. -/
structure Switch.Form where
  switch : Switch
  short : Option Char
  long : String
  takesValue : Bool

/-- The words of a command line, told apart. -/
structure Words where
  /-- The options with their values, in their order. -/
  given : List (Switch × String)
  arguments : List String
  deriving Repr

namespace Words

/-- The words after one more option. -/
def give (w : Words) (s : Switch) (value : String) : Words :=
  { w with given := w.given ++ [(s, value)] }

/-- Reads a long option: the words after it, or the option that waits for its
value. -/
def long? (forms : List Switch.Form) (word : String) (w : Words) :
    Option (Words × Option Switch) :=
  let cut := Text.splitAtFirst? '=' word.toList
  let name := match cut with
    | some (name, _) => String.ofList name
    | none => word
  match forms.find? fun f => f.long == name, cut with
  | none, _ => none
  | some f, none => if f.takesValue then some (w, some f.switch) else some (w.give f.switch "", none)
  | some f, some (_, value) =>
    if f.takesValue then some (w.give f.switch (String.ofList value), none) else none

/-- Reads short options that share a word. -/
def short? (forms : List Switch.Form) (w : Words) : Text → Option (Words × Option Switch)
  | [] => some (w, none)
  | c :: r =>
    match forms.find? fun f => f.short == some c with
    | none => none
    | some f =>
      if !f.takesValue then short? forms (w.give f.switch "") r
      else if r = [] then some (w, some f.switch)
      else some (w.give f.switch (String.ofList r), none)

/-- Reads the words from here on; `waiting` is the option whose value comes
next. -/
def readFrom (forms : List Switch.Form) (w : Words) (waiting : Option Switch) :
    List String → Option Words
  | [] => if waiting.isSome then none else some w
  | word :: r =>
    match waiting with
    | some s => readFrom forms (w.give s word) none r
    | none =>
      if word = "--" then some { w with arguments := w.arguments ++ r }
      else
        match word.toList with
        -- a single hyphen is an argument
        | '-' :: c :: rest =>
          let read := if c = '-' then long? forms word w else short? forms w (c :: rest)
          match read with
          | none => none
          | some (w, waiting) => readFrom forms w waiting r
        | _ => readFrom forms { w with arguments := w.arguments ++ [word] } none r

/-- Reads the words of a command with the given options. -/
def read (forms : List Switch.Form) (words : List String) : Option Words :=
  readFrom forms ⟨[], []⟩ none words

/-- The values of an option, in their order. -/
def values (w : Words) (s : Switch) : List String :=
  w.given.filterMap fun g => if g.1 = s then some g.2 else none

/-- The last value of an option. -/
def value? (w : Words) (s : Switch) : Option String := (w.values s).getLast?

/-- Whether an option is given. -/
def has (w : Words) (s : Switch) : Bool := !(w.values s).isEmpty

end Words

/-- Whether a word is made of digits with single marks between them. -/
def isNumeral (t : Text) : Bool :=
  (Text.splitAll '_' t).all fun part => !part.isEmpty && part.all Text.isDigit

/-- An integer as it is written on a command line. -/
def whole? (s : String) : Option Int :=
  let (negative, digits) := Number.takeSign (Text.trimSpace s.toList)
  if !isNumeral digits then none
  else
    match Number.readDigits (digits.filter (· ≠ '_')) with
    | .ok n => some (if negative then -(n : Int) else n)
    | .error _ => none

/-- The value of an option that is an integer: none where it is not given. -/
def Words.whole (w : Words) (s : Switch) : Option (Option Int) :=
  match w.value? s with
  | none => some none
  | some v => (whole? v).map some

end LogCalls.Command
