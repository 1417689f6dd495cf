/-
LogCalls/Mention.lean

Mentions of a print method of one of the two standard streams: the words
`System`, the stream and the method, joined by points, with no word character
right before or after.  Whether a mention is a call is decided later, by what
follows it.
-/
import LogCalls.Text.Lines
import LogCalls.Text.Word

namespace LogCalls

/-- The stream that a call prints to. -/
inductive Stream where
  | out
  | err
  deriving DecidableEq, Repr

namespace Stream

/-- The name of a stream. -/
def name : Stream → String
  | .out => "out"
  | .err => "err"

/-- The stream of a name. -/
def ofName? : String → Option Stream
  | "out" => some .out
  | "err" => some .err
  | _ => none

theorem ofName?_name (s : Stream) : ofName? s.name = some s := by cases s <;> rfl

end Stream

/-- A print method named in a text. -/
structure Mention where
  /-- The offset of its first character. -/
  start : Int
  /-- The matched text. -/
  matched : Text
  stream : Stream
  /-- The name of the method. -/
  method : Text
  deriving DecidableEq, Repr

namespace Mention

/-- The offset one past the mention. -/
def stop (m : Mention) : Int := m.start + m.matched.length

/-- The methods that print, longer names first. -/
def methods : List Text := ["println".toList, "print".toList]

/-- The text that names a method of a stream. -/
def wording (stream : Stream) (method : Text) : Text :=
  "System.".toList ++ stream.name.toList ++ '.' :: method

/-- All that can be mentioned. -/
def choices : List (Stream × Text) :=
  [Stream.out, Stream.err].flatMap fun s => methods.map fun m => (s, m)

/-- Whether the wording starts the text and no word character follows it. -/
def startsWith (wording t : Text) : Bool :=
  wording.isPrefixOf t && !(t.drop wording.length).head?.any Text.isWord

/-- What is mentioned at the start of a text, given the character before it. -/
def here? (before : Option Char) (t : Text) : Option (Stream × Text) :=
  if before.any Text.isWord then none
  else choices.find? fun c => startsWith (wording c.1 c.2) t

/-- The mentions in a text that starts at `position`, from left to right. -/
def allFrom (position : Nat) (before : Option Char) : Text → List Mention
  | [] => []
  | c :: r =>
    let rest := allFrom (position + 1) (some c) r
    match here? before (c :: r) with
    | some (stream, method) => ⟨position, wording stream method, stream, method⟩ :: rest
    | none => rest

/-- The mentions in a text, from left to right. -/
def all (t : Text) : List Mention := allFrom 0 none t

/-- The mention seen from a text with `n` characters more in front. -/
def shift (n : Nat) (m : Mention) : Mention := { m with start := m.start + n }

/-- The first mention on the line with the given offset. -/
def onLine? (t : Text) (offset : Int) : Option Mention :=
  let start := Text.lineStart t offset
  (all (Text.lineFrom t start)).head?.map (shift start)

/-! ### Small laws -/

/-- A mention behind a text stops behind the text and its own. -/
theorem stop_eq_length {m : Mention} {x : Text} (h : m.start = x.length) :
    m.stop = (x ++ m.matched).length := by
  rw [stop, h, List.length_append, Int.natCast_add]

end Mention

end LogCalls
