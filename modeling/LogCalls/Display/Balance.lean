/-
LogCalls/Display/Balance.lean

Whether the tags of a text close each other.  A closing tag with a name closes
the last open tag of that name, one without a name closes the last open tag,
and what is left open at the end does no harm.
-/
import LogCalls.Display.Markup
import LogCalls.Text.Lines
import LogCalls.Text.Small

namespace LogCalls.Markup

/-- A tag without its brackets, and the number of characters before it. -/
structure Tag where
  body : Text
  place : Nat
  deriving DecidableEq, Repr

/-- What follows the next closing bracket. -/
def afterBracket (t : Text) : Text := (t.dropWhile (· ≠ ']')).drop 1

/-- The tags of a text that stands behind `place` characters, the last
`backslashes` of which are backslashes; `fuel` bounds their number. -/
def tagsFrom : (fuel : Nat) → (place backslashes : Nat) → Text → List Tag
  | 0, _, _, _ => []
  | _, _, _, [] => []
  | fuel + 1, place, backslashes, c :: r =>
    if c = '\\' then tagsFrom fuel (place + 1) (backslashes + 1) r
    else if c = '[' ∧ isTagBody r = true then
      let body := r.takeWhile (· ≠ ']')
      let further := tagsFrom fuel (place + body.length + 2) 0 (afterBracket r)
      if backslashes % 2 = 0 then ⟨body, place⟩ :: further else further
    else tagsFrom fuel (place + 1) 0 r

/-- The tags of a text. -/
def tags (t : Text) : List Tag := tagsFrom (t.length + 1) 0 0 t

/-- The name of a style for one of its short names. -/
def fullName (word : Text) : Text :=
  let full (s : String) : Text := s.toList
  match String.ofList word with
  | "b" => full "bold"
  | "c" => full "conceal"
  | "d" => full "dim"
  | "i" => full "italic"
  | "o" => full "overline"
  | "r" => full "reverse"
  | "s" => full "strike"
  | "u" => full "underline"
  | "uu" => full "underline2"
  | _ => word

/-- The name by which a style is told: its words in small letters and in full. -/
def styleName (t : Text) : Text :=
  Text.joinWith [' '] ((Text.splitAll ' ' (Text.small (Text.trim t))).map fullName)

/-- What stands before the mark of a tag's parameters. -/
def Tag.name (t : Tag) : Text := t.body.takeWhile (· ≠ '=')

/-- The stack without the first of a name, if it has one. -/
def removeFirst? (name : Text) : List Text → Option (List Text)
  | [] => none
  | n :: r => if n = name then some r else (removeFirst? name r).map (n :: ·)

/-- What is wrong with the first tag that closes nothing, given the names of the
open tags, the last one first. -/
def flawFrom (stack : List Text) : List Tag → Option String
  | [] => none
  | t :: r =>
    match t.name with
    | '/' :: rest =>
      let name := Text.trim rest
      if name = [] then
        match stack with
        | [] => some ("closing tag '[/]' at position " ++ toString t.place ++ " has nothing to close")
        | _ :: stack => flawFrom stack r
      else
        match removeFirst? (styleName name) stack with
        | some stack => flawFrom stack r
        | none =>
          some ("closing tag '[" ++ String.ofList t.body ++ "]' at position " ++
            toString t.place ++ " doesn't match any open tag")
    | name => flawFrom (styleName name :: stack) r

/-- What is wrong with the tags of a text. -/
def flaw? (t : Text) : Option String := flawFrom [] (tags t)

/-! ### Small laws -/

@[simp] theorem flaw?_nil : flaw? [] = none := rfl

theorem removeFirst?_cons_self (name : Text) (stack : List Text) :
    removeFirst? name (name :: stack) = some stack := by simp [removeFirst?]

end LogCalls.Markup
