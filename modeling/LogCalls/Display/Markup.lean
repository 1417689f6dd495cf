/-
LogCalls/Display/Markup.lean

Text with tags such as `[bold]`, which style what is shown and do not show
themselves.  A backslash in front of a tag makes it text; `escape` puts one in
front of every tag of a text.
-/
import LogCalls.Text.Blank

namespace LogCalls.Markup

/-- Whether a tag can start with the character. -/
def isTagStart (c : Char) : Bool :=
  ('a' ≤ c && c ≤ 'z') || c == '#' || c == '/' || c == '@'

/-- Whether what follows an opening bracket makes it a tag: it closes before
another bracket opens. -/
def isTagBody : Text → Bool
  | [] => false
  | c :: r => isTagStart c && (r.find? fun d => d == '[' || d == ']') == some ']'

/-- Escapes what follows some backslashes. -/
def escapeFrom (backslashes : Nat) : Text → Text
  | [] => List.replicate (if backslashes = 1 then 2 else backslashes) '\\'
  | c :: r =>
    if c = '\\' then escapeFrom (backslashes + 1) r
    else
      let before := if c = '[' ∧ isTagBody r = true then 2 * backslashes + 1 else backslashes
      List.replicate before '\\' ++ c :: escapeFrom 0 r

/-- The text with a backslash in front of every tag, and a last single
backslash doubled. -/
def escape (t : Text) : Text := escapeFrom 0 t

/-- What shows of the text after some backslashes; `inTag` says that a tag is
being left out. -/
def shownFrom (inTag : Bool) (backslashes : Nat) : Text → Text
  | [] => List.replicate backslashes '\\'
  | c :: r =>
    if inTag then shownFrom (c ≠ ']') 0 r
    else if c = '\\' then shownFrom false (backslashes + 1) r
    else if c ≠ '[' then List.replicate backslashes '\\' ++ c :: shownFrom false 0 r
    else if isTagBody r then
      if backslashes % 2 = 0 then
        List.replicate (backslashes / 2) '\\' ++ shownFrom true 0 r
      else List.replicate (backslashes / 2) '\\' ++ c :: shownFrom false 0 r
    else List.replicate (backslashes - 1) '\\' ++ c :: shownFrom false 0 r

/-- Whether the character moves the cursor and is left out. -/
def isCursorControl (c : Char) : Bool :=
  c == '\x07' || c == '\x08' || c == '\x0b' || c == '\x0c' || c == '\r'

/-- What shows of a text with tags. -/
def shown (t : Text) : Text :=
  (if t.contains '[' then shownFrom false 0 t else t).filter fun c => !isCursorControl c

/-- The text between two tags of a style. -/
def styled (style : String) (t : Text) : Text :=
  ('[' :: style.toList) ++ [']'] ++ t ++ ['[', '/'] ++ style.toList ++ [']']

/-! ### Small laws -/

@[simp] theorem escape_nil : escape [] = [] := rfl

@[simp] theorem shown_nil : shown [] = [] := rfl

end LogCalls.Markup
