/-
LogCalls/Message.lean

A concatenation as the arguments of a logger call: literals are joined into
the message, and every other atom leaves a placeholder there and follows as an
argument of its own.
-/
import LogCalls.Atom

namespace LogCalls.Message

/-- What stands in a message for an argument. -/
def placeholder : Text := ['{', '}']

/-- What an atom leaves in the message. -/
def part (a : Atom) : Except Fault Text :=
  if a.isLiteral then a.render else .ok placeholder

/-- The message of a concatenation. -/
def text (atoms : List Atom) : Except Fault Text :=
  return (← atoms.mapM part).flatten

/-- The arguments that follow the message. -/
def arguments (atoms : List Atom) : Except Fault (List Text) :=
  (atoms.filter fun a => !a.isLiteral).mapM Atom.render

/-- What separates the arguments of a call. -/
def separator : Text := [',', ' ']

/-- The quoted message and the arguments, as they stand between the
parentheses of the logger call. -/
def replacement (atoms : List Atom) : Except Fault Text := do
  let message ← text atoms
  let rest ← arguments atoms
  return Text.joinWith separator (('"' :: message ++ ['"']) :: rest)

/-! ### Small laws -/

@[simp] theorem text_nil : text [] = .ok [] := rfl

@[simp] theorem arguments_nil : arguments [] = .ok [] := rfl

theorem part_of_not_literal {a : Atom} (h : a.isLiteral = false) : part a = .ok placeholder := by
  simp [part, h]

end LogCalls.Message
