/-
LogCalls/Atom.lean

The atoms of a concatenation: string literals, numerals, and expressions of
any other kind, a variable, a call or a bracketed sum for instance.
-/
import LogCalls.Number

namespace LogCalls

namespace Atom

/-- What an atom is. -/
inductive Kind where
  | literal
  | numeral
  | expression
  deriving DecidableEq, Repr

/-- The name of a kind. -/
def Kind.name : Kind → String
  | .literal => "string"
  | .numeral => "numeric"
  | .expression => "variable"

/-- The kind of a name. -/
def Kind.ofName? : String → Option Kind
  | "string" => some .literal
  | "numeric" => some .numeral
  | "variable" => some .expression
  | _ => none

/-- What an atom holds. -/
inductive Content where
  | number (n : Number)
  | text (t : Text)
  deriving DecidableEq, Repr

end Atom

/-- One operand of a concatenation: a literal holds its text without quotes, a
numeral its number, an expression its source text. -/
structure Atom where
  kind : Atom.Kind
  content : Atom.Content
  deriving DecidableEq, Repr

namespace Atom

/-- A string literal. -/
def literal (t : Text) : Atom := ⟨.literal, .text t⟩

/-- A numeral. -/
def numeral (n : Number) : Atom := ⟨.numeral, .number n⟩

/-- Any other expression. -/
def expression (t : Text) : Atom := ⟨.expression, .text t⟩

/-- Whether the atom is a string literal. -/
def isLiteral (a : Atom) : Bool := a.kind == .literal

/-- Whether the atom is a numeral. -/
def isNumeral (a : Atom) : Bool := a.kind == .numeral

/-- Whether the value of the atom stands in the source. -/
def isConstant (a : Atom) : Bool := a.isLiteral || a.isNumeral

/-- The two marks that open a string literal. -/
def isQuote (c : Char) : Bool := c == '"' || c == '\''

/-- The text without its first and last character. -/
def unquoted (t : Text) : Text := (t.drop 1).dropLast

/-- Classifies a token by its first character that is not blank: a quote opens
a literal, a decimal digit a numeral, anything else an expression. -/
def ofToken (t : Text) : Except Fault Atom :=
  match Text.trimStart t with
  | c :: _ =>
    if isQuote c then .ok (literal (unquoted t))
    else if Text.isDigit c then (Number.read t).map numeral
    else .ok (expression (Text.trim t))
  | [] => .ok (expression (Text.trim t))

/-- The source text of an atom, a literal without its quotes.  Reals of
numerals are written as source text, those of other atoms plainly. -/
def render (a : Atom) : Except Fault Text :=
  match a.content with
  | .text t => .ok t
  | .number n => n.write (if a.isNumeral then Decimal.sourceLayout else Decimal.plainLayout)

/-! ### Small laws -/

@[simp] theorem render_literal (t : Text) : (literal t).render = .ok t := rfl

@[simp] theorem render_expression (t : Text) : (expression t).render = .ok t := rfl

@[simp] theorem render_numeral_whole (n : Int) :
    (numeral (.whole n)).render = Number.writeWhole n := rfl

@[simp] theorem isLiteral_literal (t : Text) : (literal t).isLiteral = true := rfl

@[simp] theorem isLiteral_numeral (n : Number) : (numeral n).isLiteral = false := rfl

@[simp] theorem isLiteral_expression (t : Text) : (expression t).isLiteral = false := rfl

theorem Kind.ofName?_name (k : Kind) : Kind.ofName? k.name = some k := by
  cases k <;> rfl

end Atom

end LogCalls
