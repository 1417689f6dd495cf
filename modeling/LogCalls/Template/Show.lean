/-
LogCalls/Template/Show.lean

How values show: plainly, and in the form in which they are written out inside
of lists and messages.  A value inside of itself shows as dots, and what has no
written form shows by its kind.
-/
import LogCalls.Number
import LogCalls.Template.Compare

namespace LogCalls.Template

/-- Texts with a comma and a blank between each two. -/
def commaSeparated (ts : List Text) : Text := Text.joinWith ", ".toList ts

/-- The written form of bytes. -/
def quoteBytes (bs : List Nat) : Text :=
  let mark : Char := if bs.contains 0x27 && !bs.contains 0x22 then '"' else '\''
  let escape (b : Nat) : Text :=
    if b = mark.toNat ∨ b = 0x5C then ['\\', Char.ofNat b]
    else if b = 0x0A then ['\\', 'n']
    else if b = 0x0D then ['\\', 'r']
    else if b = 0x09 then ['\\', 't']
    else if 0x20 ≤ b ∧ b < 0x7F then [Char.ofNat b]
    else '\\' :: 'x' :: Text.hexPadded 2 b
  'b' :: mark :: bs.flatMap escape ++ [mark]

/-- The name of a kind as it shows. -/
def showKind (k : Kind) : Text := ("<class '" ++ k.fullName ++ "'>").toList

/-- How something without a written form shows. -/
def showThing (what : String) : Text := ("<" ++ what ++ " at 0x0>").toList

namespace Machine

/-- The written forms of some values. -/
def writtenAll (written : Value → Eval Text) : List Value → Eval (List Text)
  | [] => return []
  | v :: rest => do
    let t ← written v
    return t :: (← writtenAll written rest)

/-- The written forms of some entries. -/
def writtenEntries (written : Value → Eval Text) : List (Value × Value) → Eval (List Text)
  | [] => return []
  | (k, v) :: rest => do
    let t ← written k
    let u ← written v
    return (t ++ ": ".toList ++ u) :: (← writtenEntries written rest)

/-- The written form of a value, inside of the objects in `inside`. -/
def writtenIn (m : Machine) : Nat → List Nat → Value → Eval Text
  | 0, _, _ =>
    Eval.wrong .depth "maximum recursion depth exceeded while getting the repr of an object"
  | depth + 1, inside, v => do
    match v with
    | .none => return "None".toList
    | .truth b => return (if b then "True" else "False").toList
    | .whole n => Eval.ofExcept (Number.writeWhole n)
    | .real x => return Decimal.plainLayout.write x
    | .text t => return Text.quote t
    | .markup t => return "Markup(".toList ++ Text.quote t ++ [')']
    | .bytes bs => return quoteBytes bs
    | .row vs =>
      match ← writtenAll (m.writtenIn depth inside) vs with
      | [t] => return '(' :: t ++ ",)".toList
      | ts => return '(' :: commaSeparated ts ++ [')']
    | .span a b c =>
      let numerals := if c = 1 then [a, b] else [a, b, c]
      return "range(".toList ++ commaSeparated (numerals.map Text.signedNumeral) ++ [')']
    | .cut a b c =>
      let ts ← writtenAll (m.writtenIn depth inside) [a, b, c]
      return "slice(".toList ++ commaSeparated ts ++ [')']
    | .missing .. => return "Undefined".toList
    | .method owner name =>
      return showThing ("built-in method " ++ String.ofList name ++ " of " ++
        (← Eval.kindName owner) ++ " object")
    | .function name => return showThing ("function " ++ String.ofList name)
    | .kind k => return showKind k
    | .object id =>
      let once (opening closing : Text) (e : List Nat → Eval (List Text)) : Eval Text := do
        if inside.contains id then return opening ++ "...".toList ++ closing
        else return opening ++ commaSeparated (← e (id :: inside)) ++ closing
      match ← Eval.object? id with
      | some (.list vs) => once ['['] [']'] fun now => writtenAll (m.writtenIn depth now) vs
      | some (.mapping entries) =>
        once ['{'] ['}'] fun now => writtenEntries (m.writtenIn depth now) entries
      | some (.view p d) =>
        let entries ← match ← Eval.object? d with
          | some (.mapping entries) => pure entries
          | _ => pure []
        let vs := entries.map fun e => match p with
          | .keys => e.1
          | .values => e.2
          | .items => .row [e.1, e.2]
        once ((Kind.view p).name.toList ++ "([".toList) "])".toList fun now =>
          writtenAll (m.writtenIn depth now) vs
      | some (.group key values) =>
        let ts ← writtenAll (m.writtenIn depth inside) [key, values]
        return '(' :: commaSeparated ts ++ [')']
      | some (.fields entries) =>
        let named := entries.map fun p => (Value.text p.1, p.2)
        let ts ← once "<Namespace \x7b".toList "\x7d>".toList fun now =>
          writtenEntries (m.writtenIn depth now) named
        return ts
      | some (.loop l) =>
        let n ← m.loopLength id l
        return ("<LoopContext " ++ toString l.count ++ "/" ++ toString n ++ ">").toList
      | some (.routine r) =>
        match r.name with
        | some name => return "<Macro ".toList ++ Text.quote name ++ ['>']
        | none => return "<Macro anonymous>".toList
      | some (.template _) => return "<TemplateReference None>".toList
      | some o => return showThing (o.kind.fullName ++ " object")
      | none => return "None".toList

/-- The written form of a value. -/
def written (m : Machine) (v : Value) : Eval Text := m.writtenIn 150 [] v

/-- How a value shows. -/
def shown (m : Machine) (v : Value) : Eval Text := do
  match v with
  | .text t | .markup t => return t
  | .missing strict complaint => if strict then Eval.needs complaint else return []
  | v => m.written v

/-- A text as it is, any other value as the text that shows it. -/
def asText (m : Machine) (v : Value) : Eval Value := do
  match v with
  | .text t => return .text t
  | .markup t => return .markup t
  | v => return .text (← m.shown v)

/-- Characters that mean something in markup, by names and numbers. -/
def escapeChar : Char → Text
  | '&' => "&amp;".toList
  | '>' => "&gt;".toList
  | '<' => "&lt;".toList
  | '\'' => "&#39;".toList
  | '"' => "&#34;".toList
  | c => [c]

/-- A value as markup: markup as it is, anything else as the escaped text that
shows it. -/
def escaped (m : Machine) (v : Value) : Eval Text := do
  match v with
  | .markup t => return t
  | v => return (← m.shown v).flatMap escapeChar

end Machine

end LogCalls.Template
