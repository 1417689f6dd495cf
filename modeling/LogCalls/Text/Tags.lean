/-
LogCalls/Text/Tags.lean

Texts with tags and character references in them: the tags left out, and the
references read.
-/
import LogCalls.Text.Digit
import LogCalls.Text.Search

namespace LogCalls.Text

/-- A text without the parts between an opening and a closing mark, as long as
both are there. -/
def withoutEnclosed (opening closing : Text) : Nat → Text → Text
  | 0, t => t
  | most + 1, t =>
    match breakAt? opening t with
    | none => t
    | some (before, behind) =>
      match breakAt? closing (opening ++ behind) with
      | none => t
      | some (_, rest) => withoutEnclosed opening closing most (before ++ rest)

/-- The characters that are referred to by name. -/
def namedReferences : List (String × Nat) := [
  ("amp", 0x26), ("lt", 0x3C), ("gt", 0x3E), ("quot", 0x22), ("apos", 0x27), ("nbsp", 0xA0),
  ("copy", 0xA9), ("reg", 0xAE), ("deg", 0xB0), ("middot", 0xB7), ("laquo", 0xAB),
  ("raquo", 0xBB), ("times", 0xD7), ("eacute", 0xE9), ("ndash", 0x2013), ("mdash", 0x2014),
  ("lsquo", 0x2018), ("rsquo", 0x2019), ("ldquo", 0x201C), ("rdquo", 0x201D), ("bull", 0x2022),
  ("hellip", 0x2026), ("euro", 0x20AC), ("trade", 0x2122), ("larr", 0x2190), ("rarr", 0x2192)]

/-- Names that are read without a semicolon too. -/
def openReferences : List String := ["amp", "lt", "gt", "quot", "nbsp", "copy", "reg"]

/-- The character of a number in a reference. -/
def referredChar (n : Nat) : Text :=
  if n = 0 ∨ 0x10FFFF < n ∨ (0xD800 ≤ n ∧ n ≤ 0xDFFF) then [Char.ofNat 0xFFFD]
  else [Char.ofNat n]

/-- The character reference behind an ampersand, and what follows it. -/
def reference? (t : Text) : Option (Text × Text) :=
  let closed (r : Text) : Text := if r.head? == some ';' then r.drop 1 else r
  let number (base : Nat) (digits r : Text) : Option (Text × Text) :=
    if digits.isEmpty then none else some (referredChar (valueInBase base digits), closed r)
  match t with
  | '#' :: 'x' :: r | '#' :: 'X' :: r =>
    number 16 (r.takeWhile isHexDigit) (r.dropWhile isHexDigit)
  | '#' :: r => number 10 (r.takeWhile Char.isDigit) (r.dropWhile Char.isDigit)
  | t =>
    let name := String.ofList (t.takeWhile Char.isAlphanum)
    let r := t.dropWhile Char.isAlphanum
    if r.head? == some ';' then
      (namedReferences.lookup name).map fun n => ([Char.ofNat n], r.drop 1)
    else
      (openReferences.find? fun s => s.toList.isPrefixOf t).bind fun s =>
        (namedReferences.lookup s).map fun n => ([Char.ofNat n], t.drop s.length)

/-- A text with its character references read, at most so many characters. -/
def unescapedFrom : Nat → Text → Text
  | 0, t => t
  | _, [] => []
  | most + 1, '&' :: r =>
    match reference? r with
    | some (c, rest) => c ++ unescapedFrom most rest
    | none => '&' :: unescapedFrom most r
  | most + 1, c :: r => c :: unescapedFrom most r

/-- A text with its character references read. -/
def unescaped (t : Text) : Text := unescapedFrom t.length t

/-- A text without comments and tags, its blanks made single, and its character
references read. -/
def withoutTags (t : Text) : Text :=
  let bare := withoutEnclosed "<!--".toList "-->".toList t.length t
  let bare := withoutEnclosed ['<'] ['>'] t.length bare
  unescaped (joinWith [' '] (wordsUpTo bare.length bare))

/-! ### Small laws -/

theorem unescapedFrom_of_not_mem {most : Nat} {t : Text} (h : '&' ∉ t) :
    unescapedFrom most t = t := by
  induction t generalizing most with
  | nil => cases most <;> rfl
  | cons c r ih =>
    simp only [List.mem_cons, not_or] at h
    cases most with
    | zero => rfl
    | succ most =>
      rw [unescapedFrom]
      · rw [ih h.2]
      · exact fun e => h.1 e.symm

end LogCalls.Text
