/-
LogCalls/Text/Search.lean

Where a text occurs in another one, and what that makes of it: the pieces
between the occurrences, and the text with each of them replaced.
-/
import LogCalls.Text.Blank

namespace LogCalls.Text

/-- The first place where a text occurs. -/
def find? (part : Text) : Text → Option Nat
  | [] => if part.isEmpty then some 0 else none
  | c :: r => if part.isPrefixOf (c :: r) then some 0 else (find? part r).map (· + 1)

/-- The last place where a text occurs. -/
def findLast? (part t : Text) : Option Nat :=
  (find? part.reverse t.reverse).map fun i => t.length - i - part.length

/-- What stands before and behind the first occurrence of a text. -/
def breakAt? (part : Text) : Text → Option (Text × Text)
  | [] => if part.isEmpty then some ([], []) else none
  | c :: r =>
    if part.isPrefixOf (c :: r) then some ([], (c :: r).drop part.length)
    else (breakAt? part r).map fun p => (c :: p.1, p.2)

/-- What stands before and behind the last occurrence of a text. -/
def breakAtLast? (part t : Text) : Option (Text × Text) :=
  (breakAt? part.reverse t.reverse).map fun p => (p.2.reverse, p.1.reverse)

/-- The pieces between the first occurrences of a text, of which at most so many
count. -/
def piecesUpTo (part : Text) : Nat → Text → List Text
  | 0, t => [t]
  | most + 1, t =>
    match breakAt? part t with
    | some (before, behind) => before :: piecesUpTo part most behind
    | none => [t]

/-- The pieces between the last occurrences of a text, of which at most so many
count. -/
def piecesFromEnd (part : Text) (most : Nat) (t : Text) : List Text :=
  ((piecesUpTo part.reverse most t.reverse).map List.reverse).reverse

/-- The words of a text, cut off at most so many times. -/
def wordsUpTo (most : Nat) (t : Text) : List Text :=
  match most, trimStart t with
  | _, [] => []
  | 0, u => [u]
  | most + 1, u => u.takeWhile (!isBlank ·) :: wordsUpTo most (u.dropWhile (!isBlank ·))

/-- The words of a text, cut off from its end at most so many times. -/
def wordsFromEnd (most : Nat) (t : Text) : List Text :=
  ((wordsUpTo most t.reverse).map List.reverse).reverse

/-- How often a text occurs, without overlap. -/
def occurrences (part t : Text) : Nat :=
  if part.isEmpty then t.length + 1 else (piecesUpTo part t.length t).length - 1

/-- A text before each character of another one and at its end, at most so many
times. -/
def interleaved (new : Text) : Nat → Text → Text
  | 0, t => t
  | _ + 1, [] => new
  | most + 1, c :: r => new ++ c :: interleaved new most r

/-- A text with the first occurrences of a part replaced, at most so many. -/
def replaced (old new : Text) (most : Nat) (t : Text) : Text :=
  if old.isEmpty then interleaved new most t
  else joinWith new (piecesUpTo old most t)

/-- Whether a character ends a line. -/
def endsLine (c : Char) : Bool :=
  (0x0A ≤ c.toNat && c.toNat ≤ 0x0D) || (0x1C ≤ c.toNat && c.toNat ≤ 0x1E) ||
    c.toNat == 0x85 || c.toNat == 0x2028 || c.toNat == 0x2029

/-- The lines of a text, ended by any line end, with or without their ends. -/
def anyLines (keep : Bool) : Text → List Text
  | [] => []
  | '\r' :: '\n' :: r => (if keep then ['\r', '\n'] else []) :: anyLines keep r
  | c :: r =>
    if endsLine c then (if keep then [c] else []) :: anyLines keep r
    else
      match anyLines keep r with
      | [] => [[c]]
      | l :: ls => (c :: l) :: ls

/-! ### Small laws -/

theorem breakAt?_eq_some {part t before behind : Text}
    (h : breakAt? part t = some (before, behind)) : t = before ++ part ++ behind := by
  induction t generalizing before with
  | nil =>
    simp only [breakAt?] at h
    split at h
    case isTrue e => simp_all
    case isFalse => simp at h
  | cons c r ih =>
    simp only [breakAt?] at h
    split at h
    case isTrue e =>
      obtain ⟨rest, hr⟩ := List.isPrefixOf_iff_prefix.mp e
      simp only [Option.some.injEq, Prod.mk.injEq] at h
      obtain ⟨rfl, rfl⟩ := h
      simp [← hr]
    case isFalse =>
      obtain ⟨p, hp, he⟩ := Option.map_eq_some_iff.mp h
      simp only [Prod.mk.injEq] at he
      obtain ⟨rfl, rfl⟩ := he
      simp [ih hp]

theorem piecesUpTo_ne_nil (part : Text) (most : Nat) (t : Text) : piecesUpTo part most t ≠ [] := by
  cases most with
  | zero => simp [piecesUpTo]
  | succ most =>
    rw [piecesUpTo]
    split <;> simp

/-- The pieces with the text between them are the text that was cut. -/
theorem joinWith_piecesUpTo (part : Text) (most : Nat) (t : Text) :
    joinWith part (piecesUpTo part most t) = t := by
  induction most generalizing t with
  | zero => simp [piecesUpTo, joinWith]
  | succ most ih =>
    rw [piecesUpTo]
    split
    case h_1 before behind h =>
      have next := ih behind
      cases hp : piecesUpTo part most behind with
      | nil => exact absurd hp (piecesUpTo_ne_nil part most behind)
      | cons p ps => simp [hp] at next; simp [joinWith, next, breakAt?_eq_some h]
    case h_2 => simp [joinWith]

end LogCalls.Text
