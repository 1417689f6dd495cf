/-
LogCalls/Text/Utf8.lean

UTF-8, read one byte at a time.  A byte that cannot continue the text names
the flaw and the bytes it spoils: the bad byte alone, or the unfinished
character in front of it.
-/
import LogCalls.Text.Quoted

namespace LogCalls.Text.Utf8

/-- Why bytes are no text. -/
inductive Reason where
  | start
  | continuation
  | truncated
  deriving DecidableEq, Repr

/-- The wording of a reason. -/
def Reason.wording : Reason → String
  | .start => "invalid start byte"
  | .continuation => "invalid continuation byte"
  | .truncated => "unexpected end of data"

/-- The first flaw of a byte sequence: the spoiled bytes start at `position`
with `byte` and there are `count` of them. -/
structure Flaw where
  position : Nat
  byte : UInt8
  count : Nat
  reason : Reason
  deriving DecidableEq, Repr

/-- The message that reports a flaw. -/
def Flaw.message (f : Flaw) : String :=
  let place :=
    if f.count ≤ 1 then
      "byte 0x" ++ String.ofList (hexPadded 2 f.byte.toNat) ++ " in position " ++ toString f.position
    else
      "bytes in position " ++ toString f.position ++ "-" ++ toString (f.position + f.count - 1)
  "'utf-8' codec can't decode " ++ place ++ ": " ++ f.reason.wording

/-- A character of which `seen` bytes are read and `missing` are still to
come; the next one lies between `low` and `high`. -/
structure Unfinished where
  position : Nat
  byte : UInt8
  seen : Nat
  missing : Nat
  low : Nat
  high : Nat
  value : Nat
  deriving DecidableEq, Repr

/-- The flaw of a character that is not continued. -/
def Unfinished.flaw (u : Unfinished) (reason : Reason) : Flaw :=
  ⟨u.position, u.byte, u.seen, reason⟩

/-- What a first byte announces: how many more bytes, the bounds of the next
one, and its own share of the character. -/
def lead? (b : Nat) : Option (Nat × Nat × Nat × Nat) :=
  if b < 0xC2 then none
  else if b < 0xE0 then some (1, 0x80, 0xBF, b - 0xC0)
  else if b = 0xE0 then some (2, 0xA0, 0xBF, 0)
  else if b = 0xED then some (2, 0x80, 0x9F, 0x0D)
  else if b < 0xF0 then some (2, 0x80, 0xBF, b - 0xE0)
  else if b = 0xF0 then some (3, 0x90, 0xBF, 0)
  else if b < 0xF4 then some (3, 0x80, 0xBF, b - 0xF0)
  else if b = 0xF4 then some (3, 0x80, 0x8F, 4)
  else none

/-- Reads the bytes from `position` on, the character in `pending` first. -/
def decodeFrom (position : Nat) (pending : Option Unfinished) : List UInt8 → Except Flaw Text
  | [] =>
    match pending with
    | none => .ok []
    | some u => .error (u.flaw .truncated)
  | b :: rest =>
    match pending with
    | none =>
      if b.toNat < 0x80 then
        (decodeFrom (position + 1) none rest).map (Char.ofNat b.toNat :: ·)
      else
        match lead? b.toNat with
        | none => .error ⟨position, b, 1, .start⟩
        | some (missing, low, high, value) =>
          decodeFrom (position + 1) (some ⟨position, b, 1, missing, low, high, value⟩) rest
    | some u =>
      if u.low ≤ b.toNat ∧ b.toNat ≤ u.high then
        let value := u.value * 64 + (b.toNat - 0x80)
        if u.missing ≤ 1 then
          (decodeFrom (position + 1) none rest).map (Char.ofNat value :: ·)
        else
          decodeFrom (position + 1)
            (some ⟨u.position, u.byte, u.seen + 1, u.missing - 1, 0x80, 0xBF, value⟩) rest
      else
        .error (u.flaw .continuation)

/-- The text that the bytes hold, or their first flaw. -/
def decode (bytes : List UInt8) : Except Flaw Text := decodeFrom 0 none bytes

/-- The bytes of a text. -/
def encode (t : Text) : List UInt8 := t.flatMap String.utf8EncodeChar

/-! ### Surrogates -/

/-- The first surrogates in a text: the place and the code of the first, and how
many there are in a row. -/
structure Unencodable where
  position : Nat
  code : Nat
  count : Nat
  deriving DecidableEq, Repr

/-- The message that reports surrogates. -/
def Unencodable.message (u : Unencodable) : String :=
  let place :=
    if u.count ≤ 1 then
      "character '\\u" ++ String.ofList (hexPadded 4 u.code) ++ "' in position " ++
        toString u.position
    else
      "characters in position " ++ toString u.position ++ "-" ++
        toString (u.position + u.count - 1)
  "'utf-8' codec can't encode " ++ place ++ ": surrogates not allowed"

/-- The first surrogates of a text from one on that is refused. -/
def unencodable? (isRefused : Char → Bool) (t : Text) : Option Unencodable :=
  let before := t.takeWhile fun c => !isRefused c
  match t.drop before.length with
  | [] => none
  | c :: r =>
    some ⟨before.length, Surrogate.codeOf c, (r.takeWhile Surrogate.isStandIn).length + 1⟩

/-! ### Small laws -/

@[simp] theorem encode_nil : encode [] = [] := rfl

@[simp] theorem encode_append (t u : Text) : encode (t ++ u) = encode t ++ encode u := by
  simp [encode]

end LogCalls.Text.Utf8
