/-
LogCalls/Text/Base64.lean

Bytes written with sixty-four characters, six bits each.  Characters outside of
the alphabet are passed over, and reading ends where marks of padding fill a
group of four up.
-/
import LogCalls.Text.Blank

namespace LogCalls.Text.Base64

/-- The six bits of a character. -/
def bits? (c : Char) : Option Nat :=
  if 0x41 ≤ c.toNat ∧ c.toNat ≤ 0x5A then some (c.toNat - 0x41)
  else if 0x61 ≤ c.toNat ∧ c.toNat ≤ 0x7A then some (c.toNat - 0x61 + 26)
  else if 0x30 ≤ c.toNat ∧ c.toNat ≤ 0x39 then some (c.toNat - 0x30 + 52)
  else if c = '+' then some 62
  else if c = '/' then some 63
  else none

/-- The bytes from a place in a group of four on: `place` characters of the
group have been read, `left` are the bits of them that belong to no byte yet,
and `pads` marks of padding stand before. -/
def decodeFrom (place left pads : Nat) : Text → Option (List UInt8)
  | [] => if place = 0 then some [] else none
  | c :: r =>
    if c = '=' then
      if 2 ≤ place then
        if 4 ≤ place + pads + 1 then some [] else decodeFrom place left (pads + 1) r
      else decodeFrom place left pads r
    else
      match bits? c with
      | none => decodeFrom place left pads r
      | some b =>
        match place with
        | 0 => decodeFrom 1 b 0 r
        | 1 => (decodeFrom 2 (b % 16) 0 r).map (UInt8.ofNat (left * 4 + b / 16) :: ·)
        | 2 => (decodeFrom 3 (b % 4) 0 r).map (UInt8.ofNat (left * 16 + b / 4) :: ·)
        | _ => (decodeFrom 0 0 0 r).map (UInt8.ofNat (left * 64 + b) :: ·)

/-- The bytes that a text writes, if it writes whole bytes. -/
def decode (t : Text) : Option (List UInt8) := decodeFrom 0 0 0 t

/-! ### Small laws -/

theorem bits?_lt {c : Char} {n : Nat} (h : bits? c = some n) : n < 64 := by
  unfold bits? at h
  split at h
  · injection h with h; omega
  · split at h
    · injection h with h; omega
    · split at h
      · injection h with h; omega
      · split at h
        · injection h with h; omega
        · split at h
          · injection h with h; omega
          · simp at h

@[simp] theorem decode_nil : decode [] = some [] := rfl

end LogCalls.Text.Base64
