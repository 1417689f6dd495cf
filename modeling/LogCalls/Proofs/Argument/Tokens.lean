/-
LogCalls/Proofs/Argument/Tokens.lean

What the tokens of an argument look like.  Between two cuts the scan keeps plain
characters, whole literals and whole parentheses, and leaves out the blanks, so
every token of a complete argument is a row of such items (`kept_of_mem_tokens`),
and a scan that meets it again keeps it as it is (`Kept.passes`).

A text between parentheses is an argument that ends with them exactly where it is
a row of items (`scan_ends_iff`).
-/
import LogCalls.Proofs.Argument.Grammar

namespace LogCalls.Argument

open State

/-! ### Rows of items that are kept -/

/-- A row of plain characters, literals and parentheses. -/
inductive Kept : Text → Prop
  | nil : Kept []
  | char {c : Char} {r : Text} : IsPlain c → Kept r → Kept (c :: r)
  | literal {q : Char} {t r : Text} :
      Atom.isQuote q = true → Enclosed q t → Kept r → Kept (q :: t ++ [q] ++ r)
  | nested {n r : Text} : Balanced n → Kept r → Kept ('(' :: n ++ [')'] ++ r)

theorem kept_of_plain {w : Text} (h : ∀ c ∈ w, IsPlain c) : Kept w := by
  induction w with
  | nil => exact .nil
  | cons c r ih =>
      obtain ⟨hc, hr⟩ := List.forall_mem_cons.mp h
      exact .char hc (ih hr)

theorem kept_of_all {w : Text} (h : w.all (fun c => decide (IsPlain c)) = true) : Kept w :=
  kept_of_plain fun c hc => of_decide_eq_true (List.all_eq_true.mp h c hc)

/-- Between the outermost parentheses a row of kept items is kept. -/
theorem Kept.passes {t : Text} (h : Kept t) (p : Option Char) :
    ∃ p', Passes (· = .keep) (inside 0 p) t (inside 0 p') := by
  induction h generalizing p with
  | nil => exact ⟨p, .nil _⟩
  | @char c r hc _ ih =>
      obtain ⟨p₁, h₁⟩ := passes_plain (w := [c]) (by simpa using hc) p
      obtain ⟨p₂, h₂⟩ := ih p₁
      exact ⟨p₂, h₁.append h₂⟩
  | literal hq ht _ ih =>
      obtain ⟨p', hp⟩ := ih (some _)
      exact ⟨p', (ht.passes hq p).append hp⟩
  | nested hn _ ih =>
      obtain ⟨p₁, h₁⟩ := hn.passes 0 (some '(')
      obtain ⟨p₂, h₂⟩ := ih (some ')')
      exact ⟨p₂, (passes_parens h₁).append h₂⟩

theorem Kept.body {t : Text} (h : Kept t) : Body t := by
  induction h with
  | nil => exact .nil
  | @char c r hc _ ih => exact .cons (i := [c]) (.char hc.1 hc.2.1 hc.2.2.1) ih
  | literal hq ht _ ih => exact .cons (.literal hq ht) ih
  | nested hn _ ih => exact .cons (.nested hn) ih

theorem Kept.isBlank_of_mem_head? {t : Text} (h : Kept t) {c : Char} (hc : c ∈ t.head?) :
    Text.isBlank c = false := by
  cases h with
  | nil => cases hc
  | char hplain _ =>
      obtain rfl : _ = c := Option.some.inj hc
      exact hplain.2.2.2.1
  | literal hq _ _ =>
      obtain rfl : _ = c := Option.some.inj hc
      exact isBlank_eq_false_of_isQuote hq
  | nested _ _ =>
      obtain rfl : '(' = c := Option.some.inj hc
      decide

theorem Kept.isBlank_of_mem_getLast? {t : Text} (h : Kept t) {c : Char} (hc : c ∈ t.getLast?) :
    Text.isBlank c = false := by
  -- an item that no blank ends, in front of a row
  have hitem : ∀ {i r : Text} {d : Char}, (i ++ [d] ++ r).getLast? = some c →
      Text.isBlank d = false → (c ∈ r.getLast? → Text.isBlank c = false) →
      Text.isBlank c = false := by
    intro i r d hlast hd ih
    rcases hr : r.getLast? with _ | e
    · rw [List.getLast?_append, hr, List.getLast?_concat] at hlast
      obtain rfl : d = c := Option.some.inj hlast
      exact hd
    · rw [List.getLast?_append, hr] at hlast
      exact ih (by rw [hr]; exact hlast)
  induction h with
  | nil => cases hc
  | @char d r hplain _ ih => exact hitem (i := []) hc hplain.2.2.2.1 ih
  | literal hq _ _ ih => exact hitem hc (isBlank_eq_false_of_isQuote hq) ih
  | nested _ _ ih => exact hitem hc (by decide) ih

/-! ### The tokens of an argument -/

/-- An item that is neither a blank nor a sign is kept. -/
theorem Item.kept_append {i t : Text} (hi : Item i) (hblank : isBlankPiece i = false)
    (hsign : i ≠ sign) (ht : Kept t) : Kept (i ++ t) := by
  cases hi with
  | @char c ho hc hq =>
      have hplus : c ≠ '+' := by
        rintro rfl
        exact hsign rfl
      exact .char ⟨ho, hc, hq, hblank, hplus⟩ ht
  | literal hq hu => exact .literal hq hu ht
  | nested hn => exact .nested hn ht

/-- The operands of an argument that is closed are rows of kept items. -/
theorem Divided.kept_of_mem {r : Text} {pieces : List Text} {closed : Bool}
    (h : Divided r pieces closed) (hclosed : closed = true) :
    ∀ token ∈ (operands pieces).map List.flatten, Kept token := by
  induction h with
  | closed => simpa [operands, dense] using Kept.nil
  | finished => cases hclosed
  | unended _ => cases hclosed
  | cons hi _ ih =>
      rw [map_flatten_operands_cons]
      exact forall_mem_placed .nil (fun hblank hsign t => hi.kept_append hblank hsign) (ih hclosed)

/-- The tokens of a complete argument are rows of kept items. -/
theorem kept_of_mem_tokens {r : Text} (h : (scan ('(' :: r)).valid = true) :
    ∀ token ∈ (scan ('(' :: r)).tokens, Kept token := by
  obtain ⟨pieces, closed, hdivided⟩ := exists_divided r
  rw [hdivided.scan_eq] at h ⊢
  exact hdivided.kept_of_mem h

/-- A text between parentheses is an argument that ends with them exactly where
it is a row of items. -/
theorem scan_ends_iff {lead : Text} (ho : '(' ∉ lead) (hc : ')' ∉ lead) (w r : Text) :
    ((scan (lead ++ '(' :: w ++ [')'] ++ r)).valid = true ∧
        (scan (lead ++ '(' :: w ++ [')'] ++ r)).length = (lead ++ '(' :: w ++ [')']).length) ↔
      Body w := by
  constructor
  · rintro ⟨hvalid, hlength⟩
    have hfirst : OpensFirst (lead ++ '(' :: w ++ [')'] ++ r) := by
      intro lead' rest h hlead'
      simp only [List.append_assoc, List.cons_append] at h
      obtain ⟨rfl, -⟩ := Text.append_cons_inj ho hlead' h
      exact hc
    obtain ⟨u, hu, hcall⟩ := exists_isCall_of_valid hfirst hvalid
    -- the call ends where the scan does
    have hsame : u = lead ++ '(' :: w ++ [')'] := by
      have hlen : u.length = (lead ++ '(' :: w ++ [')']).length := by
        obtain ⟨r', hr'⟩ := hu
        rw [← hlength, ← hr', (scan_of_isCall hcall r').2]
      exact (List.prefix_of_prefix_length_le hu (List.prefix_append _ r)
        (Nat.le_of_eq hlen)).eq_of_length hlen
    obtain ⟨lead', body, hlead', -, hbody, heq⟩ := hcall
    rw [hsame, List.append_assoc, List.append_assoc, List.cons_append, List.cons_append] at heq
    obtain ⟨-, htail⟩ := Text.append_cons_inj ho hlead' heq
    rwa [List.append_cancel_right htail]
  · intro hw
    exact scan_of_isCall ⟨lead, w, ho, hc, hw, rfl⟩ r

end LogCalls.Argument
