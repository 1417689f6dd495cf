/-
LogCalls/Proofs/Argument/Items.lean

The grammar of arguments.  Between its parentheses an argument is a row of items:
single characters, literals in quotes, and nested parentheses, inside of which
quotes mean nothing.

What may stand between two quotes is said twice: by the places of quotes and
backslashes (`Enclosed`), and by a recursion that looks back one character, as
the scan does (`encloses`).  The two agree (`enclosed_iff`).

The scan passes over whatever the grammar allows (`Balanced.passes`,
`Enclosed.passes`, `Body.passes`), and keeps what stands before the first
parenthesis (`scan_append_open`).
-/
import LogCalls.Proofs.Argument.Passing
import LogCalls.Proofs.Text.Places

namespace LogCalls.Argument

open State

/-! ### The grammar -/

/-- A text with balanced parentheses, in which nothing else has a meaning. -/
inductive Balanced : Text → Prop
  | nil : Balanced []
  | char {c : Char} {r : Text} : c ≠ '(' → c ≠ ')' → Balanced r → Balanced (c :: r)
  | nested {n r : Text} : Balanced n → Balanced r → Balanced ('(' :: n ++ ')' :: r)

/-- What may stand between two quotes: the same quote only right behind a
backslash, and no backslash at the end. -/
structure Enclosed (quote : Char) (t : Text) : Prop where
  escaped : ∀ a b, t = a ++ quote :: b → a.getLast? = some '\\'
  last_ne : t.getLast? ≠ some '\\'

/-- Whether a text may stand between two quotes, given the character before it. -/
def encloses (quote : Char) : (previous : Option Char) → Text → Bool
  | p, [] => p != some '\\'
  | p, c :: r => (c != quote || p == some '\\') && encloses quote (some c) r

theorem encloses_iff {q : Char} {t : Text} {p : Option Char} :
    encloses q p t = true ↔
      (∀ a b, t = a ++ q :: b → a.getLast?.or p = some '\\') ∧ t.getLast?.or p ≠ some '\\' := by
  induction t generalizing p with
  | nil => simp [encloses]
  | cons c r ih =>
      simp only [encloses, Bool.and_eq_true, ih, Text.getLast?_cons_or, Bool.or_eq_true, bne_iff_ne,
        beq_iff_eq]
      constructor
      · rintro ⟨hc, hr, hlast⟩
        refine ⟨fun a b hab => ?_, hlast⟩
        rcases a with _ | ⟨d, a⟩
        · obtain ⟨rfl, -⟩ := List.cons.inj hab
          exact hc.resolve_left (not_not_intro rfl)
        · obtain ⟨rfl, htail⟩ := List.cons.inj hab
          rw [Text.getLast?_cons_or]
          exact hr a b htail
      · rintro ⟨hall, hlast⟩
        refine ⟨?_, fun a b hab => ?_, hlast⟩
        · by_cases hc : c = q
          · exact .inr (hall [] r (by rw [hc]; rfl))
          · exact .inl hc
        · rw [← Text.getLast?_cons_or c a p]
          exact hall (c :: a) b (by rw [hab]; rfl)

/-- Behind the quote that opens a literal the character before counts for
nothing: it is no backslash. -/
theorem enclosed_iff {q : Char} {t : Text} (hq : q ≠ '\\') :
    Enclosed q t ↔ encloses q (some q) t = true := by
  have hor : ∀ a : Text, a.getLast?.or (some q) = some '\\' ↔ a.getLast? = some '\\' := by
    intro a
    cases a.getLast? <;> simp [hq]
  rw [encloses_iff]
  simp only [ne_eq, hor]
  exact ⟨fun h => ⟨h.escaped, h.last_ne⟩, fun h => ⟨h.1, h.2⟩⟩

theorem ne_backslash_of_isQuote {q : Char} (h : Atom.isQuote q = true) : q ≠ '\\' := by
  rintro rfl
  exact absurd h (by decide)

theorem isBlank_eq_false_of_isQuote {c : Char} (h : Atom.isQuote c = true) :
    Text.isBlank c = false := by
  rw [← Bool.not_eq_true]
  intro hblank
  rw [isQuote_eq_false_of_isBlank hblank] at h
  cases h

/-- One item of an argument. -/
inductive Item : Text → Prop
  | char {c : Char} : c ≠ '(' → c ≠ ')' → Atom.isQuote c = false → Item [c]
  | literal {q : Char} {t : Text} : Atom.isQuote q = true → Enclosed q t → Item (q :: t ++ [q])
  | nested {n : Text} : Balanced n → Item ('(' :: n ++ [')'])

/-- A row of items. -/
inductive Body : Text → Prop
  | nil : Body []
  | cons {i r : Text} : Item i → Body r → Body (i ++ r)

/-! ### What the scan passes over -/

/-- Parentheses are kept with what is kept inside of them. -/
theorem passes_parens {n : Text} {depth : Nat} {p p' : Option Char}
    (h : Passes (· = .keep) (inside (depth + 1) (some '(')) n (inside (depth + 1) p')) :
    Passes (· = .keep) (inside depth p) ('(' :: n ++ [')']) (inside depth (some ')')) := by
  refine .cons effect_inside_open (by simp) ?_
  rw [next_inside_open]
  exact h.append (Passes.single effect_inside_succ next_inside_close isClosed_inside)

/-- Inside of nested parentheses a balanced text is kept as it is. -/
theorem Balanced.passes {n : Text} (h : Balanced n) (depth : Nat) (p : Option Char) :
    ∃ p', Passes (· = .keep) (inside (depth + 1) p) n (inside (depth + 1) p') := by
  induction h generalizing depth p with
  | nil => exact ⟨p, .nil _⟩
  | char ho hc _ ih =>
      obtain ⟨p', hp⟩ := ih depth (some _)
      refine ⟨p', .cons effect_inside_succ ?_ ?_⟩
      · rw [next_inside_succ ho hc, isClosed_inside]
      · rw [next_inside_succ ho hc]
        exact hp
  | nested _ _ ihn ihr =>
      obtain ⟨p₁, hn⟩ := ihn (depth + 1) (some '(')
      obtain ⟨p₂, hr⟩ := ihr depth (some ')')
      refine ⟨p₂, ?_⟩
      rw [List.append_cons]
      exact (passes_parens hn).append hr

/-- In a literal everything is kept that may stand there. -/
theorem passes_quoted {q : Char} {t : Text} {p : Option Char} (h : encloses q p t = true) :
    ∃ p', p' ≠ some '\\' ∧ Passes (· = .keep) (quoted q p) t (quoted q p') := by
  induction t generalizing p with
  | nil => exact ⟨p, by simpa [encloses] using h, .nil _⟩
  | cons c r ih =>
      simp only [encloses, Bool.and_eq_true, Bool.or_eq_true, bne_iff_ne, beq_iff_eq] at h
      have hn : (quoted q p).next c = quoted q (some c) :=
        next_quoted fun hc => h.1.resolve_left (not_not_intro hc)
      obtain ⟨p', hp', hpass⟩ := ih h.2
      refine ⟨p', hp', .cons effect_quoted (by rw [hn, isClosed_quoted]) ?_⟩
      rw [hn]
      exact hpass

/-- A literal is kept with its quotes. -/
theorem Enclosed.passes {q : Char} {t : Text} (hq : Atom.isQuote q = true) (h : Enclosed q t)
    (p : Option Char) : Passes (· = .keep) (inside 0 p) (q :: t ++ [q]) (inside 0 (some q)) := by
  rw [enclosed_iff (ne_backslash_of_isQuote hq)] at h
  obtain ⟨p', hp', hpass⟩ := passes_quoted h
  refine .cons (effect_inside_quote hq) (by rw [next_inside_quote hq, isClosed_quoted]) ?_
  rw [next_inside_quote hq]
  exact hpass.append (Passes.single effect_quoted (next_quoted_end hp') isClosed_inside)

theorem Item.passes {i : Text} (h : Item i) (p : Option Char) :
    ∃ p', Passes anyEffect (inside 0 p) i (inside 0 p') := by
  cases h with
  | char ho hc hq =>
      exact ⟨_, Passes.single trivial (next_inside_of_not_quote ho hc hq) isClosed_inside⟩
  | literal hq ht => exact ⟨_, (ht.passes hq p).any⟩
  | nested hn =>
      obtain ⟨p₁, hp⟩ := hn.passes 0 (some '(')
      exact ⟨some ')', (passes_parens hp).any⟩

theorem Body.passes {b : Text} (h : Body b) (p : Option Char) :
    ∃ p', Passes anyEffect (inside 0 p) b (inside 0 p') := by
  induction h generalizing p with
  | nil => exact ⟨p, .nil _⟩
  | cons hi _ ih =>
      obtain ⟨p₁, h₁⟩ := hi.passes p
      obtain ⟨p₂, h₂⟩ := ih p₁
      exact ⟨p₂, h₁.append h₂⟩

/-- Before the first parenthesis everything is kept. -/
theorem passes_outside {lead : Text} (ho : '(' ∉ lead) (hc : ')' ∉ lead) (p : Option Char) :
    ∃ p', Passes (· = .keep) (outside p) lead (outside p') := by
  induction lead generalizing p with
  | nil => exact ⟨p, .nil _⟩
  | cons c r ih =>
      rw [List.mem_cons, not_or] at ho hc
      have hn : (outside p).next c = outside (some c) := next_outside (Ne.symm ho.1) (Ne.symm hc.1)
      have heffect : (outside p).effect c = .keep := effect_outside (Ne.symm ho.1) (Ne.symm hc.1)
      obtain ⟨p', hp⟩ := ih ho.2 hc.2 (some c)
      exact ⟨p', .cons heffect (by rw [hn, isClosed_outside]) (by rw [hn]; exact hp)⟩

/-- What stands before the first parenthesis goes in front of the first token. -/
theorem scan_append_open {lead : Text} (ho : '(' ∉ lead) (hc : ')' ∉ lead) (v : Text) :
    scan (lead ++ '(' :: v) = ⟨(scan ('(' :: v)).tokens.modifyHead (lead ++ ·),
      (scan ('(' :: v)).valid, lead.length + (scan ('(' :: v)).length⟩ := by
  obtain ⟨p, hp⟩ := passes_outside ho hc none
  have hstart : scanFrom (outside p) ('(' :: v) = scan ('(' :: v) :=
    scanFrom_withPrevious (s := outside none) rfl p _
  rw [← hstart]
  exact scanFrom_append_of_keep hp ('(' :: v)

end LogCalls.Argument
