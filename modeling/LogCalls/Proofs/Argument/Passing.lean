/-
LogCalls/Proofs/Argument/Passing.lean

How a scan goes on.  A scan *passes over* a text when it reads all of it and
does not end on the way; the scan of the text and what follows it is then the
scan of what follows, with the text in front (`scanFrom_append`).

The states that matter are few: outside of all parentheses, inside of them at
some depth, and in a literal at the outermost level.  Each has one equation for
each kind of character, and no later proof opens `State.next` or `State.effect`
again.

Main results: a scan that finds no end counts one character more than it has
read (`length_scanFrom_of_not_valid`), and one that ends sees nothing of what
follows its end (`scanFrom_take_append`).
-/
import LogCalls.Argument

namespace LogCalls.Argument

/-! ### The states of a scan -/

/-- Before the first parenthesis. -/
def State.outside (previous : Option Char) : State := ⟨0, false, none, previous⟩

/-- Inside `depth` parentheses more than the outermost, not in a literal. -/
def State.inside (depth : Nat) (previous : Option Char) : State :=
  ⟨(depth : Int) + 1, true, none, previous⟩

/-- In a literal of the outermost level, which `quote` will end. -/
def State.quoted (quote : Char) (previous : Option Char) : State :=
  ⟨1, true, some quote, previous⟩

/-- Behind the parenthesis that closes the first one. -/
def State.closed : State := ⟨0, true, none, some ')'⟩

namespace State

variable {c q : Char} {p : Option Char} {depth : Nat}

@[simp] theorem isClosed_outside : (outside p).isClosed = false := rfl

@[simp] theorem isClosed_inside : (inside depth p).isClosed = false := by
  simp only [isClosed, inside, Bool.true_and, beq_eq_false_iff_ne, ne_eq]
  omega

@[simp] theorem isClosed_quoted : (quoted q p).isClosed = false := rfl

@[simp] theorem isClosed_closed : closed.isClosed = true := rfl

@[simp] theorem isComplete_outside : (outside p).isComplete = false := rfl

@[simp] theorem isComplete_inside : (inside depth p).isComplete = false := by
  have hl : ¬ (depth : Int) + 1 ≤ 0 := by omega
  simp [isComplete, inside, hl]

@[simp] theorem isComplete_quoted : (quoted q p).isComplete = false := rfl

@[simp] theorem next_outside_open : (outside p).next '(' = inside 0 (some '(') := rfl

theorem next_outside (ho : c ≠ '(') (hc : c ≠ ')') : (outside p).next c = outside (some c) := by
  simp [next, outside, ho, hc]

@[simp] theorem next_inside_open : (inside depth p).next '(' = inside (depth + 1) (some '(') := by
  simp [next, inside]

@[simp] theorem next_inside_close : (inside (depth + 1) p).next ')' = inside depth (some ')') := by
  simp [next, inside]

@[simp] theorem next_inside_zero_close : (inside 0 p).next ')' = closed := rfl

theorem ne_parens_of_isQuote (h : Atom.isQuote c = true) : c ≠ '(' ∧ c ≠ ')' := by
  constructor <;> (rintro rfl; exact absurd h (by decide))

theorem ne_parens_of_isBlank (h : Text.isBlank c = true) : c ≠ '(' ∧ c ≠ ')' := by
  constructor <;> (rintro rfl; exact absurd h (by decide))

theorem next_inside_quote (h : Atom.isQuote c = true) :
    (inside 0 p).next c = quoted c (some c) := by
  obtain ⟨ho, hc⟩ := ne_parens_of_isQuote h
  simp [next, inside, quoted, ho, hc, h]

theorem next_inside_of_not_quote (ho : c ≠ '(') (hc : c ≠ ')') (hq : Atom.isQuote c = false) :
    (inside depth p).next c = inside depth (some c) := by
  simp [next, inside, ho, hc, hq]

theorem next_inside_succ (ho : c ≠ '(') (hc : c ≠ ')') :
    (inside (depth + 1) p).next c = inside (depth + 1) (some c) := by
  have hl : (depth : Int) + 1 + 1 ≠ 1 := by omega
  simp [next, inside, ho, hc, hl]

theorem next_quoted_end (h : p ≠ some '\\') : (quoted q p).next q = inside 0 (some q) := by
  simp [next, quoted, inside, h]

theorem next_quoted (h : c = q → p = some '\\') : (quoted q p).next c = quoted q (some c) := by
  by_cases hc : q = c
  · subst hc
    simp [next, quoted, h rfl]
  · simp [next, quoted, hc]

/-! ### What becomes of a character -/

@[simp] theorem effect_outside_open : (outside p).effect '(' = .skip := rfl

theorem effect_outside (ho : c ≠ '(') (hc : c ≠ ')') : (outside p).effect c = .keep := by
  simp [effect, outside, ho, hc]

@[simp] theorem effect_inside_open : (inside depth p).effect '(' = .keep := by
  have hl : 1 ≤ (depth : Int) + 1 := by omega
  simp [effect, inside, hl]

@[simp] theorem effect_inside_zero_close : (inside 0 p).effect ')' = .skip := rfl

theorem effect_inside_succ : (inside (depth + 1) p).effect c = .keep := by
  have hl : ((depth + 1 : Nat) : Int) + 1 ≠ 1 := by omega
  have hk : 1 ≤ ((depth + 1 : Nat) : Int) + 1 := by omega
  have hk' : 1 < ((depth + 1 : Nat) : Int) + 1 := by omega
  simp only [effect, inside, hl, hk, hk', false_and, if_true, if_false, ite_self]

@[simp] theorem effect_quoted : (quoted q p).effect c = .keep := by
  simp [effect, quoted]

theorem effect_inside_quote (h : Atom.isQuote c = true) : (inside 0 p).effect c = .keep := by
  obtain ⟨ho, hc⟩ := ne_parens_of_isQuote h
  simp [effect, inside, ho, hc, h]

theorem isQuote_eq_false_of_isBlank (h : Text.isBlank c = true) : Atom.isQuote c = false := by
  rw [Atom.isQuote, Bool.or_eq_false_iff, beq_eq_false_iff_ne, beq_eq_false_iff_ne]
  constructor <;> (rintro rfl; exact absurd h (by decide))

theorem effect_inside_blank (h : Text.isBlank c = true) : (inside 0 p).effect c = .skip := by
  obtain ⟨ho, hc⟩ := ne_parens_of_isBlank h
  simp [effect, inside, ho, hc, isQuote_eq_false_of_isBlank h, h]

@[simp] theorem effect_inside_plus : (inside 0 p).effect '+' = .cut := rfl

theorem effect_inside_char (ho : c ≠ '(') (hc : c ≠ ')') (hb : Text.isBlank c = false)
    (hp : c ≠ '+') : (inside 0 p).effect c = .keep := by
  simp [effect, inside, ho, hc, hb, hp]

end State

/-! ### The character before

Only the end of a literal depends on the character before. -/

section

variable {s : State} {c : Char} (h : s.quote = none) (p : Option Char)
include h

theorem next_withPrevious : { s with previous := p }.next c = s.next c := by
  simp [State.next, h]

theorem scanFrom_withPrevious (t : Text) : scanFrom { s with previous := p } t = scanFrom s t := by
  rcases t with _ | ⟨c, r⟩
  · rfl
  · have heffect : { s with previous := p }.effect c = s.effect c := rfl
    rw [scanFrom, scanFrom, next_withPrevious h, heffect]

end

/-! ### Passing over a text -/

/-- The scan passes over a text from one state to another without ending, and
only what is `allowed` becomes of the characters on the way. -/
inductive Passes (allowed : Effect → Prop) : State → Text → State → Prop
  | nil (s : State) : Passes allowed s [] s
  | cons {s s' : State} {c : Char} {r : Text} :
      allowed (s.effect c) → (s.next c).isClosed = false → Passes allowed (s.next c) r s' →
      Passes allowed s (c :: r) s'

/-- Any effect at all. -/
def anyEffect (_ : Effect) : Prop := True

variable {allowed : Effect → Prop} {s s₁ s₂ s₃ : State} {t u : Text}

theorem Passes.mono {allowed' : Effect → Prop} (himp : ∀ e, allowed e → allowed' e)
    (h : Passes allowed s₁ u s₂) : Passes allowed' s₁ u s₂ := by
  induction h with
  | nil s => exact .nil s
  | cons ha hc _ ih => exact .cons (himp _ ha) hc ih

theorem Passes.any (h : Passes allowed s₁ u s₂) : Passes anyEffect s₁ u s₂ :=
  h.mono fun _ _ => trivial

theorem Passes.append (h₁ : Passes allowed s₁ t s₂) (h₂ : Passes allowed s₂ u s₃) :
    Passes allowed s₁ (t ++ u) s₃ := by
  induction h₁ with
  | nil s => exact h₂
  | cons ha hc _ ih => exact .cons ha hc (ih h₂)

/-- One character, passed over. -/
theorem Passes.single {c : Char} (ha : allowed (s₁.effect c)) (hn : s₁.next c = s₂)
    (hc : s₂.isClosed = false) : Passes allowed s₁ [c] s₂ := by
  subst hn
  exact .cons ha hc (.nil _)

/-- A character that is part of a token wherever it stands between the
outermost parentheses. -/
def IsPlain (c : Char) : Prop :=
  c ≠ '(' ∧ c ≠ ')' ∧ Atom.isQuote c = false ∧ Text.isBlank c = false ∧ c ≠ '+'

instance : DecidablePred IsPlain := fun c => inferInstanceAs (Decidable
  (c ≠ '(' ∧ c ≠ ')' ∧ Atom.isQuote c = false ∧ Text.isBlank c = false ∧ c ≠ '+'))

/-- A word of plain characters is kept between the outermost parentheses. -/
theorem passes_plain {w : Text} (h : ∀ c ∈ w, IsPlain c) (p : Option Char) :
    ∃ p', Passes (· = .keep) (.inside 0 p) w (.inside 0 p') := by
  induction w generalizing p with
  | nil => exact ⟨p, .nil _⟩
  | cons c r ih =>
      obtain ⟨ho, hc, hq, hb, hplus⟩ := h c List.mem_cons_self
      have hn : (State.inside 0 p).next c = .inside 0 (some c) :=
        State.next_inside_of_not_quote ho hc hq
      obtain ⟨p', hp⟩ := ih (fun d hd => h d (List.mem_cons_of_mem c hd)) (some c)
      refine ⟨p', .cons (State.effect_inside_char ho hc hb hplus) ?_ ?_⟩
      · rw [hn, State.isClosed_inside]
      · rw [hn]
        exact hp

attribute [ext] Scan

/-- The scan with a text in front that is read from a state. -/
def Scan.afterText (s : State) : Text → Scan → Scan
  | [], x => x
  | c :: r, x => (afterText (s.next c) r x).after (s.effect c) c

/-- The scan of a text that is passed over and of what follows it. -/
theorem scanFrom_append (h : Passes allowed s₁ u s₂) (r : Text) :
    scanFrom s₁ (u ++ r) = (scanFrom s₂ r).afterText s₁ u := by
  induction h with
  | nil s => rfl
  | cons _ hc _ ih =>
      rw [List.cons_append, scanFrom, Scan.afterText, ← ih]
      simp [hc]

@[simp] theorem Scan.valid_afterText (s : State) (u : Text) (x : Scan) :
    (x.afterText s u).valid = x.valid := by
  induction u generalizing s with
  | nil => rfl
  | cons c r ih => rw [afterText, valid_after, ih]

@[simp] theorem Scan.length_afterText (s : State) (u : Text) (x : Scan) :
    (x.afterText s u).length = u.length + x.length := by
  induction u generalizing s with
  | nil => simp [afterText]
  | cons c r ih =>
      rw [afterText, length_after, ih, List.length_cons]
      omega

/-- A text that is kept goes in front of the first token. -/
theorem Scan.tokens_afterText_of_keep (h : Passes (· = .keep) s₁ u s₂) {x : Scan}
    {token : Text} {rest : List Text} (hx : x.tokens = token :: rest) :
    (x.afterText s₁ u).tokens = (u ++ token) :: rest := by
  induction h with
  | nil s => exact hx
  | cons ha _ _ ih => simp only [afterText, after, ha, ih, List.cons_append]

/-- A text that is left out leaves the tokens alone. -/
theorem Scan.tokens_afterText_of_skip (h : Passes (· = .skip) s₁ u s₂) (x : Scan) :
    (x.afterText s₁ u).tokens = x.tokens := by
  induction h with
  | nil s => rfl
  | cons ha _ _ ih => simp only [afterText, after, ha, ih]

/-- What a scan with a text in front makes of the tokens does not depend on the
rest of it. -/
theorem Scan.tokens_afterText_congr {x y : Scan} (h : x.tokens = y.tokens) (s : State) (u : Text) :
    (x.afterText s u).tokens = (y.afterText s u).tokens := by
  induction u generalizing s with
  | nil => exact h
  | cons c r ih => simp only [afterText, after, ih]

theorem tokens_scanFrom_of_keep (h : Passes (· = .keep) s₁ u s₂) {r token : Text}
    {rest : List Text} (hr : (scanFrom s₂ r).tokens = token :: rest) :
    (scanFrom s₁ (u ++ r)).tokens = (u ++ token) :: rest := by
  rw [scanFrom_append h]
  exact Scan.tokens_afterText_of_keep h hr

/-- The scan of a text that is kept and of what follows it. -/
theorem scanFrom_append_of_keep (h : Passes (· = .keep) s₁ u s₂) (r : Text) :
    scanFrom s₁ (u ++ r) = ⟨(scanFrom s₂ r).tokens.modifyHead (u ++ ·), (scanFrom s₂ r).valid,
      u.length + (scanFrom s₂ r).length⟩ := by
  obtain ⟨first, others, htokens⟩ := List.exists_cons_of_ne_nil (tokens_scanFrom_ne_nil s₂ r)
  refine Scan.ext ?_ ?_ ?_
  · rw [tokens_scanFrom_of_keep h htokens, htokens, List.modifyHead_cons]
  · rw [scanFrom_append h, Scan.valid_afterText]
  · rw [scanFrom_append h, Scan.length_afterText]

/-- The scan of a text that is left out and of what follows it. -/
theorem scanFrom_append_of_skip (h : Passes (· = .skip) s₁ u s₂) (r : Text) :
    scanFrom s₁ (u ++ r) = ⟨(scanFrom s₂ r).tokens, (scanFrom s₂ r).valid,
      u.length + (scanFrom s₂ r).length⟩ := by
  rw [scanFrom_append h]
  exact Scan.ext (Scan.tokens_afterText_of_skip h _) (Scan.valid_afterText _ _ _)
    (Scan.length_afterText _ _ _)

/-- The parenthesis that closes the first one ends the scan. -/
theorem scanFrom_inside_close (p : Option Char) (r : Text) :
    scanFrom (.inside 0 p) (')' :: r) = ⟨[[]], true, 1⟩ := by
  simp [scanFrom, Scan.after]

/-- A scan has a first token. -/
theorem exists_tokens_scan (t : Text) : ∃ first others, (scan t).tokens = first :: others :=
  List.exists_cons_of_ne_nil (tokens_scanFrom_ne_nil {} t)

/-- The only token of a word in parentheses is the word. -/
theorem scan_plain {w : Text} (h : ∀ c ∈ w, IsPlain c) (r : Text) :
    scan ('(' :: w ++ ')' :: r) = ⟨[w], true, w.length + 2⟩ := by
  obtain ⟨p, hp⟩ := passes_plain h (some '(')
  have hopen : scan ('(' :: w ++ ')' :: r) =
      (scanFrom (.inside 0 (some '(')) (w ++ ')' :: r)).after .skip '(' := rfl
  rw [hopen, scanFrom_append_of_keep hp, scanFrom_inside_close]
  simp [Scan.after]

/-! ### Ending and not ending -/

/-- A scan that is not of a complete argument has read the whole text. -/
theorem length_scanFrom_of_not_valid (h : (scanFrom s t).valid = false) :
    (scanFrom s t).length = t.length + 1 := by
  induction t generalizing s with
  | nil => rfl
  | cons c r ih =>
      rw [scanFrom] at h ⊢
      by_cases hc : (s.next c).isClosed = true
      · simp [hc] at h
      · simp only [hc, Scan.valid_after] at h
        simp [hc, ih h]

/-- A scan that ends inside the text is of a complete argument, and depends on
nothing behind its end. -/
theorem scanFrom_take_append (h : (scanFrom s t).length ≤ t.length) (r : Text) :
    (scanFrom s t).valid = true ∧
      scanFrom s (t.take (scanFrom s t).length ++ r) = scanFrom s t := by
  induction t generalizing s with
  | nil => simp [scanFrom] at h
  | cons c u ih =>
      by_cases hc : (s.next c).isClosed = true
      · simp [scanFrom, hc, Scan.after]
      · simp only [scanFrom, hc, if_false, Bool.false_eq_true, Scan.length_after,
          List.length_cons] at h
        obtain ⟨hv, he⟩ := ih (Nat.le_of_succ_le_succ h)
        simp [scanFrom, hc, hv, he]

end LogCalls.Argument
