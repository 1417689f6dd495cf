/-
LogCalls/Proofs/Argument/Layout.lean

Blanks between the pieces of an argument.  At a position where the scan stands
between the outermost parentheses and in no literal it skips blanks, and behind
them it stands where it stood before, but for the character before, which means
nothing there (`scanFrom_blanks`).

These positions are the ones behind whole rows of items
(`exists_passes_iff_body`).

Main result: `read_insert_blanks`.
-/
import LogCalls.Proofs.Argument.Tokens

namespace LogCalls.Argument

open State

/-- The scan stands between the outermost parentheses and in no literal. -/
def State.IsBetween (s : State) : Prop := s.level = 1 ∧ s.quote = none

theorem isBetween_inside (p : Option Char) : (inside 0 p).IsBetween := ⟨rfl, rfl⟩

/-! ### Skipping blanks -/

section

variable {s : State} {w : Text}

theorem State.IsBetween.next_blank (h : s.IsBetween) {c : Char} (hc : Text.isBlank c = true) :
    s.next c = { s with previous := some c } := by
  obtain ⟨ho, hclose⟩ := ne_parens_of_isBlank hc
  simp [State.next, h.2, ho, hclose, isQuote_eq_false_of_isBlank hc]

theorem State.IsBetween.effect_blank (h : s.IsBetween) {c : Char} (hc : Text.isBlank c = true) :
    s.effect c = .skip := by
  obtain ⟨ho, hclose⟩ := ne_parens_of_isBlank hc
  simp [State.effect, h.1, h.2, ho, hclose, isQuote_eq_false_of_isBlank hc, hc]

/-- Blanks are skipped, and nothing is left of them but the character before. -/
theorem State.IsBetween.passes_blanks (h : s.IsBetween) (hw : ∀ c ∈ w, Text.isBlank c = true) :
    ∃ p, Passes (· = .skip) s w { s with previous := p } := by
  induction w generalizing s with
  | nil => exact ⟨s.previous, .nil _⟩
  | cons c r ih =>
      obtain ⟨hc, hr⟩ := List.forall_mem_cons.mp hw
      have hn := h.next_blank hc
      have hopen : (s.next c).isClosed = false := by
        rw [hn, State.isClosed, h.1]
        exact Bool.and_false _
      obtain ⟨p, hp⟩ := ih (s := s.next c) (by rw [hn]; exact h) hr
      refine ⟨p, .cons (h.effect_blank hc) hopen ?_⟩
      rwa [hn] at hp ⊢

/-- Behind blanks the scan goes on as if they were not there. -/
theorem scanFrom_blanks (h : s.IsBetween) (hw : ∀ c ∈ w, Text.isBlank c = true) (y : Text) :
    scanFrom s (w ++ y) =
      ⟨(scanFrom s y).tokens, (scanFrom s y).valid, w.length + (scanFrom s y).length⟩ := by
  obtain ⟨p, hp⟩ := h.passes_blanks hw
  rw [scanFrom_append_of_skip hp, scanFrom_withPrevious h.2]

/-- The scan of a text with blanks put in where the scan stands between the
outermost parentheses. -/
theorem scan_insert_blanks {x : Text} (hx : Passes anyEffect {} x s) (h : s.IsBetween)
    (hw : ∀ c ∈ w, Text.isBlank c = true) (y : Text) :
    scan (x ++ (w ++ y)) =
      ⟨(scan (x ++ y)).tokens, (scan (x ++ y)).valid, (scan (x ++ y)).length + w.length⟩ := by
  have hblanks := scanFrom_blanks h hw y
  rw [scan, scan, scanFrom_append hx, scanFrom_append hx]
  refine Scan.ext (Scan.tokens_afterText_congr ?_ _ _) ?_ ?_
  · rw [hblanks]
  · rw [Scan.valid_afterText, Scan.valid_afterText, hblanks]
  · rw [Scan.length_afterText, Scan.length_afterText, hblanks]
    exact (Nat.add_left_comm _ _ _).trans (Nat.add_comm _ _)

end

/-! ### The positions between pieces -/

/-- What has been opened stays opened. -/
theorem Passes.entered {allowed : Effect → Prop} {s s' : State} {u : Text}
    (h : Passes allowed s u s') (hs : s.entered = true) : s'.entered = true := by
  induction h with
  | nil s => exact hs
  | @cons s s' c r _ _ _ ih =>
      refine ih ?_
      unfold State.next
      split
      · exact hs
      split
      · rfl
      split
      · exact hs
      split <;> exact hs

/-- Behind its first parenthesis a scan stands between the outermost parentheses
and in no literal exactly where it has read a row of items. -/
theorem exists_passes_iff_body {b : Text} :
    (∃ s : State, Passes anyEffect {} ('(' :: b) s ∧ s.IsBetween) ↔ Body b := by
  constructor
  · rintro ⟨s, hs, hlevel, hquote⟩
    have hentered : s.entered = true := by
      cases hs with
      | cons _ _ hrest => exact hrest.entered rfl
    -- a parenthesis put there closes the argument
    have hclosed : (s.next ')').isClosed = true := by
      simp [State.next, State.isClosed, hlevel, hquote, hentered]
    have hclose : scanFrom s [')'] = (Scan.mk [[]] true 0).after (s.effect ')') ')' := by
      rw [scanFrom, if_pos hclosed]
    have hscan := scanFrom_append hs [')']
    rw [hclose] at hscan
    refine (scan_ends_iff (List.not_mem_nil (a := '(')) List.not_mem_nil b []).mp ?_
    rw [List.append_nil, List.nil_append, scan, hscan]
    exact ⟨Scan.valid_afterText _ _ _, by simp⟩
  · intro hb
    obtain ⟨p, hp⟩ := hb.passes (some '(')
    exact ⟨inside 0 p, .cons trivial rfl hp, isBetween_inside p⟩

/-! ### Blanks in an argument -/

/-- **Layout does not matter.**  At any position where the scan stands between
the outermost parentheses and in no literal, blanks can be put in: what is read
has the same atoms and is complete or not as before, and it is longer by the
blanks.  Where it cannot be read, it cannot be read for the same fault. -/
theorem read_insert_blanks {x w : Text} {s : State} (hx : Passes anyEffect {} x s)
    (hlevel : s.level = 1) (hquote : s.quote = none) (hw : ∀ c ∈ w, Text.isBlank c = true)
    (y : Text) :
    (read (x ++ (w ++ y))).result =
      (read (x ++ y)).result.map fun a => { a with length := a.length + w.length } := by
  rw [result_read, result_read, scan_insert_blanks hx ⟨hlevel, hquote⟩ hw]
  rcases (scan (x ++ y)).tokens.mapM Atom.ofToken with e | atoms
  · rfl
  · rfl

/-- A blank between a backslash and a quote: without it the backslash stands
right before the quote, as if it were to escape it. -/
theorem read_insert_blanks_behind_backslash :
    (read "(\\\"b\" + c);".toList).result =
        .ok ⟨[.expression "\\\"b\"".toList, .expression ['c']], true, 10⟩ ∧
      (read "(\\ \n\"b\" + c);".toList).result =
        .ok ⟨[.expression "\\\"b\"".toList, .expression ['c']], true, 12⟩ := by
  have hx : Passes anyEffect {} ['(', '\\'] (inside 0 (some '\\')) :=
    .cons trivial rfl (.cons trivial rfl (.nil _))
  have hread : (read "(\\\"b\" + c);".toList).result =
      .ok ⟨[.expression "\\\"b\"".toList, .expression ['c']], true, 10⟩ := by rfl
  have hblanks : ∀ c ∈ [' ', '\n'], Text.isBlank c = true := List.all_eq_true.mp rfl
  have hinsert := read_insert_blanks hx rfl rfl hblanks "\"b\" + c);".toList
  have hwithout : ['(', '\\'] ++ "\"b\" + c);".toList = "(\\\"b\" + c);".toList := rfl
  rw [hwithout, hread] at hinsert
  exact ⟨hread, hinsert⟩

end LogCalls.Argument
