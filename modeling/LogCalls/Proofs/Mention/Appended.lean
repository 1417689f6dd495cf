/-
LogCalls/Proofs/Mention/Appended.lean

Mentions of two texts, the second of which starts on a line of its own.  No
mention stands on both sides of the end of a line, and a line feed is no word
character, so each text keeps its own mentions: those of the first text stand
where they stood, and those of the second one are shifted (`all_append`).
-/
import LogCalls.Proofs.Mention.Places

namespace LogCalls.Mention

variable {a b : Text}

@[simp] theorem start_shift (n : Nat) (m : Mention) : (shift n m).start = m.start + n := rfl

@[simp] theorem stop_shift (n : Nat) (m : Mention) : (shift n m).stop = m.stop + n := by
  simp only [stop, shift]
  omega

theorem isWord_newline : Text.isWord '\n' = false := by decide

theorem wording_ne_nil {s : Stream} {method : Text} (h : method ∈ methods) :
    wording s method ≠ [] ∧ '\n' ∉ wording s method := by
  obtain ⟨w, hw, -, hn⟩ := exists_wording_eq_cons (s := s) h
  rw [hw]
  exact ⟨List.cons_ne_nil 'S' w, by simpa using hn⟩

/-- What is mentioned in a line does not depend on what follows the line. -/
theorem here?_append (ha : a.getLast? = some '\n') (b : Text) (before : Option Char) :
    here? before (a ++ b) = here? before a := by
  refine Option.ext fun ⟨s, method⟩ => ?_
  rw [here?_eq_some_iff, here?_eq_some_iff]
  refine and_congr_right fun _ => and_congr_right fun hmethod => ?_
  obtain ⟨hne, hline⟩ := wording_ne_nil (s := s) hmethod
  constructor
  · rintro ⟨r, hr, hword⟩
    rcases Text.word_before_or_behind (x := []) ha hline hne hr with ⟨c, r', hc, rfl⟩ | ⟨x, hx, -⟩
    · exact ⟨c :: r', hc, hword⟩
    · rw [(List.append_eq_nil_iff.mp hx.symm).1] at ha
      cases ha
  · rintro ⟨r, rfl, hword⟩
    obtain ⟨c, r', rfl⟩ :=
      List.exists_cons_of_ne_nil (Text.ne_nil_of_endsLine (x := []) ha hline hne)
    exact ⟨c :: r' ++ b, List.append_assoc _ _ _, hword⟩

/-- A line feed counts as no character before a text. -/
theorem allFrom_newline (position : Nat) (b : Text) :
    allFrom position (some '\n') b = allFrom position none b := by
  cases b with
  | nil => rfl
  | cons c r => simp [allFrom, here?, isWord_newline]

theorem allFrom_add (position n : Nat) (before : Option Char) (b : Text) :
    allFrom (position + n) before b = (allFrom position before b).map (shift n) := by
  induction b generalizing position before with
  | nil => rfl
  | cons c r ih =>
      have hrest := ih (position + 1) (some c)
      rw [Nat.add_right_comm] at hrest
      rw [allFrom, allFrom, hrest]
      rcases here? before (c :: r) with _ | ⟨s, method⟩
      · rfl
      · simp [shift]

theorem allFrom_append (ha : a.getLast? = some '\n') (position : Nat) (before : Option Char)
    (b : Text) :
    allFrom position before (a ++ b) =
      allFrom position before a ++ allFrom (position + a.length) none b := by
  induction a generalizing position before with
  | nil => cases ha
  | cons c r ih =>
      have hhere := here?_append ha b before
      rw [List.cons_append] at hhere ⊢
      have hrest : allFrom (position + 1) (some c) (r ++ b) =
          allFrom (position + 1) (some c) r ++ allFrom (position + (c :: r).length) none b := by
        rcases r with _ | ⟨d, r⟩
        · obtain rfl : c = '\n' := Option.some.inj ha
          exact allFrom_newline _ b
        · rw [ih (by simpa using ha), List.length_cons (a := c), Nat.add_right_comm]
          rfl
      rw [allFrom, allFrom, hhere, hrest]
      rcases here? before (c :: r) with _ | ⟨s, method⟩ <;> rfl

/-- The mentions of a text that goes on behind the end of a line. -/
theorem all_append (ha : a.getLast? = some '\n') (b : Text) :
    all (a ++ b) = all a ++ (all b).map (shift a.length) := by
  rw [all, allFrom_append ha, allFrom_add]
  rfl

end LogCalls.Mention
