/-
LogCalls/Proofs/Position/Lines.lean

Lines of a text in its pieces.  Every place of a text lies on a line, from its
first character to its end (`exists_isLine`), and the pieces tell where the line
of a place starts and what stands on it (`IsLine.lineStart_eq`,
`IsLine.lineFrom_eq`).

A column beyond an end of its line means that end, so all columns of a line that
the text has are places on that line (`exists_isLine_of_offset`).

A line feed ends a line whatever follows it, so what holds of the lines of a text is
proved line by line (`induction_lines`), and the lines that have ended stay where a
text goes on in another way (`EndsLine.exists_lines_append`).
-/
import LogCalls.Position
import LogCalls.Proofs.Text.Places

namespace LogCalls

namespace Text

/-- A line of a text, with what stands before and behind it. -/
structure IsLine (before line behind t : Text) : Prop where
  text : t = before ++ line ++ behind
  starts : EndsLine before
  free : '\n' ∉ line
  ends : behind = [] ∨ behind.head? = some '\n'

variable {before line behind t : Text}

/-- A line in front of lines that have ended. -/
theorem EndsLine.append (h : EndsLine before) (l : Text) : EndsLine (l ++ '\n' :: before) := by
  refine .inr ?_
  rcases h with rfl | hlast
  · exact List.getLast?_concat
  · obtain ⟨b, rfl⟩ := List.getLast?_eq_some_iff.mp hlast
    rw [← List.cons_append, ← List.append_assoc]
    exact List.getLast?_concat

/-- A line starts no later than its places. -/
theorem lineStart_le (t : Text) {offset : Int} (h : 0 ≤ offset) : lineStart t offset ≤ offset := by
  have hupTo : (upTo t offset).length ≤ offset := by
    rw [upTo, List.length_take, place, if_neg (Int.not_lt.mpr h)]
    omega
  show (((upTo t offset).length - _ : Nat) : Int) ≤ offset
  omega

/-- Every place of a text lies on a line. -/
theorem exists_isLine {offset : Nat} (h : offset ≤ t.length) :
    ∃ before line behind, IsLine before line behind t ∧ before.length ≤ offset ∧
      offset ≤ (before ++ line).length := by
  obtain ⟨a, b, hab, ha, hb⟩ := exists_endsLine_append (t.take offset)
  have hlength : (a ++ b).length = offset := by
    rw [← hab, List.length_take, Nat.min_eq_left h]
  have htext : t = a ++ (b ++ (t.drop offset).takeWhile (· ≠ '\n')) ++
      (t.drop offset).dropWhile (· ≠ '\n') := by
    rw [List.append_assoc, List.append_assoc, List.takeWhile_append_dropWhile, ← List.append_assoc,
      ← hab, List.take_append_drop]
  refine ⟨a, b ++ (t.drop offset).takeWhile (· ≠ '\n'), (t.drop offset).dropWhile (· ≠ '\n'),
    ⟨htext, ha, ?_, ?_⟩, ?_, ?_⟩
  · rw [List.mem_append, not_or]
    exact ⟨hb, not_mem_takeWhile_line _⟩
  · rcases hd : (t.drop offset).dropWhile (· ≠ '\n') with _ | ⟨c, r⟩
    · exact .inl rfl
    · have hc := List.head?_dropWhile_not (fun c => decide (c ≠ '\n')) (t.drop offset)
      rw [hd] at hc
      have : c = '\n' := by simpa using hc
      exact .inr (congrArg some this)
  · rw [← hlength, List.length_append]
    omega
  · rw [← hlength, ← List.append_assoc]
    exact (List.prefix_append (a ++ b) _).length_le

namespace IsLine

variable (h : IsLine before line behind t)
include h

theorem lineStart_eq {offset : Nat} (hlow : before.length ≤ offset)
    (hhigh : offset ≤ (before ++ line).length) : lineStart t offset = before.length := by
  -- the place cuts the line in two
  obtain ⟨x, y, rfl, hx⟩ : ∃ x y, line = x ++ y ∧ (before ++ x).length = offset := by
    refine ⟨line.take (offset - before.length), line.drop (offset - before.length),
      (List.take_append_drop _ _).symm, ?_⟩
    rw [List.length_append] at hhigh
    rw [List.length_append, List.length_take]
    omega
  have hfree : '\n' ∉ x := fun hmem => h.free (List.mem_append_left y hmem)
  have htext : t = before ++ x ++ (y ++ behind) := by
    rw [h.text]
    simp
  rw [htext, ← hx, lineStart_length_append h.starts hfree]

theorem lineFrom_eq : lineFrom t before.length = line := by
  have hend : behind.takeWhile (· ≠ '\n') = [] := by
    rcases h.ends with hnil | hhead
    · rw [hnil]
      rfl
    · obtain ⟨r, hr⟩ := List.head?_eq_some_iff.mp hhead
      rw [hr]
      rfl
  rw [h.text, List.append_assoc, lineFrom_length_append, takeWhile_line_append h.free, hend,
    List.append_nil]

end IsLine

/-! ### Texts line by line -/

/-- What holds of a last line, and of a text with one line more in front, holds of every
text. -/
theorem induction_lines {P : Text → Prop} (last : ∀ l, '\n' ∉ l → P l)
    (line : ∀ l r, '\n' ∉ l → P r → P (l ++ '\n' :: r)) (t : Text) : P t := by
  by_cases h : '\n' ∈ t
  · obtain ⟨l, r, ht, hl⟩ := List.eq_append_cons_of_mem h
    rw [ht]
    exact line l r hl (induction_lines last line r)
  · exact last t h
termination_by t.length
decreasing_by
  rw [ht, List.length_append, List.length_cons]
  omega

/-- The lines on both sides of a line feed are the lines of a text. -/
theorem lines_append_newline (x y : Text) : lines (x ++ '\n' :: y) = lines x ++ lines y := by
  have hnewline (t : Text) : lines ('\n' :: t) = [] :: lines t := if_pos rfl
  induction x with
  | nil => exact hnewline y
  | cons c x ih =>
      by_cases hc : c = '\n'
      · subst hc
        rw [List.cons_append, hnewline, hnewline, ih, List.cons_append]
      · rcases hx : lines x with _ | ⟨l, ls⟩
        · exact absurd hx (lines_ne_nil x)
        rw [hx] at ih
        rw [List.cons_append, lines, if_neg hc, ih, lines, if_neg hc, hx]
        rfl

theorem lines_of_not_mem {l : Text} (h : '\n' ∉ l) : lines l = [l] := by
  induction l with
  | nil => rfl
  | cons c l ih =>
      rw [List.mem_cons, not_or] at h
      rw [lines, if_neg (Ne.symm h.1), ih h.2]

theorem lines_line_append {l : Text} (h : '\n' ∉ l) (r : Text) :
    lines (l ++ '\n' :: r) = l :: lines r := by
  rw [lines_append_newline, lines_of_not_mem h, List.singleton_append]

/-- Lines that have ended do not depend on what follows them. -/
theorem EndsLine.exists_lines_append {before : Text} (h : EndsLine before) :
    ∃ above, above.length = before.count '\n' ∧
      ∀ y, lines (before ++ y) = above ++ lines y := by
  rcases h with rfl | hlast
  · exact ⟨[], rfl, fun _ => rfl⟩
  · obtain ⟨b, rfl⟩ := List.getLast?_eq_some_iff.mp hlast
    refine ⟨lines b, ?_, fun y => ?_⟩
    · rw [length_lines, List.count_append, List.count_singleton_self]
    · rw [List.append_assoc, List.singleton_append, lines_append_newline]

end Text

namespace Position

open Text

variable {t : Text}

/-- The lines that a text is cut into are lines of it, each where it starts. -/
theorem exists_isLine_of_index {index : Nat} (h : index < (lines t).length) :
    ∃ before behind, IsLine before ((lines t).getD index []) behind t ∧
      startOfLine (lines t) index = before.length := by
  induction t using induction_lines generalizing index with
  | last l hl =>
      rw [lines_of_not_mem hl] at h ⊢
      obtain rfl : index = 0 := Nat.lt_one_iff.mp h
      exact ⟨[], [], ⟨(List.append_nil l).symm, .inl rfl, hl, .inl rfl⟩, rfl⟩
  | line l r hl ih =>
      rw [lines_line_append hl] at h ⊢
      rcases index with _ | index
      · exact ⟨[], '\n' :: r, ⟨rfl, .inl rfl, hl, .inr rfl⟩, rfl⟩
      · obtain ⟨before, behind, hline, hstart⟩ := ih (Nat.lt_of_succ_lt_succ h)
        refine ⟨l ++ '\n' :: before, behind,
          ⟨?_, hline.starts.append l, hline.free, hline.ends⟩, ?_⟩
        · rw [List.getD_cons_succ, List.append_assoc, List.append_assoc, List.cons_append,
            ← List.append_assoc before, ← hline.text]
        · rw [startOfLine, hstart, List.length_append, List.length_cons]
          omega

/-- All columns of a line that a text has are places on that line. -/
theorem exists_isLine_of_offset {number : Int} (hfirst : 1 ≤ number)
    (hlast : number ≤ (lines t).length) :
    ∃ before line behind, IsLine before line behind t ∧ ∀ column : Int,
      ∃ place : Nat, offset t number column = .ok place ∧ before.length ≤ place ∧
        place ≤ (before ++ line).length := by
  have hindex : (number - 1).toNat < (lines t).length := by omega
  obtain ⟨before, behind, hline, hstart⟩ := exists_isLine_of_index hindex
  refine ⟨before, _, behind, hline, fun column => ⟨_, if_pos ⟨hfirst, hlast⟩, ?_, ?_⟩⟩
  · rw [hstart]
    omega
  · rw [hstart, List.length_append]
    omega

end Position

end LogCalls
