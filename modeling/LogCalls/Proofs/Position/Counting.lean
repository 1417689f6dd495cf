/-
LogCalls/Proofs/Position/Counting.lean

Offsets against counting.  The places of a line are those that have as many line
feeds before them as the line itself (`IsLine.count_take_eq_iff`), so the line of a
place is found by counting, and its column by what is left.

Main result: for every place of a text there is one line with one column between
the ends of that line that has this offset, and every line that the text has keeps
all columns on it (`offset_inverts_counting`).
-/
import LogCalls.Proofs.Position.Lines

namespace LogCalls

namespace Text.IsLine

variable {before line behind t : Text}

/-- The places of a line are those with as many line feeds before them. -/
theorem count_take_eq_iff (h : IsLine before line behind t) {place : Nat}
    (hplace : place ≤ t.length) :
    (t.take place).count '\n' = before.count '\n' ↔
      before.length ≤ place ∧ place ≤ (before ++ line).length := by
  have hline : line.count '\n' = 0 := List.count_eq_zero.mpr h.free
  rcases Nat.lt_or_ge place before.length with hlow | hlow
  · -- the line feed in front of the line comes behind the place
    have hne : before ≠ [] := List.ne_nil_of_length_pos (by omega)
    obtain ⟨b, rfl⟩ := List.getLast?_eq_some_iff.mp (h.starts.resolve_left hne)
    rw [List.length_append, List.length_singleton] at hlow
    have htake : t.take place = b.take place := by
      rw [h.text, List.append_assoc, List.append_assoc, List.take_append_of_le_length (by omega)]
    have hless : (b.take place).count '\n' ≤ b.count '\n' :=
      (List.take_sublist place b).count_le '\n'
    rw [htake, List.count_append, List.count_singleton_self, List.length_append,
      List.length_singleton]
    omega
  rcases Nat.lt_or_ge (before ++ line).length place with hhigh | hhigh
  · -- the line feed behind the line comes in front of the place
    have hlength : t.length = (before ++ line).length + behind.length := by
      rw [h.text, List.length_append]
    have hne : behind ≠ [] := List.ne_nil_of_length_pos (by omega)
    obtain ⟨r, rfl⟩ := List.head?_eq_some_iff.mp (h.ends.resolve_left hne)
    obtain ⟨n, rfl⟩ := Nat.exists_eq_add_of_lt hhigh
    have htake : t.take ((before ++ line).length + n + 1) = before ++ line ++ '\n' :: r.take n := by
      rw [h.text, Nat.add_assoc, List.take_length_add_append, List.take_succ_cons]
    rw [htake, List.count_append, List.count_append, List.count_cons_self, hline]
    omega
  · -- the place cuts the line itself
    obtain ⟨n, rfl⟩ := Nat.exists_eq_add_of_le hlow
    rw [List.length_append] at hhigh
    have htake : t.take (before.length + n) = before ++ line.take n := by
      rw [h.text, List.append_assoc, List.take_length_add_append,
        List.take_append_of_le_length (by omega)]
    have hpart : (line.take n).count '\n' = 0 :=
      List.count_eq_zero.mpr fun hmem => h.free (List.mem_of_mem_take hmem)
    rw [htake, List.count_append, hpart, List.length_append]
    omega

end Text.IsLine

namespace Position

open Text

variable {t : Text}

/-- A line starts behind as many line feeds as there are lines before it. -/
theorem count_take_startOfLine {index : Nat} (h : index < (lines t).length) :
    (t.take (startOfLine (lines t) index)).count '\n' = index := by
  induction t using induction_lines generalizing index with
  | last l hl =>
      rw [lines_of_not_mem hl] at h ⊢
      obtain rfl : index = 0 := Nat.lt_one_iff.mp h
      rw [startOfLine, List.take_zero, List.count_nil]
  | line l r hl ih =>
      rw [lines_line_append hl] at h ⊢
      rcases index with _ | index
      · rw [startOfLine, List.take_zero, List.count_nil]
      · rw [startOfLine, Nat.add_assoc, Nat.add_comm 1, List.take_length_add_append,
          List.take_succ_cons, List.count_append, List.count_cons_self,
          List.count_eq_zero.mpr hl, ih (Nat.lt_of_succ_lt_succ h), Nat.zero_add]

/-- The line with an index stands behind as many line feeds. -/
theorem exists_isLine_of_count {index : Nat} (h : index ≤ t.count '\n') :
    ∃ before behind, IsLine before ((lines t).getD index []) behind t ∧
      startOfLine (lines t) index = before.length ∧ before.count '\n' = index := by
  have hindex : index < (lines t).length := by
    rw [length_lines]
    omega
  obtain ⟨before, behind, hline, hstart⟩ := exists_isLine_of_index hindex
  refine ⟨before, behind, hline, hstart, ?_⟩
  have htake : t.take before.length = before := by
    rw [hline.text, List.append_assoc, List.take_left]
  rw [← htake, ← hstart, count_take_startOfLine hindex]

/-- A line that the text has takes every column, and any other line takes none. -/
theorem offset_cases (t : Text) (line column : Int) :
    (∃ index : Nat, line = index + 1 ∧ index ≤ t.count '\n' ∧
        offset t line column = .ok (startOfLine (lines t) index +
          (min (column - 1) ((lines t).getD index []).length).toNat)) ∨
      ¬ (1 ≤ line ∧ line ≤ t.count '\n' + 1) ∧
        offset t line column = .error (.lineOutside line (t.count '\n' + 1)) := by
  by_cases hline : 1 ≤ line ∧ line ≤ ((lines t).length : Nat)
  · refine .inl ⟨(line - 1).toNat, by omega, ?_, if_pos hline⟩
    rw [length_lines] at hline
    omega
  · have hoffset : offset t line column = .error (.lineOutside line (lines t).length) :=
      if_neg hline
    rw [length_lines] at hline hoffset
    exact .inr ⟨by exact_mod_cast hline, hoffset⟩

/-- The offset of a line stands behind as many line feeds as there are lines before
that line. -/
theorem count_take_of_offset {line column : Int} {place : Nat}
    (h : offset t line column = .ok place) :
    place ≤ t.length ∧ ((t.take place).count '\n' : Int) = line - 1 := by
  rcases offset_cases t line column with ⟨index, rfl, hindex, hoffset⟩ | ⟨-, hoffset⟩
  · obtain ⟨before, behind, hline, hstart, hcount⟩ := exists_isLine_of_count hindex
    rw [hoffset, Except.ok.injEq, hstart] at h
    have hlow : before.length ≤ place := by omega
    have hhigh : place ≤ (before ++ (lines t).getD index []).length := by
      rw [List.length_append]
      omega
    have hplace : place ≤ t.length := by
      rw [hline.text, List.length_append]
      omega
    refine ⟨hplace, ?_⟩
    rw [(hline.count_take_eq_iff hplace).mpr ⟨hlow, hhigh⟩, hcount]
    omega
  · rw [hoffset] at h
    cases h

/-- The offset of a line and a column lies on a line with as many lines above it. -/
theorem exists_isLine_of_offset_eq {line column : Int} {place : Nat}
    (h : offset t line column = .ok place) :
    ∃ before row behind, IsLine before row behind t ∧ before.length ≤ place ∧
      place ≤ (before ++ row).length ∧ (before.count '\n' : Int) = line - 1 := by
  obtain ⟨hplace, hcount⟩ := count_take_of_offset h
  obtain ⟨before, row, behind, hline, hlow, hhigh⟩ := exists_isLine hplace
  refine ⟨before, row, behind, hline, hlow, hhigh, ?_⟩
  rw [← hcount, (hline.count_take_eq_iff hplace).mpr ⟨hlow, hhigh⟩]

/-- **Offsets invert counting.**  Every place of a text is the offset of exactly one
line with a column from one to one behind the last character of that line, and this
line is one more than the line feeds before the place.  A line that the text has
takes every column to a place behind as many line feeds as there are lines before it;
exactly the other lines are refused. -/
theorem offset_inverts_counting (t : Text) :
    (∀ place ≤ t.length, ∃ column : Int, ∀ p : Int × Int,
      (1 ≤ p.2 ∧ p.2 ≤ ((lines t).getD (p.1 - 1).toNat []).length + 1 ∧
          offset t p.1 p.2 = .ok place) ↔
        p = (((t.take place).count '\n' : Int) + 1, column)) ∧
      ∀ line column : Int,
        (1 ≤ line ∧ line ≤ t.count '\n' + 1 → ∃ place ≤ t.length,
          offset t line column = .ok place ∧ (t.take place).count '\n' = line - 1) ∧
        (offset t line column = .error (.lineOutside line (t.count '\n' + 1)) ↔
          ¬ (1 ≤ line ∧ line ≤ t.count '\n' + 1)) := by
  refine ⟨fun place hplace => ?_, fun line column => ?_⟩
  · have hindex : (t.take place).count '\n' ≤ t.count '\n' :=
      (List.take_sublist place t).count_le '\n'
    obtain ⟨before, behind, hline, hstart, hcount⟩ := exists_isLine_of_count hindex
    obtain ⟨hlow, hhigh⟩ := (hline.count_take_eq_iff hplace).mp hcount.symm
    rw [List.length_append] at hhigh
    -- on its line, a place is as far behind the start as its column tells
    have honly : ∀ column : Int, 1 ≤ column →
        column ≤ ((lines t).getD ((t.take place).count '\n') []).length + 1 →
        (offset t ((t.take place).count '\n' + 1) column = .ok place ↔
          column = place - before.length + 1) := by
      intro column hone hlast
      rcases offset_cases t ((t.take place).count '\n' + 1) column with
        ⟨index, hnumber, -, hoffset⟩ | ⟨hno, -⟩
      · obtain rfl : (t.take place).count '\n' = index := by omega
        rw [hoffset, Except.ok.injEq, hstart]
        omega
      · exact absurd ⟨by omega, by omega⟩ hno
    refine ⟨place - before.length + 1, fun ⟨line, column⟩ => ⟨?_, ?_⟩⟩
    · rintro ⟨hone, hlast, hoffset⟩
      dsimp only at hone hlast hoffset
      obtain rfl : line = (t.take place).count '\n' + 1 := by
        have hnumber := (count_take_of_offset hoffset).2
        omega
      rw [Int.add_sub_cancel, Int.toNat_natCast] at hlast
      rw [(honly column hone hlast).mp hoffset]
    · rintro heq
      obtain ⟨rfl, rfl⟩ := Prod.mk.inj heq
      dsimp only
      rw [Int.add_sub_cancel, Int.toNat_natCast]
      exact ⟨by omega, by omega, (honly _ (by omega) (by omega)).mpr rfl⟩
  · rcases offset_cases t line column with ⟨index, rfl, hindex, hoffset⟩ | ⟨hno, hoffset⟩
    · refine ⟨fun _ => ?_, ?_⟩
      · obtain ⟨hplace, hcount⟩ := count_take_of_offset hoffset
        exact ⟨_, hplace, hoffset, hcount⟩
      · rw [hoffset]
        exact ⟨nofun, fun hno => absurd ⟨by omega, by omega⟩ hno⟩
    · exact ⟨fun hyes => absurd hyes hno, fun _ => hno, fun _ => hoffset⟩

/-- In a text with an empty line, a carriage return and a line feed at its end, the
place behind the carriage return is column two of line three and nothing else, and
column nine of that line is a place on it. -/
theorem offset_inverts_counting_carriageReturn :
    (∀ p : Int × Int,
      (1 ≤ p.2 ∧ p.2 ≤ ((lines "ab\n\n\r\n".toList).getD (p.1 - 1).toNat []).length + 1 ∧
          offset "ab\n\n\r\n".toList p.1 p.2 = .ok 5) ↔ p = (3, 2)) ∧
      ∃ place ≤ 6, offset "ab\n\n\r\n".toList 3 9 = .ok place ∧
        (("ab\n\n\r\n".toList.take place).count '\n' : Int) = 3 - 1 := by
  refine ⟨?_, ((offset_inverts_counting "ab\n\n\r\n".toList).2 3 9).1 (by decide)⟩
  obtain ⟨column, hcolumn⟩ := (offset_inverts_counting "ab\n\n\r\n".toList).1 5 (by decide)
  obtain rfl : 2 = column := (Prod.mk.inj ((hcolumn (3, 2)).mp ⟨by decide, by decide, rfl⟩)).2
  exact hcolumn

end Position

end LogCalls
