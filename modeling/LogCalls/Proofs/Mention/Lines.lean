/-
LogCalls/Proofs/Mention/Lines.lean

Mentions and lines.  A mention holds no line feed, so it does not reach beyond the
line that it starts on (`stop_le_of_isLine`).  A line that is looked through as a
text of its own has the mentions of the whole text that stand on it: a line feed
and an end of the text are both no word character, so nothing is mentioned, and
nothing hidden, by the cut (`onLine?_eq_find?`).

Main result: the first mention on the line of an offset is the first of all
mentions that stands on that line, so it does not depend on the column
(`onLine?_finds_first`).
-/
import LogCalls.Proofs.Mention.Appended
import LogCalls.Proofs.Position.Lines

namespace LogCalls.Mention

variable {before line behind t : Text}

/-- The mention stands between two offsets. -/
def IsBetween (low high : Nat) (m : Mention) : Prop := low ≤ m.start ∧ m.stop ≤ high

instance (low high : Nat) : DecidablePred (IsBetween low high) := fun m =>
  inferInstanceAs (Decidable ((low : Int) ≤ m.start ∧ m.stop ≤ high))

/-- The first mention that is found between two offsets.  The search sees the
character before the first offset, and nothing from the last one on. -/
def searched (t : Text) (low high : Nat) : Option Mention :=
  (allFrom low (t.take low).getLast? ((t.take high).drop low)).head?

/-! ### Mentions on their lines -/

/-- A mention ends on the line that it starts on. -/
theorem stop_le_of_isLine (h : Text.IsLine before line behind t) {m : Mention} (hm : m ∈ all t)
    (hstart : m.start ≤ (before ++ line).length) : m.stop ≤ (before ++ line).length := by
  obtain ⟨x, r, hx⟩ := mem_all_iff.mp hm
  have hstop := stop_eq_length hx.start
  rcases h.ends with hnil | hhead
  · -- the line ends with the text
    have hlength : (x ++ m.matched ++ r).length = (before ++ line).length := by
      rw [← hx.text, h.text, hnil, List.append_nil]
    rw [List.length_append] at hlength
    omega
  · obtain ⟨rest, hrest⟩ := List.head?_eq_some_iff.mp hhead
    have htext : before ++ line ++ ['\n'] ++ rest = x ++ m.matched ++ r := by
      rw [← hx.text, h.text, hrest]
      simp
    obtain ⟨hne, hfree⟩ := wording_ne_nil (s := m.stream) hx.method
    rw [← hx.matched] at hne hfree
    rcases Text.word_before_or_behind (by simp) hfree hne htext with ⟨c, r', hc, -⟩ | ⟨x', hx', -⟩
    · have hlength := congrArg List.length hc
      simp only [List.length_append, List.length_cons, List.length_nil] at hlength hstop ⊢
      omega
    · rw [hx.start, hx'] at hstart
      simp only [List.length_append, List.length_cons, List.length_nil] at hstart
      omega

theorem exists_isLine_of_mem {m : Mention} (hm : m ∈ all t) :
    ∃ before line behind, Text.IsLine before line behind t ∧
      IsBetween before.length (before ++ line).length m := by
  obtain ⟨x, r, hx⟩ := mem_all_iff.mp hm
  have hle : x.length ≤ t.length := by
    rw [hx.text, List.append_assoc, List.length_append]
    omega
  obtain ⟨before, line, behind, hline, hlow, hhigh⟩ := Text.exists_isLine hle
  refine ⟨before, line, behind, hline, ?_, stop_le_of_isLine hline hm ?_⟩
  · rw [hx.start]
    omega
  · rw [hx.start]
    omega

/-! ### The search on a line -/

variable {offset : Nat}

/-- What is looked through for an offset is the text from the start of its line to
the end. -/
theorem onLine?_eq_searched (h : Text.IsLine before line behind t) (hlow : before.length ≤ offset)
    (hhigh : offset ≤ (before ++ line).length) :
    onLine? t offset = searched t before.length (before ++ line).length := by
  have hbefore : t.take before.length = before := by
    rw [h.text, List.append_assoc, List.take_left]
  have hline : (t.take (before ++ line).length).drop before.length = line := by
    rw [h.text, List.take_left, List.drop_left]
  -- the character before a line is no word character, like none
  have hnone : allFrom before.length before.getLast? line = allFrom before.length none line := by
    rcases h.starts with hnil | hlast
    · rw [hnil]
      rfl
    · rw [hlast, allFrom_newline]
  have hshift := allFrom_add 0 before.length none line
  rw [Nat.zero_add] at hshift
  rw [onLine?, h.lineStart_eq hlow hhigh, h.lineFrom_eq, searched, hbefore, hline, hnone, hshift,
    List.head?_map]
  rfl

/-- What is found on a line stands on it, and is a mention of the whole text. -/
theorem mem_all_of_onLine? (h : Text.IsLine before line behind t) (hlow : before.length ≤ offset)
    (hhigh : offset ≤ (before ++ line).length) {m : Mention} (hm : onLine? t offset = some m) :
    m ∈ all t ∧ IsBetween before.length (before ++ line).length m := by
  rw [onLine?, h.lineStart_eq hlow hhigh, h.lineFrom_eq] at hm
  obtain ⟨m', hm', rfl⟩ := Option.map_eq_some_iff.mp hm
  have hmem : m' ∈ all line := List.mem_of_head? hm'
  have hword : behind.head?.any Text.isWord = false := by
    rcases h.ends with hnil | hhead
    · rw [hnil]
      rfl
    · rw [hhead]
      exact isWord_newline
  have hall := (shift_mem_all h.starts h.free hword hmem).1
  rw [← h.text] at hall
  obtain ⟨x, r, hx⟩ := mem_all_iff.mp hmem
  have hlength := congrArg List.length hx.text
  simp only [List.length_append] at hlength
  refine ⟨hall, ?_, stop_le_of_isLine h hall ?_⟩
  · rw [start_shift, hx.start]
    omega
  · rw [start_shift, hx.start, List.length_append]
    omega

/-- What is found on the line of an offset is the first of all mentions that stands
on that line. -/
theorem onLine?_eq_find? (h : Text.IsLine before line behind t) (hlow : before.length ≤ offset)
    (hhigh : offset ≤ (before ++ line).length) :
    onLine? t offset =
      (all t).find? fun m => IsBetween before.length (before ++ line).length m := by
  rcases hfind : (all t).find? fun m => IsBetween before.length (before ++ line).length m
    with _ | m
  · refine Option.eq_none_iff_forall_ne_some.mpr fun m hm => ?_
    obtain ⟨hall, hbetween⟩ := mem_all_of_onLine? h hlow hhigh hm
    have hnot := List.find?_eq_none.mp hfind m hall
    exact hnot (decide_eq_true hbetween)
  · obtain ⟨hm, earlier, later, hsplit, hearlier⟩ := List.find?_eq_some_iff_append.mp hfind
    obtain ⟨hstart, hstop⟩ : IsBetween before.length (before ++ line).length m :=
      of_decide_eq_true hm
    have hall : m ∈ all t := by
      rw [hsplit]
      simp
    have hnonneg : m.start ≤ m.stop := by
      rw [stop]
      omega
    have hsame : Text.lineStart t m.start = Text.lineStart t offset := by
      obtain ⟨n, hn⟩ := Int.eq_ofNat_of_zero_le (start_nonneg hall)
      rw [hn, h.lineStart_eq (by omega) (by omega), h.lineStart_eq hlow hhigh]
    refine onLine?_eq_some hall hsame fun m' hm' hline => Int.not_lt.mp fun hlt => ?_
    -- a mention in front of it on this line would have been found first
    have hbetween : IsBetween before.length (before ++ line).length m' := by
      have hle := Text.lineStart_le t (start_nonneg hm')
      rw [hline, h.lineStart_eq hlow hhigh] at hle
      exact ⟨hle, stop_le_of_isLine h hm' (by omega)⟩
    have hmem : m' ∈ earlier := by
      have hsorted := pairwise_all t
      rw [hsplit] at hm' hsorted
      refine (List.mem_append.mp hm').resolve_right fun hrest => ?_
      rcases List.mem_cons.mp hrest with rfl | hrest
      · omega
      · have := (List.pairwise_cons.mp (List.pairwise_append.mp hsorted).2.1).1 m' hrest
        omega
    have hnot := hearlier m' hmem
    rw [decide_eq_true hbetween] at hnot
    cases hnot

/-- **Cursor and text.**  What is found for an offset is what a search between the
ends of its line finds, and the first of all mentions that stands on that line.
Every mention stands on one line, and all columns of a line find the same. -/
theorem onLine?_finds_first (t : Text) :
    (∀ offset : Nat, offset ≤ t.length → ∃ before line behind,
        Text.IsLine before line behind t ∧ before.length ≤ offset ∧
        offset ≤ (before ++ line).length ∧
        onLine? t offset = searched t before.length (before ++ line).length ∧
        onLine? t offset =
          (all t).find? fun m => IsBetween before.length (before ++ line).length m) ∧
      (∀ m ∈ all t, ∃ before line behind, Text.IsLine before line behind t ∧
        IsBetween before.length (before ++ line).length m) ∧
      ∀ number : Int, 1 ≤ number → number ≤ (Text.lines t).length → ∃ found, ∀ column : Int,
        ∃ place : Nat, Position.offset t number column = .ok place ∧ onLine? t place = found := by
  refine ⟨?_, fun m hm => exists_isLine_of_mem hm, ?_⟩
  · intro offset hoffset
    obtain ⟨before, line, behind, h, hlow, hhigh⟩ := Text.exists_isLine hoffset
    exact ⟨before, line, behind, h, hlow, hhigh, onLine?_eq_searched h hlow hhigh,
      onLine?_eq_find? h hlow hhigh⟩
  · intro number hfirst hlast
    obtain ⟨before, line, behind, h, hcolumns⟩ := Position.exists_isLine_of_offset hfirst hlast
    refine ⟨searched t before.length (before ++ line).length, fun column => ?_⟩
    obtain ⟨place, hplace, hlow, hhigh⟩ := hcolumns column
    exact ⟨place, hplace, onLine?_eq_searched h hlow hhigh⟩

/-- A line with one mention, and one with two behind other code. -/
def twoLines : Text :=
  "System.out.print(k);\n  f(); System.err.println(n); System.out.print(m);".toList

/-- Every column of the second line finds its first mention, those in front of it
and those behind the end of the line too. -/
theorem onLine?_finds_first_of_two :
    ∀ column : Int, ∃ place : Nat, Position.offset twoLines 2 column = .ok place ∧
      onLine? twoLines place = some ⟨28, "System.err.println".toList, .err, "println".toList⟩ := by
  intro column
  obtain ⟨-, -, hcolumns⟩ := onLine?_finds_first twoLines
  obtain ⟨found, hfound⟩ := hcolumns 2 (by decide) (by decide +kernel)
  obtain ⟨place, hplace, hline⟩ := hfound 1
  have hfirst : Position.offset twoLines 2 1 = .ok 21 := by rfl
  obtain rfl : place = 21 := Except.ok.inj (hplace.symm.trans hfirst)
  have hmention : onLine? twoLines (21 : Nat) =
      some ⟨28, "System.err.println".toList, .err, "println".toList⟩ := by decide +kernel
  rw [← hmention, hline]
  exact hfound column

end LogCalls.Mention
