/-
LogCalls/Proofs/Path/Reading.lean

Paths and their texts.  A path that is read has no empty part, no `.` and no slash
inside of a part (`proper_read`), and such a path is read again from its text
(`read_text`); so paths that were read differ in their texts (`eq_of_text_eq`).

Where a part was put in the place of another one it can hold slashes.  It then stands
for some names, and a single one of them counts (`exists_pieces_of_longer`).
-/
import LogCalls.Path
import LogCalls.Proofs.Text.Marks

namespace LogCalls

namespace Path

/-! ### Pieces -/

theorem not_mem_of_mem_pieces {s piece : String} (h : piece ∈ pieces s) :
    '/' ∉ piece.toList := by
  obtain ⟨x, hx, rfl⟩ := List.mem_map.mp h
  rw [String.toList_ofList]
  exact Text.not_mem_of_mem_splitAll hx

theorem pieces_of_not_mem {s : String} (h : '/' ∉ s.toList) : pieces s = [s] := by
  rw [pieces, Text.splitAll_of_not_mem h, List.map_singleton, String.ofList_toList]

theorem flatMap_pieces {names : List String} (h : ∀ name ∈ names, '/' ∉ name.toList) :
    names.flatMap pieces = names := by
  induction names with
  | nil => rfl
  | cons name names ih =>
      obtain ⟨hslash, hnames⟩ := List.forall_mem_cons.mp h
      rw [List.flatMap_cons, pieces_of_not_mem hslash, ih hnames, List.singleton_append]

theorem eq_of_pieces_eq_singleton {s piece : String} (h : pieces s = [piece]) : s = piece := by
  obtain ⟨x, hx, rfl⟩ := List.map_eq_singleton_iff.mp h
  have hjoined := Text.intercalate_splitAll '/' s.toList
  rw [hx, List.intercalate_singleton] at hjoined
  rw [hjoined, String.ofList_toList]

/-- The last piece of a text and the first of the next one are one piece of both. -/
theorem pieces_append (s r : String) :
    ∃ front last first rest, pieces s = front ++ [last] ∧ pieces r = first :: rest ∧
      pieces (s ++ r) = front ++ (last ++ first) :: rest := by
  obtain ⟨front, last, first, rest, hs, hr, hboth⟩ := Text.splitAll_append '/' s.toList r.toList
  refine ⟨front.map String.ofList, .ofList last, .ofList first, rest.map String.ofList, ?_, ?_, ?_⟩
  · rw [pieces, hs, List.map_append, List.map_singleton]
  · rw [pieces, hr, List.map_cons]
  · rw [pieces, String.toList_append, hboth, List.map_append, List.map_cons, String.ofList_append]

/-- What stands in front of a text in one or two points is one point or nothing. -/
theorem eq_of_append_eq_points {s r : String} (h : s ++ r = "." ∨ s ++ r = "..") (hr : r ≠ "") :
    s = "" ∨ s = "." := by
  obtain ⟨n, hn, htext⟩ : ∃ n ≤ 2, s.toList ++ r.toList = List.replicate n '.' := by
    rw [← String.toList_append]
    rcases h with h | h <;> rw [h]
    · exact ⟨1, by decide, rfl⟩
    · exact ⟨2, by decide, rfl⟩
  obtain ⟨hlength, hs, -⟩ := List.append_eq_replicate_iff.mp htext
  have hpos : 0 < r.toList.length :=
    List.length_pos_iff.mpr fun hnil => hr (String.toList_inj.mp hnil)
  have hfew : s.toList.length = 0 ∨ s.toList.length = 1 := by omega
  rcases hfew with hzero | hone
  · rw [hzero] at hs
    exact .inl (String.toList_inj.mp hs)
  · rw [hone] at hs
    exact .inr (String.toList_inj.mp hs)

/-- A single piece of a name counts. -/
theorem not_counted_of_isName {s piece : String} {front rest : List String}
    (h : isName s = true) (hs : pieces s = front ++ piece :: rest)
    (hpiece : piece ≠ "" ∧ piece ≠ ".") : ∀ x ∈ rest, x = "" ∨ x = "." := by
  rw [isName, Bool.and_eq_true, beq_iff_eq] at h
  have hone := h.2
  rw [read] at hone
  dsimp only at hone
  rw [hs, List.filter_append, List.filter_cons_of_pos (by simpa using hpiece), List.length_append,
    List.length_cons] at hone
  have hnone : rest.filter (fun x => x ≠ "" ∧ x ≠ ".") = [] :=
    List.length_eq_zero_iff.mp (by omega)
  intro x hx
  have hnot := List.filter_eq_nil_iff.mp hnone x hx
  rw [decide_eq_true_eq, ← not_or, Decidable.not_not] at hnot
  exact hnot

theorem isName_of_withName {p q : Path} {name : String} (h : p.withName name = .ok q) :
    isName name = true := by
  rw [withName] at h
  split at h
  · cases h
  · split at h
    next hname => exact hname
    · cases h

/-- The pieces of a name with something behind it.  Where the last piece of the name
counts, nothing behind the longer piece does. -/
theorem exists_pieces_of_longer {name suffix : String} (h : isName (name ++ suffix) = true)
    (hsuffix : suffix ≠ "") :
    ∃ front last first rest, pieces name = front ++ [last] ∧
      pieces (name ++ suffix) = front ++ (last ++ first) :: rest ∧
      (last ≠ "" → last ≠ "." → (∀ x ∈ rest, x = "" ∨ x = ".") ∧
        (rest = [] → first ≠ "" ∧ last ++ first ≠ "" ∧ last ++ first ≠ "." ∧
          last ++ first ≠ "..")) := by
  obtain ⟨front, last, first, rest, hlast, hfirst, hboth⟩ := pieces_append name suffix
  refine ⟨front, last, first, rest, hlast, hboth, fun hempty hdot => ?_⟩
  have hcounts : last ++ first ≠ "" := fun heq => hempty (String.append_eq_empty_iff.mp heq).1
  have hpoints : first ≠ "" → last ++ first ≠ "." ∧ last ++ first ≠ ".." := by
    intro hne
    rw [← not_or]
    exact fun heq => (eq_of_append_eq_points heq hne).elim hempty hdot
  have hcounts' : last ++ first ≠ "." := by
    by_cases hne : first = ""
    · rw [hne, String.append_empty]
      exact hdot
    · exact (hpoints hne).1
  refine ⟨not_counted_of_isName h hboth ⟨hcounts, hcounts'⟩, ?_⟩
  rintro rfl
  -- the suffix is one piece
  have hne : first ≠ "" := by
    rintro rfl
    exact hsuffix (eq_of_pieces_eq_singleton hfirst)
  exact ⟨hne, hcounts, hpoints hne⟩

/-! ### Reading a path from its text -/

/-- A path as it is read. -/
structure Proper (p : Path) : Prop where
  slashes : p.slashes ≤ 2
  parts : ∀ part ∈ p.parts, part ≠ "" ∧ part ≠ "." ∧ '/' ∉ part.toList

theorem proper_read (s : String) : (read s).Proper := by
  constructor
  · rw [read]
    dsimp only
    split
    · assumption
    · decide
  · intro part hpart
    obtain ⟨hmem, hkept⟩ := List.mem_filter.mp hpart
    obtain ⟨hne, hdot⟩ := of_decide_eq_true hkept
    exact ⟨hne, hdot, not_mem_of_mem_pieces hmem⟩

variable {p q : Path}

/-- The parts of a proper path are the names that it leads through. -/
theorem Proper.names_eq (h : p.Proper) : p.names = p.parts :=
  flatMap_pieces fun part hpart => (h.parts part hpart).2.2

/-- A proper path is read again from its text. -/
theorem read_text (h : p.Proper) : read p.text = p := by
  obtain ⟨slashes, parts⟩ := p
  have hslashes : slashes ≤ 2 := h.slashes
  have hparts : ∀ part ∈ parts, part ≠ "" ∧ part ≠ "." ∧ '/' ∉ part.toList := h.parts
  by_cases hhere : slashes = 0 ∧ parts = []
  · obtain ⟨rfl, rfl⟩ := hhere
    rfl
  have htext : (Path.text ⟨slashes, parts⟩).toList =
      List.replicate slashes '/' ++ ['/'].intercalate (parts.map String.toList) := by
    rw [Path.text, if_neg hhere, String.toList_append, String.toList_ofList,
      String.toList_intercalate]
    rfl
  have hfirst : (['/'].intercalate (parts.map String.toList)).takeWhile (· = '/') = [] := by
    rcases parts with _ | ⟨first, parts⟩
    · rfl
    · obtain ⟨hne, -, hslash⟩ := hparts first List.mem_cons_self
      rcases hlist : first.toList with _ | ⟨c, r⟩
      · exact absurd (String.toList_inj.mp hlist) hne
      · rw [hlist, List.mem_cons, not_or] at hslash
        rcases parts with _ | ⟨second, parts⟩
        · simp [hlist, Ne.symm hslash.1]
        · simp [hlist, Ne.symm hslash.1]
  have hlead : ((Path.text ⟨slashes, parts⟩).toList.takeWhile (· = '/')).length = slashes := by
    rw [htext, List.takeWhile_append_of_pos, hfirst, List.append_nil, List.length_replicate]
    intro c hc
    exact decide_eq_true (List.eq_of_mem_replicate hc)
  -- the slashes in front give empty pieces, which do not count
  have hpieces : (pieces (Path.text ⟨slashes, parts⟩)).filter
      (fun part => part ≠ "" ∧ part ≠ ".") = parts := by
    rw [pieces, htext, Text.splitAll_replicate_append, List.map_append, List.filter_append,
      List.map_replicate, List.filter_replicate_of_neg (by decide), List.nil_append]
    rcases parts with _ | ⟨first, parts⟩
    · rfl
    · rw [Text.splitAll_intercalate (by simp), List.map_map]
      · simp only [Function.comp_def, String.ofList_toList, List.map_id_fun', id_eq]
        refine List.filter_eq_self.mpr fun part hpart => decide_eq_true ?_
        exact ⟨(hparts part hpart).1, (hparts part hpart).2.1⟩
      · intro piece hpiece
        obtain ⟨part, hpart, rfl⟩ := List.mem_map.mp hpiece
        exact (hparts part hpart).2.2
  rw [read]
  simp only [hlead, hpieces, if_pos hslashes]

/-- Paths that differ have texts that differ. -/
theorem eq_of_text_eq (hp : p.Proper) (hq : q.Proper) (h : p.text = q.text) : p = q := by
  rw [← read_text hp, h, read_text hq]

end Path

end LogCalls
