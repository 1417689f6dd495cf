/-
LogCalls/Proofs/Job/Copy.lean

The output of a job that makes a copy: its path is that of the source with a longer
name (`withName_of_outputPath`).  Where the suffix holds no slash the two paths go the
same way (`onWay_of_copy`), and where it holds one the output can only be a directory
(`directory_of_copy`), so that nothing is ever written.

So jobs with the same options are safe from each other where they are clear of each
other (`separate_of_independent`): there is nothing more to ask of the ways of their
outputs.
-/
import LogCalls.Proofs.Job.Effect
import LogCalls.Proofs.Tree.Rereading

namespace LogCalls

namespace Job

variable {a b j : Job} {t : Tree} {l : Tree.Location} {q : Path}

/-- The path of a copy is that of its source with a longer name. -/
theorem withName_of_outputPath (hcopy : j.options.inPlace = false)
    (hname : j.options.outputPath j.path = .ok q) :
    ∃ name, j.path.name? = some name ∧ j.path.withName (name ++ j.options.suffix) = .ok q := by
  rw [RunOptions.outputPath, if_neg (by rw [hcopy]; decide)] at hname
  obtain ⟨q', hq', hname⟩ := bind_eq_ok_iff.mp hname
  obtain rfl : q' = q := by
    split at hname
    · cases hname
    · exact Except.ok.inj hname
  rcases hlast : j.path.name? with _ | name
  · -- a path without parts has no name to make longer
    rw [Path.withName, if_pos (List.getLast?_eq_none_iff.mp hlast)] at hq'
    cases hq'
  · rw [hlast, Option.getD_some] at hq'
    exact ⟨name, rfl, hq'⟩

theorem outputPath_of_empty_suffix (hcopy : j.options.inPlace = false)
    (hsuffix : j.options.suffix = "") (hname : j.options.outputPath j.path = .ok q) :
    q = j.path := by
  obtain ⟨name, hlast, hq⟩ := withName_of_outputPath hcopy hname
  obtain ⟨front, hfront⟩ := List.getLast?_eq_some_iff.mp hlast
  rw [Path.withName_ok hq, hsuffix, String.append_empty, Path.replaceName, hfront,
    List.dropLast_concat, ← hfront]

/-- The names that a copy's path leads through: those of its source, with what the
longer last name stands for. -/
theorem exists_names_of_copy (hproper : j.path.Proper) (hcopy : j.options.inPlace = false)
    (hname : j.options.outputPath j.path = .ok q) :
    ∃ front name, j.path.names = front ++ [name] ∧ j.path.parts = front ++ [name] ∧
      q.slashes = j.path.slashes ∧
      q.names = front ++ Path.pieces (name ++ j.options.suffix) ∧
      Path.isName (name ++ j.options.suffix) = true := by
  obtain ⟨name, hlast, hq⟩ := withName_of_outputPath hcopy hname
  obtain ⟨front, hparts⟩ := List.getLast?_eq_some_iff.mp hlast
  have hplain : ∀ part ∈ front, '/' ∉ part.toList := fun part hpart =>
    (hproper.parts part (hparts ▸ List.mem_append_left [name] hpart)).2.2
  refine ⟨front, name, by rw [hproper.names_eq, hparts], hparts, ?_, ?_,
    Path.isName_of_withName hq⟩
  · rw [Path.withName_ok hq, Path.replaceName]
  · rw [Path.withName_ok hq, Path.names, Path.parts_replaceName, hparts, List.dropLast_concat,
      List.flatMap_append, List.flatMap_singleton, Path.flatMap_pieces hplain]

/-- Behind a suffix without a slash, the way of the output is that of the source. -/
theorem onWay_of_copy (hproper : j.path.Proper) (hcopy : j.options.inPlace = false)
    (hslash : '/' ∉ j.options.suffix.toList) (hname : j.options.outputPath j.path = .ok q)
    (h : t.OnWay q l) : t.OnWay j.path l := by
  obtain ⟨front, name, hnames, hparts, hslashes, hnames', -⟩ :=
    exists_names_of_copy hproper hcopy hname
  have hplain : '/' ∉ name.toList :=
    (hproper.parts name (hparts ▸ List.mem_append_right front List.mem_cons_self)).2.2
  have hlonger : '/' ∉ (name ++ j.options.suffix).toList := by
    rw [String.toList_append, List.mem_append, not_or]
    exact ⟨hplain, hslash⟩
  rw [Path.pieces_of_not_mem hlonger] at hnames'
  have horigin : t.origin q = t.origin j.path := by rw [Tree.origin, Tree.origin, hslashes]
  rw [Tree.onWay_iff_of_concat hnames', horigin] at h
  exact (Tree.onWay_iff_of_concat hnames).mpr h

/-- Behind a suffix with a slash, the output can only be a directory. -/
theorem directory_of_copy (hproper : j.path.Proper) (hcopy : j.options.inPlace = false)
    (hslash : '/' ∈ j.options.suffix.toList) (h : j.Outputs t l) :
    t.get? l = some .directory := by
  obtain ⟨q, hname, hspot⟩ := h
  obtain ⟨front, name, -, hparts, -, hnames, hisName⟩ := exists_names_of_copy hproper hcopy hname
  obtain ⟨hempty, hdot, hplain⟩ :=
    hproper.parts name (hparts ▸ List.mem_append_right front List.mem_cons_self)
  have hsuffix : j.options.suffix ≠ "" := by
    intro heq
    rw [heq] at hslash
    cases hslash
  obtain ⟨before, last, first, rest, hlast, hboth, hlonger⟩ :=
    Path.exists_pieces_of_longer hisName hsuffix
  -- the name is its own last piece
  rw [Path.pieces_of_not_mem hplain] at hlast
  obtain ⟨rfl, hsame⟩ := (List.append_eq_singleton_iff.mp hlast.symm).resolve_right (by simp)
  obtain rfl := List.singleton_inj.mp hsame
  obtain ⟨hstays, -⟩ := hlonger hempty hdot
  have hrest : rest ≠ [] := by
    rintro rfl
    have hmem : last ++ first ∈ Path.pieces (last ++ j.options.suffix) := by
      rw [hboth]
      exact List.mem_cons_self
    have hnone := Path.not_mem_of_mem_pieces hmem
    rw [← Path.eq_of_pieces_eq_singleton hboth, String.toList_append, List.mem_append,
      not_or] at hnone
    exact hnone.2 hslash
  have hwalk := Tree.walk_of_spot hspot
  rw [hnames, hboth, List.nil_append, ← List.singleton_append, ← List.append_assoc,
    Tree.walk_append] at hwalk
  obtain ⟨base, -, hstay⟩ := bind_eq_ok_iff.mp hwalk
  obtain ⟨rfl, hdirectory⟩ := Tree.walk_stay hrest hstays hstay
  exact hdirectory

theorem safeFrom_of_clearOf (ha : a.path.Proper) (hb : b.path.Proper)
    (hoptions : a.options = b.options) (h : ClearOf t a b) : SafeFrom t a b := by
  refine ⟨h, fun l q hl hq hway => ?_⟩
  by_cases hplace : b.options.inPlace = true
  · rw [RunOptions.outputPath, if_pos hplace] at hq
    obtain rfl := Except.ok.inj hq
    exact (h l hl).2.2 hway
  have hcopy := eq_false_of_ne_true hplace
  by_cases hslash : '/' ∈ b.options.suffix.toList
  · rw [directory_of_copy ha (hoptions ▸ hcopy) (hoptions ▸ hslash) hl]
    exact Option.some_ne_none _
  · exact (h l hl).2.2 (onWay_of_copy hb hcopy hslash hq hway)

/-- Jobs with the same options are separate where they are independent. -/
theorem separate_of_independent (ha : a.path.Proper) (hb : b.path.Proper)
    (hoptions : a.options = b.options) (h : Independent t a b) : Separate t a b :=
  ⟨safeFrom_of_clearOf ha hb hoptions h.1, safeFrom_of_clearOf hb ha hoptions.symm h.2⟩

end Job

end LogCalls
