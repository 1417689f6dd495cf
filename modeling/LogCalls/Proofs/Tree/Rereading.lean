/-
LogCalls/Proofs/Tree/Rereading.lean

A tree after a file has been written to it.  A path that leads somewhere goes through
directories (`directory_of_onWay`), and a file is never written in the place of one, so
a write does not change where the path leads: the path that was written to holds what
was kept of the content (`holds_put_of_target`), and a path to another location reads
what it read before (`read_put_of_ne`).

A path whose last part is a longer name leads to another file (`ne_of_longer_name`).
What is added cannot hold further names, and names that stay where they are lead to
directories.
-/
import LogCalls.Proofs.Tree.Proper

namespace LogCalls

namespace Tree

variable {t : Tree} {p q : Path} {l m : Location} {content : List UInt8}

/-! ### Reading what was written, and the rest -/

/-- A path that leads somewhere goes through directories. -/
theorem directory_of_onWay (h : t.spot p = .ok m) (hway : t.OnWay p l) :
    t.get? l = some .directory := by
  obtain ⟨front, name, rest, hnames, hfront⟩ := hway
  have hwalk := walk_of_spot h
  rw [hnames, walk_append, hfront] at hwalk
  exact directory_of_walk (List.cons_ne_nil name rest) hwalk

/-- A file that is written leaves the way of every path as it was. -/
theorem alike_put (h : t.spot p = .ok m) (hl : t.get? l ≠ some .directory) {a : Location}
    (hway : t.OnWay p a) : Alike t (t.put l (.file content)) a := by
  refine alike_of_eq (get?_put_of_ne t _ ?_)
  rintro rfl
  exact hl (directory_of_onWay h hway)

theorem spot_put (h : t.spot p = .ok m) (hl : t.get? l ≠ some .directory) :
    (t.put l (.file content)).spot p = .ok m := by
  rw [spot_congr ((ofOneRun_refl t).put l _) fun a hway => alike_put h hl hway, h]

/-- The path that a file was written to holds what was written. -/
theorem holds_put_of_target (h : t.target p = .ok l) :
    (t.put l (.file content)).Holds p content := by
  have hl := not_directory_of_target h
  refine ⟨l, spot_put (spot_of_target h) hl, get?_put_self t _ ?_⟩
  rintro rfl
  exact hl (get?_nil t)

theorem read_put_of_target (h : t.target p = .ok l) (hreadable : t.limits.unreadable l = false) :
    (t.put l (.file content)).read p = .ok content := by
  have hl := not_directory_of_target h
  refine read_eq_ok_iff.mpr ⟨l, spot_put (spot_of_target h) hl, get?_put_self t _ ?_, ?_⟩
  · rintro rfl
    exact hl (get?_nil t)
  · rw [limits_put, hreadable]

/-- A path to another location reads what it read before. -/
theorem read_put_of_ne (h : t.spot p = .ok m) (hl : t.get? l ≠ some .directory)
    (hne : m ≠ l) : (t.put l (.file content)).read p = t.read p := by
  refine read_congr ((ofOneRun_refl t).put l _) (fun a hway => alike_put h hl hway) fun a ha => ?_
  obtain rfl : m = a := Except.ok.inj (h.symm.trans ha)
  exact get?_put_of_ne t _ hne

/-! ### Longer names -/

/-- Names that stay where they are lead to the directory that they start from. -/
theorem walk_stay {names : List String} (hne : names ≠ [])
    (hnames : ∀ name ∈ names, name = "" ∨ name = ".") (h : t.walk l names = .ok m) :
    m = l ∧ t.get? l = some .directory := by
  refine ⟨?_, directory_of_walk hne h⟩
  clear hne
  induction names with
  | nil => exact (Except.ok.inj h).symm
  | cons name names ih =>
      obtain ⟨hname, hnames⟩ := List.forall_mem_cons.mp hnames
      obtain ⟨l', hstep, hrest⟩ := walk_cons_eq_ok_iff.mp h
      obtain ⟨-, ⟨hup, -⟩ | ⟨-, rfl⟩ | ⟨⟨hempty, hdot, -⟩, -⟩⟩ := step_cases hstep
      · subst hup
        exact absurd hname (by decide)
      · exact ih hnames hrest
      · exact absurd hname (not_or.mpr ⟨hempty, hdot⟩)

/-- A path whose last part is longer leads to another file. -/
theorem ne_of_longer_name {name suffix : String} (hname : p.name? = some name)
    (hq : p.withName (name ++ suffix) = .ok q) (hsuffix : suffix ≠ "") (hl : t.spot p = .ok l)
    (hfile : t.get? l ≠ some .directory) (hm : t.spot q = .ok m)
    (hfile' : t.get? m ≠ some .directory) : l ≠ m := by
  obtain ⟨parts, hparts⟩ := List.getLast?_eq_some_iff.mp hname
  obtain ⟨front, last, first, rest, hlast, hboth, hlonger⟩ :=
    Path.exists_pieces_of_longer (Path.isName_of_withName hq) hsuffix
  -- both paths go through the same names in front of their last parts
  have hnames : p.names = (parts.flatMap Path.pieces ++ front) ++ [last] := by
    rw [Path.names, hparts, List.flatMap_append, List.flatMap_singleton, hlast, List.append_assoc]
  have hnames' : q.names = (parts.flatMap Path.pieces ++ front) ++ (last ++ first) :: rest := by
    rw [Path.withName_ok hq, Path.names, Path.parts_replaceName, hparts, List.dropLast_concat,
      List.flatMap_append, List.flatMap_singleton, hboth, List.append_assoc]
  have hwalk := walk_of_spot hl
  have hwalk' : t.walk (t.origin p) q.names = .ok m := by
    have h := walk_of_spot hm
    rw [Path.withName_ok hq] at h ⊢
    exact h
  rw [hnames, walk_append] at hwalk
  rw [hnames', walk_append] at hwalk'
  obtain ⟨base, hbase, hwalk⟩ := bind_eq_ok_iff.mp hwalk
  obtain ⟨base', hbase', hwalk'⟩ := bind_eq_ok_iff.mp hwalk'
  obtain rfl : base = base' := Except.ok.inj (hbase.symm.trans hbase')
  obtain ⟨l', hstep, hend⟩ := walk_cons_eq_ok_iff.mp hwalk
  obtain rfl : l' = l := Except.ok.inj hend
  obtain ⟨m', hstep', hrest⟩ := walk_cons_eq_ok_iff.mp hwalk'
  obtain ⟨hdirectory, hcases⟩ := step_cases hstep
  -- the last name of a path to a file is none that stays
  have hmoves : last ≠ "" ∧ last ≠ "." := by
    rw [← not_or]
    intro hstay
    have heq := (walk_stay (List.cons_ne_nil last []) (List.forall_mem_singleton.mpr hstay) hwalk).1
    rw [heq] at hfile
    exact hfile hdirectory
  obtain ⟨hstays, hdown⟩ := hlonger hmoves.1 hmoves.2
  have hnone : rest = [] := by
    refine Classical.byContradiction fun hne => hfile' ?_
    obtain ⟨rfl, hdirectory'⟩ := walk_stay hne hstays hrest
    exact hdirectory'
  obtain ⟨hne, hempty, hdot, hup⟩ := hdown hnone
  -- so the longer name is a step down, to a place that is further down or has a longer name
  subst hnone
  obtain rfl : m' = m := Except.ok.inj hrest
  obtain ⟨-, ⟨h, -⟩ | ⟨h, -⟩ | ⟨-, rfl⟩⟩ := step_cases hstep'
  · exact absurd h hup
  · exact absurd h (not_or.mpr ⟨hempty, hdot⟩)
  obtain ⟨-, rfl⟩ | ⟨h, -⟩ | ⟨-, rfl⟩ := hcases
  · intro heq
    have hlength := congrArg List.length heq
    rw [List.length_append, List.length_dropLast, List.length_singleton] at hlength
    omega
  · exact absurd h (not_or.mpr hmoves)
  · intro heq
    have hsame : last = last ++ first := List.singleton_inj.mp (List.append_cancel_left heq)
    have hlength := congrArg String.length hsame
    rw [String.length_append] at hlength
    exact hne (String.length_eq_zero_iff.mp (by omega))

end Tree

end LogCalls
