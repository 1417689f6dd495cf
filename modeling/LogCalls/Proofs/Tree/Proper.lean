/-
LogCalls/Proofs/Tree/Proper.lean

Trees as they are read from a disk: each location is listed once, and all names are
names that a file can have (`IsName`).  A tree grows by `put` alone, which keeps this
(`Proper.put`), and so planting and writing keep it (`Proper.plant`, `Proper.write`).

In such a tree the names of a location below a directory lead to that location, if
they lead anywhere (`spot_below`): each of them is one step down.
-/
import Mathlib.Data.List.Nodup
import LogCalls.Proofs.Path.Reading
import LogCalls.Proofs.Tree.Walk

namespace LogCalls

namespace Tree

/-- A name that a file can have. -/
def IsName (name : String) : Prop :=
  name ≠ "" ∧ name ≠ "." ∧ name ≠ ".." ∧ '/' ∉ name.toList

instance (name : String) : Decidable (IsName name) := inferInstanceAs (Decidable (_ ∧ _))

/-- Each location of a tree is listed once, by names that files can have. -/
structure Proper (t : Tree) : Prop where
  nodup : (t.entries.map Prod.fst).Nodup
  plain : ∀ l ∈ t.entries.map Prod.fst, ∀ name ∈ l, IsName name
  start : ∀ name ∈ t.start, IsName name

variable {t : Tree} {l m : Location} {p : Path} {name : String}

theorem proper_empty : empty.Proper := ⟨by decide, by decide, by decide⟩

/-- The locations of a tree with one more entry. -/
theorem map_fst_entries_put (t : Tree) (l : Location) (e : Entry) :
    (t.put l e).entries.map Prod.fst =
      if l ∈ t.entries.map Prod.fst then t.entries.map Prod.fst
      else t.entries.map Prod.fst ++ [l] := by
  have hany : (t.entries.any (·.1 == l)) = true ↔ l ∈ t.entries.map Prod.fst := by
    simp only [List.any_eq_true, beq_iff_eq, List.mem_map]
  rw [put]
  by_cases h : (t.entries.any (·.1 == l)) = true
  · rw [if_pos h, if_pos (hany.mp h), List.map_map]
    refine List.map_congr_left fun old _ => ?_
    by_cases hold : old.1 = l
    · simp [hold]
    · simp [hold]
  · rw [if_neg h, if_neg (mt hany.mpr h), List.map_append]
    rfl

theorem Proper.put (h : t.Proper) (hl : ∀ name ∈ l, IsName name) (e : Entry) :
    (t.put l e).Proper := by
  refine ⟨?_, ?_, by rw [start_put]; exact h.start⟩
  · rw [map_fst_entries_put]
    split
    · exact h.nodup
    · rename_i hnew
      refine List.nodup_append.mpr ⟨h.nodup, List.nodup_singleton l, ?_⟩
      rintro a ha b hb rfl
      rw [List.mem_singleton] at hb
      exact hnew (hb ▸ ha)
  · rw [map_fst_entries_put]
    split
    · exact h.plain
    · rw [List.forall_mem_append, List.forall_mem_singleton]
      exact ⟨h.plain, hl⟩

theorem Proper.makeWay (h : t.Proper) (hl : ∀ name ∈ l, IsName name) : (t.makeWay l).Proper := by
  rw [Tree.makeWay]
  generalize List.range (l.length - 1) = steps
  induction steps generalizing t with
  | nil => exact h
  | cons i steps ih =>
      refine ih ?_
      dsimp only
      split
      · exact h
      · exact h.put (fun name hname => hl name (List.mem_of_mem_take hname)) _

theorem Proper.plant (h : t.Proper) {names : Location} (hnames : ∀ name ∈ names, IsName name)
    (e : Entry) : (t.plant names e).Proper := by
  have hl : ∀ name ∈ t.start ++ names, IsName name := List.forall_mem_append.mpr ⟨h.start, hnames⟩
  exact (h.makeWay hl).put hl e

/-! ### Where names lead -/

/-- A step is made from a directory: up, nowhere, or down to a name. -/
theorem step_cases (h : t.step l name = .ok m) :
    t.get? l = some .directory ∧
      (name = ".." ∧ m = l.dropLast ∨ (name = "" ∨ name = ".") ∧ m = l ∨
        (name ≠ "" ∧ name ≠ "." ∧ name ≠ "..") ∧ m = l ++ [name]) := by
  unfold step at h
  split at h
  · cases h
  · cases h
  next hdirectory =>
    refine ⟨hdirectory, ?_⟩
    -- a name that is too long is refused
    split at h
    · cases h
    split at h
    next hup => exact .inl ⟨hup, (Except.ok.inj h).symm⟩
    next hup =>
      split at h
      next hstay => exact .inr (.inl ⟨hstay, (Except.ok.inj h).symm⟩)
      next hdown =>
        rw [not_or] at hdown
        exact .inr (.inr ⟨⟨hdown.1, hdown.2, hup⟩, (Except.ok.inj h).symm⟩)

theorem walk_cons_eq_ok_iff {names : List String} :
    t.walk l (name :: names) = .ok m ↔ ∃ l', t.step l name = .ok l' ∧ t.walk l' names = .ok m :=
  bind_eq_ok_iff

/-- A walk goes on from a directory only. -/
theorem directory_of_walk {names : List String} (hnames : names ≠ [])
    (h : t.walk l names = .ok m) : t.get? l = some .directory := by
  obtain ⟨name, names, rfl⟩ := List.exists_cons_of_ne_nil hnames
  obtain ⟨l', hstep, -⟩ := walk_cons_eq_ok_iff.mp h
  exact (step_cases hstep).1

theorem walk_down {names : List String} (hnames : ∀ name ∈ names, IsName name)
    (h : t.walk l names = .ok m) : m = l ++ names := by
  induction names generalizing l with
  | nil =>
      rw [List.append_nil]
      exact (Except.ok.inj h).symm
  | cons name names ih =>
      obtain ⟨⟨hempty, hdot, hup, -⟩, hnames⟩ := List.forall_mem_cons.mp hnames
      obtain ⟨l', hstep, hrest⟩ := walk_cons_eq_ok_iff.mp h
      obtain ⟨-, ⟨hname, -⟩ | ⟨hname, -⟩ | ⟨-, rfl⟩⟩ := step_cases hstep
      · exact absurd hname hup
      · exact hname.elim (fun h => absurd h hempty) (fun h => absurd h hdot)
      · rw [ih hnames hrest, List.append_assoc, List.singleton_append]

/-- The walk to a path below another one goes through that one. -/
theorem exists_walk_of_spot_below {names : Location} (hnames : ∀ name ∈ names, IsName name)
    (h : t.spot { p with parts := p.parts ++ names } = .ok m) :
    ∃ l, t.walk (t.origin p) p.names = .ok l ∧ t.walk l names = .ok m := by
  have hwalk := walk_of_spot h
  have hslash : ∀ name ∈ names, '/' ∉ name.toList := fun name hname => (hnames name hname).2.2.2
  rw [Path.names, List.flatMap_append, Path.flatMap_pieces hslash, walk_append] at hwalk
  exact bind_eq_ok_iff.mp hwalk

/-- Names below a directory lead to their own location, if they lead anywhere. -/
theorem spot_below {base names : Location} (hbase : t.spot p = .ok base)
    (hnames : ∀ name ∈ names, IsName name)
    (h : t.spot { p with parts := p.parts ++ names } = .ok m) : m = base ++ names := by
  obtain ⟨l, hfront, hrest⟩ := exists_walk_of_spot_below hnames h
  obtain rfl : base = l := Except.ok.inj ((walk_of_spot hbase).symm.trans hfront)
  exact walk_down hnames hrest

/-- A walk over names without slashes leads to names that files can have. -/
theorem plain_of_walk {names : List String} (hl : ∀ name ∈ l, IsName name)
    (hnames : ∀ name ∈ names, '/' ∉ name.toList) (h : t.walk l names = .ok m) :
    ∀ name ∈ m, IsName name := by
  induction names generalizing l with
  | nil =>
      obtain rfl : l = m := Except.ok.inj h
      exact hl
  | cons name names ih =>
      obtain ⟨hslash, hnames⟩ := List.forall_mem_cons.mp hnames
      obtain ⟨l', hstep, hrest⟩ := walk_cons_eq_ok_iff.mp h
      refine ih ?_ hnames hrest
      obtain ⟨-, ⟨-, rfl⟩ | ⟨-, rfl⟩ | ⟨⟨hempty, hdot, hup⟩, rfl⟩⟩ := step_cases hstep
      · exact fun name hname => hl name (List.dropLast_subset _ hname)
      · exact hl
      · rw [List.forall_mem_append, List.forall_mem_singleton]
        exact ⟨hl, hempty, hdot, hup, hslash⟩

theorem Proper.plain_of_spot (h : t.Proper) (hspot : t.spot p = .ok l) :
    ∀ name ∈ l, IsName name := by
  refine plain_of_walk ?_ (fun name hname => ?_) (walk_of_spot hspot)
  · rw [origin]
    split
    · exact h.start
    · exact List.forall_mem_nil _
  · obtain ⟨part, -, hpiece⟩ := List.mem_flatMap.mp hname
    exact Path.not_mem_of_mem_pieces hpiece

theorem Proper.write (h : t.Proper) (p : Path) (content : Except Fault (List UInt8)) :
    (t.write p content).tree.Proper := by
  rcases htarget : t.target p with f | l
  · rw [write_of_target_error htarget]
    exact h
  · rw [write_of_target htarget]
    exact h.put (h.plain_of_spot (spot_of_target htarget)) _

/-- There is something at the locations of the entries. -/
theorem get?_ne_none_iff (hl : l ≠ []) : t.get? l ≠ none ↔ l ∈ t.entries.map Prod.fst := by
  rw [get?, if_neg hl, ne_eq, Option.map_eq_none_iff, List.find?_eq_none]
  simp

end Tree

end LogCalls
