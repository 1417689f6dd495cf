/-
LogCalls/Proofs/Sources/Below.lean

The sources below a directory, and that their conversions in place do not matter
to each other.  In a proper tree each source is listed once (`nodup_below`), and the
path of a source leads to the location of the source and nowhere else
(`spot_of_mem_relative`).  So no job writes what another one reads (`separate_below`).
-/
import Mathlib.Data.List.Nodup
import LogCalls.Proofs.Job.Effect
import LogCalls.Proofs.Tree.Proper
import LogCalls.Sources

namespace LogCalls

namespace Sources

variable {t : Tree} {root p : Path} {base names l : Tree.Location}

theorem below?_eq_some_iff : Tree.below? base l = some names ↔ l = base ++ names ∧ names ≠ [] := by
  rw [Tree.below?]
  constructor
  · intro h
    split at h
    next hcond =>
      rw [Bool.and_eq_true, List.isPrefixOf_iff_prefix, decide_eq_true_eq] at hcond
      obtain ⟨⟨more, rfl⟩, hlength⟩ := hcond
      rw [List.drop_left] at h
      obtain rfl := Option.some.inj h
      refine ⟨rfl, ?_⟩
      rintro rfl
      simp at hlength
    · cases h
  · rintro ⟨rfl, hne⟩
    have hlength : base.length < (base ++ names).length := by
      rw [List.length_append]
      exact Nat.lt_add_of_pos_right (List.length_pos_of_ne_nil hne)
    rw [if_pos, List.drop_left]
    rw [Bool.and_eq_true, List.isPrefixOf_iff_prefix, decide_eq_true_eq]
    exact ⟨List.prefix_append _ _, hlength⟩

theorem ne_nil_of_counts (h : counts names = true) : names ≠ [] := by
  rintro rfl
  cases h

/-- The sources are the entries below the directory that count. -/
theorem mem_relative_iff :
    names ∈ relative t base ↔ base ++ names ∈ t.entries.map Prod.fst ∧ counts names = true := by
  rw [relative, List.mem_filter, List.mem_filterMap]
  refine and_congr_left fun hcounts => ?_
  constructor
  · rintro ⟨e, he, hbelow⟩
    rw [← (below?_eq_some_iff.mp hbelow).1]
    exact List.mem_map_of_mem he
  · intro hmem
    obtain ⟨e, he, heq⟩ := List.mem_map.mp hmem
    exact ⟨e, he, below?_eq_some_iff.mpr ⟨heq, ne_nil_of_counts hcounts⟩⟩

theorem nodup_relative (h : t.Proper) (base : Tree.Location) : (relative t base).Nodup := by
  have heq : (t.entries.filterMap fun e => Tree.below? base e.1) =
      (t.entries.map Prod.fst).filterMap (Tree.below? base) := by
    rw [List.filterMap_map]
    rfl
  rw [relative, heq]
  refine (h.nodup.filterMap ?_).filter _
  intro l l' names hl hl'
  rw [(below?_eq_some_iff.mp hl).1, (below?_eq_some_iff.mp hl').1]

/-- The sources below a path, by their names. -/
theorem mem_below_iff :
    p ∈ below t root ↔ ∃ base names, t.spot root = .ok base ∧
      t.get? base = some .directory ∧ names ∈ relative t base ∧
      p = { root with parts := root.parts ++ names } := by
  rw [below]
  constructor
  · intro h
    split at h
    next base hspot =>
      split at h
      next hdirectory =>
        obtain ⟨names, hnames, rfl⟩ := List.mem_map.mp h
        exact ⟨base, names, hspot, hdirectory, List.mem_mergeSort.mp hnames, rfl⟩
      · cases h
    · cases h
  · rintro ⟨base, names, hspot, hdirectory, hnames, rfl⟩
    rw [hspot]
    dsimp only
    rw [if_pos hdirectory]
    exact List.mem_map_of_mem (List.mem_mergeSort.mpr hnames)

theorem nodup_below (h : t.Proper) (root : Path) : (below t root).Nodup := by
  rw [below]
  split
  next base _ =>
    split
    · refine List.Nodup.map ?_ ((List.mergeSort_perm _ _).nodup_iff.mpr (nodup_relative h base))
      intro names names' heq
      exact List.append_cancel_left (congrArg Path.parts heq)
    · exact List.nodup_nil
  · exact List.nodup_nil

theorem isName_of_mem_relative (h : t.Proper) (hnames : names ∈ relative t base) :
    ∀ name ∈ names, Tree.IsName name := fun name hname =>
  h.plain _ (mem_relative_iff.mp hnames).1 name (List.mem_append_right base hname)

/-- The path of a source leads to the location of the source, if it leads
anywhere. -/
theorem spot_of_mem_relative (h : t.Proper) (hbase : t.spot root = .ok base)
    (hnames : names ∈ relative t base)
    (hl : t.spot { root with parts := root.parts ++ names } = .ok l) : l = base ++ names :=
  Tree.spot_below hbase (isName_of_mem_relative h hnames) hl

/-! ### Jobs in place -/

variable {style : Style} {options : RunOptions} {forced : Option String}

/-- A job in place writes where it reads. -/
theorem outputs_inPlace_iff {j : Job} (hplace : j.options.inPlace = true) :
    j.Outputs t l ↔ j.Inputs t l := by
  have hpath : j.options.outputPath j.path = .ok j.path := by
    rw [RunOptions.outputPath, if_pos hplace]
  rw [Job.Outputs, Job.Inputs, hpath]
  constructor
  · rintro ⟨q, hq, hl⟩
    rwa [← Except.ok.inj hq] at hl
  · exact fun hl => ⟨j.path, rfl, hl⟩

/-- Conversions in place of the sources below a path do not matter to each
other. -/
theorem separate_below (h : t.Proper) (root : Path) (hplace : options.inPlace = true) :
    ((below t root).map fun p => (⟨p, style, options, forced⟩ : Job)).Pairwise
      (Job.Separate t) := by
  have hsafe : ∀ p ∈ below t root, ∀ q ∈ below t root, p ≠ q →
      Job.SafeFrom t ⟨p, style, options, forced⟩ ⟨q, style, options, forced⟩ := by
    intro p hp q hq hne
    obtain ⟨base, names, hbase, -, hnames, rfl⟩ := mem_below_iff.mp hp
    obtain ⟨base', names', hbase', -, hnames', rfl⟩ := mem_below_iff.mp hq
    obtain rfl : base = base' := Except.ok.inj (hbase.symm.trans hbase')
    have hspot : ∀ {l}, Job.Outputs ⟨_, style, options, forced⟩ t l → l = base ++ names :=
      fun hl => spot_of_mem_relative h hbase hnames ((outputs_inPlace_iff hplace).mp hl)
    -- what a source is written over is there
    have hsome : t.get? (base ++ names) ≠ none := by
      obtain ⟨hentry, hcounts⟩ := mem_relative_iff.mp hnames
      rw [Tree.get?_ne_none_iff]
      · exact hentry
      · exact List.append_ne_nil_of_right_ne_nil _ (ne_nil_of_counts hcounts)
    constructor
    · intro l hl
      have hin : ¬ Job.Inputs ⟨_, style, options, forced⟩ t l := fun hinput => by
        have heq : l = base ++ names' := spot_of_mem_relative h hbase hnames' hinput
        refine hne ?_
        rw [List.append_cancel_left ((hspot hl).symm.trans heq)]
      refine ⟨hin, fun hout => hin ((outputs_inPlace_iff hplace).mp hout), fun _ => ?_⟩
      rw [hspot hl]
      exact hsome
    · intro l _ hl _ _
      rw [hspot hl]
      exact hsome
  refine List.pairwise_map.mpr ((nodup_below h root).pairwise_of_forall_ne ?_)
  exact fun p hp q hq hne => ⟨hsafe p hp q hq hne, hsafe q hq p hp hne.symm⟩

end Sources

end LogCalls
