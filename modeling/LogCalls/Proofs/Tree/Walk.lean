/-
LogCalls/Proofs/Tree/Walk.lean

Where a path leads, and what that depends on.  A walk asks of each location in
front of the last name only whether there is a directory, a file or nothing
(`walk_congr`); so two trees of one run that are alike on the way of a path have it
lead to the same location (`spot_congr`), and what is read or written there depends
on that one location (`read_congr`, `target_congr`).
-/
import LogCalls.Proofs.Outcome
import LogCalls.Tree

namespace LogCalls

namespace Tree

/-! ### Locations -/

/-- Whether an entry is a directory. -/
def Entry.isDirectory : Entry → Bool
  | .directory => true
  | .file _ => false

/-- Two trees have something of the same kind at a location, or nothing. -/
def Alike (t u : Tree) (l : Location) : Prop :=
  (t.get? l).map Entry.isDirectory = (u.get? l).map Entry.isDirectory

/-- Two trees of one run: they start in the same directory and have the same limits. -/
structure OfOneRun (t u : Tree) : Prop where
  start : u.start = t.start
  limits : u.limits = t.limits

/-- A location on the way of a path: one of its names is looked up from there. -/
def OnWay (t : Tree) (p : Path) (l : Location) : Prop :=
  ∃ front name rest, p.names = front ++ name :: rest ∧ t.walk (t.origin p) front = .ok l

/-- The file that a path leads to has some content. -/
def Holds (t : Tree) (p : Path) (content : List UInt8) : Prop :=
  ∃ l, t.spot p = .ok l ∧ t.get? l = some (.file content)

variable {t u : Tree} {p : Path} {l m : Location}

theorem alike_of_eq (h : u.get? l = t.get? l) : Alike t u l := by rw [Alike, h]

theorem ofOneRun_refl (t : Tree) : OfOneRun t t := ⟨rfl, rfl⟩

theorem OfOneRun.put (h : OfOneRun t u) (l : Location) (e : Entry) : OfOneRun t (u.put l e) :=
  ⟨by rw [start_put, h.start], by rw [limits_put, h.limits]⟩

theorem OfOneRun.origin_eq (h : OfOneRun t u) (p : Path) : u.origin p = t.origin p := by
  rw [origin, origin, h.start]

theorem walk_append (l : Location) (names more : List String) :
    t.walk l (names ++ more) = t.walk l names >>= fun m => t.walk m more := by
  rw [walk, List.foldlM_append]
  rfl

/-- A step depends on the kind of what is at its location. -/
theorem step_congr (h : Alike t u l) (name : String) : u.step l name = t.step l name := by
  rw [Alike] at h
  rw [step, step]
  rcases ht : t.get? l with _ | (_ | _) <;> rcases hu : u.get? l with _ | (_ | _) <;>
    simp [ht, hu, Entry.isDirectory] at h ⊢

/-- A walk depends on the kinds of what is on its way. -/
theorem walk_congr {names : List String}
    (h : ∀ front name rest, names = front ++ name :: rest →
      ∀ m, t.walk l front = .ok m → Alike t u m) : u.walk l names = t.walk l names := by
  induction names generalizing l with
  | nil => rfl
  | cons name names ih =>
      have hstep : u.step l name = t.step l name := step_congr (h [] name names rfl l rfl) name
      rw [walk, walk, List.foldlM_cons, List.foldlM_cons, hstep]
      rcases hs : t.step l name with r | l'
      · rfl
      -- what is on the way behind the first step is on the way of the whole walk
      refine ih fun front name' rest hnames m hm => h (name :: front) name' rest ?_ m ?_
      · rw [hnames, List.cons_append]
      · rw [walk, List.foldlM_cons, hs]
        exact hm

/-- All names in front of the last one are on the way. -/
theorem onWay_iff_of_concat {front : List String} {last : String}
    (h : p.names = front ++ [last]) :
    t.OnWay p l ↔ ∃ names, names <+: front ∧ t.walk (t.origin p) names = .ok l := by
  rw [OnWay, h]
  constructor
  · rintro ⟨names, name, rest, hnames, hwalk⟩
    refine ⟨names, List.prefix_of_prefix_length_le (List.prefix_append names (name :: rest))
      (hnames ▸ List.prefix_append front [last]) ?_, hwalk⟩
    have hlength := congrArg List.length hnames
    simp only [List.length_append, List.length_cons, List.length_nil] at hlength
    omega
  · rintro ⟨names, ⟨more, rfl⟩, hwalk⟩
    obtain ⟨name, rest, hrest⟩ := List.exists_cons_of_ne_nil (List.concat_ne_nil last more)
    refine ⟨names, name, rest, ?_, hwalk⟩
    rw [List.append_assoc, ← hrest]

/-- Trees of one run that are alike on the way of a path have it lead to the same
location. -/
theorem spot_congr (hrun : OfOneRun t u) (h : ∀ l, t.OnWay p l → Alike t u l) :
    u.spot p = t.spot p := by
  have hwalk : u.walk (t.origin p) p.names = t.walk (t.origin p) p.names :=
    walk_congr fun front name rest hnames m hm => h m ⟨front, name, rest, hnames, hm⟩
  rw [spot, spot, follow, follow, hrun.origin_eq, hwalk]

theorem walk_of_spot (h : t.spot p = .ok l) : t.walk (t.origin p) p.names = .ok l := by
  rw [spot, follow] at h
  split at h
  · cases h
  · split at h
    · cases h
    · rcases hw : t.walk (t.origin p) p.names with r | l'
      · rw [hw] at h
        cases h
      · rw [hw] at h
        exact congrArg Except.ok (Except.ok.inj h)

/-! ### Reading and writing -/

theorem read_eq_ok_iff {content : List UInt8} :
    t.read p = .ok content ↔
      ∃ l, t.spot p = .ok l ∧ t.get? l = some (.file content) ∧
        t.limits.unreadable l = false := by
  rw [read, bind_eq_ok_iff]
  refine exists_congr fun l => and_congr_right fun _ => ?_
  rcases t.get? l with _ | (_ | old)
  · exact iff_of_false nofun nofun
  · exact iff_of_false nofun nofun
  · cases hread : t.limits.unreadable l <;> simp [throw, throwThe, MonadExceptOf.throw]

theorem target_eq_ok_iff :
    t.target p = .ok l ↔
      t.spot p = .ok l ∧ t.get? l ≠ some .directory ∧ t.limits.unwritable l = false := by
  rw [target, bind_eq_ok_iff]
  constructor
  · rintro ⟨m, hm, h⟩
    split at h
    · cases h
    next hfile =>
      split at h
      · cases h
      next hwrite =>
        obtain rfl : m = l := Except.ok.inj h
        exact ⟨hm, hfile, eq_false_of_ne_true hwrite⟩
  · rintro ⟨hl, hfile, hwrite⟩
    refine ⟨l, hl, ?_⟩
    rw [if_neg hfile, hwrite]
    rfl

theorem holds_of_read {content : List UInt8} (h : t.read p = .ok content) : t.Holds p content := by
  obtain ⟨l, hspot, hfile, -⟩ := read_eq_ok_iff.mp h
  exact ⟨l, hspot, hfile⟩

/-- A path holds one content. -/
theorem Holds.unique {content content' : List UInt8} (h : t.Holds p content)
    (h' : t.Holds p content') : content = content' := by
  obtain ⟨l, hspot, hfile⟩ := h
  obtain ⟨l', hspot', hfile'⟩ := h'
  obtain rfl : l = l' := Except.ok.inj (hspot.symm.trans hspot')
  exact Entry.file.inj (Option.some.inj (hfile.symm.trans hfile'))

theorem spot_of_target (h : t.target p = .ok l) : t.spot p = .ok l := (target_eq_ok_iff.mp h).1

theorem not_directory_of_target (h : t.target p = .ok l) : t.get? l ≠ some .directory :=
  (target_eq_ok_iff.mp h).2.1

/-- What a write comes to at the location that it opens. -/
theorem write_of_target (h : t.target p = .ok l) (content : Except Fault (List UInt8)) :
    t.write p content =
      ⟨t.limits.cut? l content, t.put l (.file (t.limits.kept l content))⟩ := by
  rw [write, h]

/-- A file that is not opened stays as it was. -/
theorem write_of_target_error {f : Fault} (h : t.target p = .error f)
    (content : Except Fault (List UInt8)) : t.write p content = ⟨some f, t⟩ := by
  rw [write, h]

/-- What nothing cuts is kept as a whole. -/
theorem Limits.cut?_eq_none_iff {limits : Limits} {content : Except Fault (List UInt8)} :
    limits.cut? l content = none ↔
      ∃ bytes, content = .ok bytes ∧ limits.kept l content = bytes := by
  rcases content with f | bytes
  · exact iff_of_false nofun nofun
  · simp only [Limits.cut?, Limits.kept, Except.ok.injEq, exists_eq_left']
    rcases limits.room l with _ | n
    · exact iff_of_true rfl rfl
    · dsimp only
      by_cases hn : n < bytes.length
      · refine iff_of_false (by simp [hn]) fun heq => ?_
        have hlength := congrArg List.length heq
        rw [List.length_take] at hlength
        omega
      · exact iff_of_true (if_neg hn) (List.take_of_length_le (Nat.le_of_not_lt hn))

/-- A write that no fault stops has put the whole content there. -/
theorem write_of_fault_eq_none {content : Except Fault (List UInt8)}
    (h : (t.write p content).fault = none) :
    ∃ l bytes, t.target p = .ok l ∧ content = .ok bytes ∧
      (t.write p content).tree = t.put l (.file bytes) := by
  rcases htarget : t.target p with f | l
  · rw [write_of_target_error htarget] at h
    cases h
  · rw [write_of_target htarget] at h ⊢
    obtain ⟨bytes, hbytes, hkept⟩ := Limits.cut?_eq_none_iff.mp h
    exact ⟨l, bytes, rfl, hbytes, by rw [hkept]⟩

/-- The content at a path depends on its way and on the location it leads to. -/
theorem read_congr (hrun : OfOneRun t u) (hway : ∀ l, t.OnWay p l → Alike t u l)
    (hend : ∀ l, t.spot p = .ok l → u.get? l = t.get? l) : u.read p = t.read p := by
  rw [read, read, spot_congr hrun hway]
  rcases hs : t.spot p with f | l
  · rfl
  · rw [ok_bind, ok_bind, hend l hs, hrun.limits]

theorem target_congr (hrun : OfOneRun t u) (hway : ∀ l, t.OnWay p l → Alike t u l)
    (hend : ∀ l, t.spot p = .ok l → u.get? l = t.get? l) :
    u.target p = t.target p := by
  rw [target, target, spot_congr hrun hway]
  rcases hs : t.spot p with f | l
  · rfl
  · rw [ok_bind, ok_bind, hend l hs, hrun.limits]

end Tree

end LogCalls
