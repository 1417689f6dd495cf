/-
LogCalls/Proofs/Settings/Merging.lean

What a merge of mappings means.  The values of one key come one after the other
(`Value.meet`), and no other key has a part in that (`get?_adoptAll`).  So a key has
nothing where no value was given for it, the last value where that is no mapping,
and otherwise the merge of the mappings at the end of its values: what stands in
front of them is lost (`foldl_meet_of_run`).

A merge is settled: its keys differ and no value in it stands for an option that
was not given, at any depth (`Value.Settled.adoptAll`).  A settled mapping is its own
merge (`Value.Settled.adoptAll_nil`), and what has been merged into one is not merged
into it a second time (`Value.Settled.adoptAll_again`).

Main result: the meaning of a merge for every key, with these laws of it
(`merge_by_layers`).
-/
import Mathlib.Data.List.Induction
import LogCalls.Proofs.Settings.Keyed

namespace LogCalls

namespace Value

/-! ### One value after another -/

/-- A value that is no mapping and was given. -/
def IsPlain (v : Value) : Prop := v.entries? = none ∧ v.isUnset = false

/-- The entries of a value, none where it is no mapping. -/
def entries (v : Value) : Mapping := v.entries?.getD []

/-- What a key has after one more value has come for it. -/
def meet (old : Option Value) : Value → Option Value
  | .unset => old
  | .mapping m => some (.mapping (Mapping.adoptAll ((old.bind entries?).getD []) m))
  | v => some v

/-- What stands at the end of a way through mappings. -/
def at? : Value → List Key → Option Value
  | v, [] => some v
  | v, k :: path => (v.entries?.bind (Mapping.get? · k)).bind (at? · path)

theorem unset_or_mapping_or_plain (v : Value) :
    v = .unset ∨ (∃ m, v = .mapping m) ∨ v.IsPlain := by
  cases v with
  | unset => exact .inl rfl
  | mapping m => exact .inr (.inl ⟨m, rfl⟩)
  | _ => exact .inr (.inr ⟨rfl, rfl⟩)

theorem meet_of_isPlain {v : Value} (h : v.IsPlain) (old : Option Value) : meet old v = some v := by
  cases v with
  | unset => cases h.2
  | mapping m => cases h.1
  | _ => rfl

theorem isSome_meet {old : Option Value} {v : Value}
    (h : old.isSome = true ∨ v.isUnset = false) : (meet old v).isSome = true := by
  rcases v.unset_or_mapping_or_plain with rfl | ⟨m, rfl⟩ | hv
  · exact h.resolve_right (by decide)
  · rfl
  · rw [meet_of_isPlain hv]
    rfl

/-- A value that was not given changes nothing. -/
theorem foldl_meet_filter (vs : List Value) (old : Option Value) :
    (vs.filter fun v => !v.isUnset).foldl meet old = vs.foldl meet old := by
  induction vs generalizing old with
  | nil => rfl
  | cons v vs ih =>
      rcases v.unset_or_mapping_or_plain with rfl | ⟨m, rfl⟩ | hv
      · exact ih old
      · rw [List.filter_cons_of_pos (by rfl), List.foldl_cons, List.foldl_cons, ih]
      · rw [List.filter_cons_of_pos (by rw [hv.2]; rfl), List.foldl_cons, List.foldl_cons, ih]

theorem isSome_foldl_meet {vs : List Value} {old : Option Value}
    (h : old.isSome = true ∨ ∃ v ∈ vs, v.isUnset = false) : (vs.foldl meet old).isSome = true := by
  induction vs generalizing old with
  | nil => exact h.resolve_right (by simp)
  | cons v vs ih =>
      refine ih ?_
      rcases h with hold | ⟨w, hw, hgiven⟩
      · exact .inl (isSome_meet (.inl hold))
      · rcases List.mem_cons.mp hw with rfl | hw
        · exact .inl (isSome_meet (.inr hgiven))
        · exact .inr ⟨w, hw, hgiven⟩

end Value

namespace Mapping

variable {m : Mapping} {k l : Key} {v : Value}

/-! ### What a merge does to one key -/

theorem adopt_mapping (m : Mapping) (k : Key) (n : Mapping) :
    adopt m k (.mapping n) = put m k (.mapping (adoptAll (inner m k) n)) := by rw [adopt]

theorem adopt_of_isPlain (hv : v.IsPlain) (m : Mapping) (k : Key) : adopt m k v = put m k v := by
  cases v with
  | unset => cases hv.2
  | mapping n => cases hv.1
  | _ => rw [adopt]

theorem adoptAll_append (m d e : Mapping) : adoptAll m (d ++ e) = adoptAll (adoptAll m d) e := by
  induction d generalizing m with
  | nil => rw [List.nil_append, adoptAll_nil]
  | cons x d ih => rw [List.cons_append, adoptAll_cons, adoptAll_cons, ih]

/-- The key that a value has come for, and the others. -/
theorem get?_adopt (m : Mapping) (k l : Key) (v : Value) :
    get? (adopt m k v) l = if k.agrees l then Value.meet (get? m l) v else get? m l := by
  have hput : ∀ w, get? (put m k w) l = if k.agrees l then some w else get? m l := by
    intro w
    by_cases h : k.agrees l = true
    · rw [if_pos h, ← get?_congr h, get?_put_self]
    · rw [if_neg h, get?_put_of_not_agrees m w (Bool.not_eq_true _ ▸ h)]
  rcases v.unset_or_mapping_or_plain with rfl | ⟨n, rfl⟩ | hv
  · rw [adopt_unset]
    split <;> rfl
  · rw [adopt_mapping, hput, inner]
    split
    next h => rw [get?_congr h, Value.meet]
    · rfl
  · rw [adopt_of_isPlain hv, hput, Value.meet_of_isPlain hv]

/-- What a key has after all entries depends on what it had and on its own
values. -/
theorem get?_adoptAll (m d : Mapping) (k : Key) :
    get? (adoptAll m d) k = (valuesOf d k).foldl Value.meet (get? m k) := by
  induction d generalizing m with
  | nil => rw [adoptAll_nil]; rfl
  | cons e d ih =>
      rw [adoptAll_cons, ih, get?_adopt, valuesOf, valuesOf, List.filter_cons]
      split <;> rfl

/-! ### Merges -/

theorem foldl_adoptAll (ms : List (Option Mapping)) (m : Mapping) :
    ms.foldl (fun m d => adoptAll m (d.getD [])) m =
      adoptAll m (ms.flatMap fun d => d.getD []) := by
  induction ms generalizing m with
  | nil => rw [List.flatMap_nil, adoptAll_nil, List.foldl_nil]
  | cons d ms ih => rw [List.foldl_cons, ih, List.flatMap_cons, adoptAll_append]

/-- A merge takes all entries in a row. -/
theorem merge_eq_adoptAll (ms : List (Option Mapping)) :
    merge ms = adoptAll [] (ms.flatMap fun d => d.getD []) := foldl_adoptAll ms []

theorem merge_map_some (run : List Mapping) : merge (run.map some) = adoptAll [] run.flatten := by
  rw [merge_eq_adoptAll, List.flatMap_map, List.flatMap_def]
  simp

/-- The values that are given for a key in some mappings, in their order. -/
def given (ms : List (Option Mapping)) (k : Key) : List Value :=
  (ms.flatMap fun d => valuesOf (d.getD []) k).filter fun v => !v.isUnset

/-- Where the keys of each mapping differ, these are the values that the key finds. -/
theorem given_of_keyed {ms : List (Option Mapping)} (h : ∀ m, some m ∈ ms → m.Keyed) (k : Key) :
    given ms k = (ms.filterMap fun d => d.bind (get? · k)).filter fun v => !v.isUnset := by
  rw [given]
  congr 1
  induction ms with
  | nil => rfl
  | cons d ms ih =>
      have hrest := ih fun m hm => h m (List.mem_cons_of_mem d hm)
      cases d with
      | none => exact hrest
      | some m =>
          have hm := (h m List.mem_cons_self).valuesOf_eq_toList k
          rw [List.flatMap_cons, hrest, Option.getD_some, hm, List.filterMap_cons, Option.bind_some]
          cases get? m k <;> rfl

theorem get?_merge (ms : List (Option Mapping)) (k : Key) :
    get? (merge ms) k = (given ms k).foldl Value.meet none := by
  rw [merge_eq_adoptAll, get?_adoptAll, given, Value.foldl_meet_filter]
  simp only [valuesOf, List.filter_flatMap, List.map_flatMap]
  rfl

end Mapping

/-! ### Settled values -/

/-- A value in which no mapping has two entries with the same key, or one for an
option that was not given.  What a list holds does not matter. -/
inductive Value.Settled : Value → Prop
  | plain {v : Value} : v.IsPlain → Settled v
  | mapping {m : Mapping} : m.Keyed → (∀ e ∈ m, Settled e.2) → Settled (.mapping m)

namespace Value.Settled

variable {m : Mapping}

theorem keyed (h : Settled (.mapping m)) : m.Keyed := by
  cases h with
  | plain hv => cases hv.1
  | mapping hm _ => exact hm

theorem of_mem (h : Settled (.mapping m)) {e : Key × Value} (he : e ∈ m) : e.2.Settled := by
  cases h with
  | plain hv => cases hv.1
  | mapping _ hall => exact hall e he

theorem of_get? (h : Settled (.mapping m)) {k : Key} {v : Value} (hv : m.get? k = some v) :
    v.Settled := by
  obtain ⟨l, hl⟩ := Mapping.mem_of_get? hv
  exact h.of_mem hl

theorem isUnset {v : Value} (h : v.Settled) : v.isUnset = false := by
  cases h with
  | plain hv => exact hv.2
  | mapping _ _ => rfl

theorem nil : Settled (.mapping []) := .mapping Mapping.keyed_nil (List.forall_mem_nil _)

theorem at? {v w : Value} (h : v.Settled) {path : List Key} (hw : v.at? path = some w) :
    w.Settled := by
  induction path generalizing v with
  | nil =>
      obtain rfl : v = w := Option.some.inj hw
      exact h
  | cons k path ih =>
      obtain ⟨u, hu, hrest⟩ := Option.bind_eq_some_iff.mp hw
      obtain ⟨m, hm, hget⟩ := Option.bind_eq_some_iff.mp hu
      cases v with
      | mapping n =>
          obtain rfl : n = m := Option.some.inj hm
          exact ih (h.of_get? hget) hrest
      | _ => cases hm

theorem put (h : Settled (.mapping m)) (k : Key) {v : Value} (hv : v.Settled) :
    Settled (.mapping (m.put k v)) := by
  refine .mapping (h.keyed.put k v) fun e he => ?_
  rcases Mapping.mem_put he with hmem | heq
  · exact h.of_mem hmem
  · rw [heq]
    exact hv

theorem inner (h : Settled (.mapping m)) (k : Key) : Settled (.mapping (m.inner k)) := by
  rw [Mapping.inner]
  rcases hget : m.get? k with _ | v
  · exact nil
  · have hv := h.of_get? hget
    cases v with
    | mapping n => exact hv
    | _ => exact nil

/-- Entries that come to a settled mapping leave it settled. -/
theorem adoptAll {n : Mapping} (h : Settled (.mapping n)) (d : Mapping) :
    Settled (.mapping (n.adoptAll d)) := by
  -- by the size of what comes, since its first value may be a mapping itself
  match d with
  | [] =>
      rw [Mapping.adoptAll_nil]
      exact h
  | (k, v) :: d =>
      rw [Mapping.adoptAll_cons]
      refine adoptAll ?_ d
      rcases v.unset_or_mapping_or_plain with rfl | ⟨e, rfl⟩ | hv
      · rw [Mapping.adopt_unset]
        exact h
      · rw [Mapping.adopt_mapping]
        exact h.put k (adoptAll (h.inner k) e)
      · rw [Mapping.adopt_of_isPlain hv]
        exact h.put k (.plain hv)
termination_by sizeOf d

/-! ### A merge by itself -/

/-- Entries that a mapping has no keys for follow its own. -/
theorem adoptAll_eq_append {n d : Mapping} (hkeyed : (n ++ d).Keyed)
    (hself : ∀ e ∈ d, meet none e.2 = some e.2) : n.adoptAll d = n ++ d := by
  induction d generalizing n with
  | nil => rw [Mapping.adoptAll_nil, List.append_nil]
  | cons e d ih =>
      obtain ⟨k, v⟩ := e
      rw [List.forall_mem_cons] at hself
      have hnone : n.get? k = none := by
        rw [Mapping.Keyed, List.map_append] at hkeyed
        rw [Mapping.get?_eq_none_iff]
        intro l hl
        exact (List.pairwise_append.mp hkeyed).2.2 l hl k List.mem_cons_self
      have hadopt : n.adopt k v = n ++ [(k, v)] := by
        rw [← Mapping.put_of_get?_eq_none hnone v]
        rcases v.unset_or_mapping_or_plain with rfl | ⟨e, rfl⟩ | hv
        · cases hself.1
        · have hinner : n.inner k = [] := by
            rw [Mapping.inner, hnone]
            rfl
          rw [Mapping.adopt_mapping, hinner]
          exact congrArg (n.put k) (Option.some.inj hself.1)
        · exact Mapping.adopt_of_isPlain hv n k
      rw [Mapping.adoptAll_cons, hadopt, ih (by simpa using hkeyed) hself.2, List.append_assoc,
        List.singleton_append]

/-- A settled value is what comes of it alone. -/
theorem meet_none {v : Value} (h : v.Settled) : meet none v = some v := by
  induction h with
  | plain hv => exact meet_of_isPlain hv none
  | @mapping m hm _ ih =>
      have hself : Mapping.adoptAll [] m = m := adoptAll_eq_append (n := []) hm ih
      rw [meet, Option.bind_none, Option.getD_none, hself]

/-- A settled mapping is its own merge. -/
theorem adoptAll_nil (h : Settled (.mapping m)) : Mapping.adoptAll [] m = m :=
  Value.mapping.inj (Option.some.inj h.meet_none)

end Value.Settled

/-! ### A merge with the same entries twice -/

namespace Value

/-- Values of which none is plain are merged, if they hold a mapping at all. -/
theorem foldl_meet_of_mapping {vs : List Value} (hvs : ∀ v ∈ vs, ¬ v.IsPlain) (n : Mapping) :
    vs.foldl meet (some (.mapping n)) = some (.mapping (n.adoptAll (vs.flatMap entries))) := by
  induction vs generalizing n with
  | nil => rw [List.flatMap_nil, Mapping.adoptAll_nil, List.foldl_nil]
  | cons v vs ih =>
      rw [List.forall_mem_cons] at hvs
      rw [List.foldl_cons, List.flatMap_cons, Mapping.adoptAll_append]
      rcases v.unset_or_mapping_or_plain with rfl | ⟨e, rfl⟩ | hv
      · have hnone : Value.unset.entries = [] := rfl
        rw [hnone, Mapping.adoptAll_nil]
        exact ih hvs.2 n
      · exact ih hvs.2 _
      · exact absurd hv hvs.1

/-- Values of which none is plain, after any other. -/
theorem foldl_meet_cases {vs : List Value} (hvs : ∀ v ∈ vs, ¬ v.IsPlain) (old : Option Value) :
    vs.foldl meet old = old ∨
      vs.foldl meet old =
        some (.mapping (Mapping.adoptAll ((old.bind entries?).getD []) (vs.flatMap entries))) := by
  induction vs with
  | nil => exact .inl rfl
  | cons v vs ih =>
      rw [List.forall_mem_cons] at hvs
      rw [List.foldl_cons, List.flatMap_cons, Mapping.adoptAll_append]
      rcases v.unset_or_mapping_or_plain with rfl | ⟨e, rfl⟩ | hv
      · have hnone : Value.unset.entries = [] := rfl
        rw [hnone, Mapping.adoptAll_nil]
        exact ih hvs.2
      · exact .inr (foldl_meet_of_mapping hvs.2 _)
      · exact absurd hv hvs.1

/-- Values that come a second time change nothing, if that holds of the mappings
among them, taken together. -/
theorem foldl_meet_again {old : Option Value} (vs : List Value)
    (hagain : Mapping.adoptAll
        (Mapping.adoptAll ((old.bind entries?).getD []) (vs.flatMap entries)) (vs.flatMap entries) =
      Mapping.adoptAll ((old.bind entries?).getD []) (vs.flatMap entries)) :
    vs.foldl meet (vs.foldl meet old) = vs.foldl meet old := by
  by_cases hplain : ∃ v ∈ vs, v.IsPlain
  · -- what comes after the plain value decides
    obtain ⟨v, hv, hplain⟩ := hplain
    obtain ⟨front, rest, rfl⟩ := List.append_of_mem hv
    rw [List.foldl_append, List.foldl_append, List.foldl_cons, List.foldl_cons,
      meet_of_isPlain hplain, meet_of_isPlain hplain]
  · have hvs : ∀ v ∈ vs, ¬ v.IsPlain := fun v hv hv' => hplain ⟨v, hv, hv'⟩
    rcases foldl_meet_cases hvs old with heq | heq
    · rw [heq, heq]
    · rw [heq, foldl_meet_of_mapping hvs, hagain]

end Value

namespace Mapping

theorem sizeOf_append (d e : Mapping) : sizeOf (d ++ e) + 1 = sizeOf d + sizeOf e := by
  induction d with
  | nil =>
      rw [List.nil_append, List.nil.sizeOf_spec]
      omega
  | cons x d ih =>
      rw [List.cons_append, List.cons.sizeOf_spec, List.cons.sizeOf_spec]
      omega

theorem sizeOf_entries_le (v : Value) : sizeOf v.entries ≤ sizeOf v := by
  cases v <;> simp [Value.entries, Value.entries?]

/-- What a mapping holds below one key is smaller than the mapping. -/
theorem sizeOf_flatMap_entries_lt (e : Key × Value) (d : Mapping) (k : Key) :
    sizeOf ((valuesOf (e :: d) k).flatMap Value.entries) < sizeOf (e :: d) := by
  have hrest : sizeOf ((valuesOf d k).flatMap Value.entries) ≤ sizeOf d := by
    cases d with
    | nil => exact Nat.le_refl _
    | cons e d => exact Nat.le_of_lt (sizeOf_flatMap_entries_lt e d k)
  obtain ⟨l, v⟩ := e
  rw [List.cons.sizeOf_spec, Prod.mk.sizeOf_spec, valuesOf, List.filter_cons]
  split
  · have happend := sizeOf_append v.entries ((valuesOf d k).flatMap Value.entries)
    have hv := sizeOf_entries_le v
    rw [List.map_cons, List.flatMap_cons, ← valuesOf]
    dsimp only
    omega
  · rw [← valuesOf]
    omega

/-- The keys stay where all that come are there already. -/
theorem map_fst_adoptAll {m d : Mapping}
    (h : ∀ e ∈ d, e.2.isUnset = true ∨ (get? m e.1).isSome = true) :
    (adoptAll m d).map Prod.fst = m.map Prod.fst := by
  induction d generalizing m with
  | nil => rw [adoptAll_nil]
  | cons e d ih =>
      obtain ⟨k, v⟩ := e
      rw [List.forall_mem_cons] at h
      have hkeys : (adopt m k v).map Prod.fst = m.map Prod.fst := by
        rcases v.unset_or_mapping_or_plain with rfl | ⟨n, rfl⟩ | hv
        · rw [adopt_unset]
        · rw [adopt_mapping, map_fst_put, if_pos (h.1.resolve_left Bool.false_ne_true)]
        · rw [adopt_of_isPlain hv, map_fst_put,
            if_pos (h.1.resolve_left (by rw [hv.2]; decide))]
      rw [adoptAll_cons, ih fun e he => (h.2 e he).imp_right fun hsome => ?_, hkeys]
      rw [get?_adopt]
      split
      · exact Value.isSome_meet (.inl hsome)
      · exact hsome

/-- Entries that come a second time change nothing. -/
theorem adoptAll_again {m : Mapping} (h : Value.Settled (.mapping m)) (d : Mapping) :
    adoptAll (adoptAll m d) d = adoptAll m d := by
  have hsettled := h.adoptAll d
  refine (hsettled.adoptAll d).keyed.ext hsettled.keyed ?_ fun k => ?_
  · refine map_fst_adoptAll fun e he => ?_
    rw [get?_adoptAll]
    rcases hgiven : e.2.isUnset
    · refine .inr (Value.isSome_foldl_meet (.inr ⟨e.2, ?_, hgiven⟩))
      exact List.mem_map_of_mem (List.mem_filter.mpr ⟨he, agrees_refl e.1⟩)
    · exact .inl rfl
  · rw [get?_adoptAll, get?_adoptAll]
    cases d with
    | nil => rfl
    | cons e d =>
        -- below one key all its mappings come as one, which is smaller than `e :: d`
        exact Value.foldl_meet_again _
          (adoptAll_again (h.inner k) ((valuesOf (e :: d) k).flatMap Value.entries))
termination_by sizeOf d
decreasing_by exact sizeOf_flatMap_entries_lt e d k

end Mapping

/-! ### The mappings at the end of the values -/

namespace Value

/-- The longest run of mappings at the end of some values. -/
def lastRun (vs : List Value) : List Mapping :=
  (vs.reverse.takeWhile fun v => v.entries?.isSome).reverse.map entries

theorem exists_front (vs : List Value) :
    ∃ front, vs = front ++ (lastRun vs).map .mapping ∧
      ∀ v, front.getLast? = some v → v.entries? = none := by
  induction vs using List.reverseRecOn with
  | nil => exact ⟨[], rfl, by simp⟩
  | append_singleton vs v ih =>
      rcases hv : v.entries? with _ | n
      · refine ⟨vs ++ [v], by simp [lastRun, hv], fun w hw => ?_⟩
        rw [List.getLast?_concat, Option.some.injEq] at hw
        rw [← hw, hv]
      · obtain ⟨front, hfront, hlast⟩ := ih
        have hmapping : Value.mapping v.entries = v := by
          cases v with
          | mapping n => rfl
          | _ => cases hv
        have hrun : lastRun (vs ++ [v]) = lastRun vs ++ [v.entries] := by simp [lastRun, hv]
        refine ⟨front, ?_, hlast⟩
        rw [hrun, List.map_append, ← List.append_assoc, ← hfront, List.map_singleton, hmapping]

/-- Mappings behind a plain value, or behind none, are merged among themselves. -/
theorem foldl_meet_of_run {front : List Value} {run : List Mapping}
    (hfront : ∀ v, front.getLast? = some v → v.IsPlain) (hrun : run ≠ []) :
    (front ++ run.map Value.mapping).foldl meet none =
      some (.mapping (Mapping.merge (run.map some))) := by
  -- the front leaves no mapping that the first of the run could be merged into
  have hlost : (front.foldl meet none).bind entries? = none := by
    induction front using List.reverseRecOn with
    | nil => rfl
    | append_singleton front v _ =>
        have hv := hfront v List.getLast?_concat
        rw [List.foldl_append, List.foldl_cons, List.foldl_nil, meet_of_isPlain hv]
        exact hv.1
  obtain ⟨n, run, rfl⟩ := List.exists_cons_of_ne_nil hrun
  have hplain : ∀ v ∈ run.map Value.mapping, ¬ v.IsPlain := by
    rw [List.forall_mem_map]
    exact fun n _ hn => Option.some_ne_none _ hn.1
  have hentries : (run.map Value.mapping).flatMap entries = run.flatten := by
    rw [List.flatMap_map]
    exact List.flatMap_id
  rw [List.foldl_append, List.map_cons, List.foldl_cons, meet, hlost, Option.getD_none,
    foldl_meet_of_mapping hplain, hentries, Mapping.merge_map_some, List.flatten_cons,
    Mapping.adoptAll_append]

end Value

namespace Mapping

theorem settled_merge (ms : List (Option Mapping)) : Value.Settled (.mapping (merge ms)) := by
  rw [merge_eq_adoptAll]
  exact Value.Settled.nil.adoptAll _

/-- **Layers of settings.**  For each key a merge has nothing where no mapping gives
it a value, the last value where that is no mapping, and otherwise the merge of the
longest run of mappings at the end of its values; these are the values that the key
finds in mappings whose keys differ.  The keys of a merge differ, and at no depth does
it hold a mark for an option that was not given.  A merge can take the place of what
was merged, and a mapping that comes again at once changes nothing. -/
theorem merge_by_layers (ms : List (Option Mapping)) :
    (∀ k, ((∀ m, some m ∈ ms → m.Keyed) →
        given ms k = (ms.filterMap fun d => d.bind (get? · k)).filter fun v => !v.isUnset) ∧
      (given ms k = [] → get? (merge ms) k = none) ∧
      (∀ v, (given ms k).getLast? = some v → v.entries? = none → get? (merge ms) k = some v) ∧
      ∀ n, (given ms k).getLast? = some (.mapping n) →
        get? (merge ms) k = some (.mapping (merge ((Value.lastRun (given ms k)).map some)))) ∧
      (merge ms).Keyed ∧
      (∀ path, Value.at? (.mapping (merge ms)) path ≠ some .unset) ∧
      (∀ ns, merge (some (merge ms) :: ns) = merge (ms ++ ns)) ∧
      ∀ d ns, merge (ms ++ some d :: some d :: ns) = merge (ms ++ some d :: ns) := by
  have hsettled := settled_merge ms
  have hgiven : ∀ k, ∀ v ∈ given ms k, v.isUnset = false := by
    intro k v hv
    simpa using (List.mem_filter.mp hv).2
  refine ⟨fun k => ⟨fun hkeyed => given_of_keyed hkeyed k, ?_, ?_, ?_⟩, hsettled.keyed,
    ?_, ?_, ?_⟩
  · intro hnone
    rw [get?_merge, hnone]
    rfl
  · intro v hlast hv
    obtain ⟨front, hfront⟩ := List.getLast?_eq_some_iff.mp hlast
    have hplain : v.IsPlain := ⟨hv, hgiven k v (List.mem_of_getLast? hlast)⟩
    rw [get?_merge, hfront, List.foldl_append, List.foldl_cons, List.foldl_nil,
      Value.meet_of_isPlain hplain]
  · intro n hlast
    obtain ⟨front, hsplit, hfront⟩ := Value.exists_front (given ms k)
    have hrun : Value.lastRun (given ms k) ≠ [] := by
      intro hnil
      rw [hnil, List.map_nil, List.append_nil] at hsplit
      rw [hsplit] at hlast
      cases hfront _ hlast
    have hplain : ∀ v, front.getLast? = some v → v.IsPlain := by
      intro v hv
      refine ⟨hfront v hv, hgiven k v ?_⟩
      rw [hsplit]
      exact List.mem_append_left _ (List.mem_of_getLast? hv)
    rw [get?_merge]
    calc (given ms k).foldl Value.meet none
        = (front ++ (Value.lastRun (given ms k)).map Value.mapping).foldl Value.meet none := by
          rw [← hsplit]
      _ = some (.mapping (merge ((Value.lastRun (given ms k)).map some))) :=
          Value.foldl_meet_of_run hplain hrun
  · intro path hpath
    cases (hsettled.at? hpath).isUnset
  · intro ns
    rw [merge_append, merge_eq_adoptAll (some _ :: ns), List.flatMap_cons, adoptAll_append,
      Option.getD_some, hsettled.adoptAll_nil, foldl_adoptAll]
  · intro d ns
    rw [merge_append, merge_append, List.foldl_cons, List.foldl_cons, List.foldl_cons,
      Option.getD_some, adoptAll_again hsettled]

/-- Mappings with a value that cuts off the first of them, one mapping that is
missing and one that does not give the key a value. -/
def cutLayers : List (Option Mapping) :=
  [some [(.text "a", .mapping [(.text "x", .whole 1)])], some [(.text "a", .whole 5)], none,
    some [(.text "a", .mapping [(.text "y", .whole 2)])], some [(.text "a", .unset)],
    some [(.text "a", .mapping [(.text "z", .whole 3), (.text "w", .unset)])]]

theorem merge_by_layers_cut :
    get? (merge cutLayers) (.text "a") =
      some (.mapping [(.text "y", .whole 2), (.text "z", .whole 3)]) := by
  obtain ⟨hkeys, -⟩ := merge_by_layers cutLayers
  rw [(hkeys (.text "a")).2.2.2 [(.text "z", .whole 3), (.text "w", .unset)] (by rfl)]
  rfl

end Mapping

end LogCalls
