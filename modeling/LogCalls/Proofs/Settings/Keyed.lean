/-
LogCalls/Proofs/Settings/Keyed.lean

Mappings whose keys differ.  `put` keeps the keys that are there and adds one at
the end at most (`map_fst_put`), so keys that differ go on to do so (`Keyed.put`).

Such a mapping is determined by the order of its keys and the value of each
(`Keyed.ext`), and a key has one value in it or none (`valuesOf_eq_toList`).
-/
import LogCalls.Settings.Merge

namespace LogCalls.Mapping

/-- No two entries of a mapping have the same key. -/
def Keyed (m : Mapping) : Prop := (m.map Prod.fst).Pairwise fun k l => k.agrees l = false

/-- The values of a key in a mapping, in their order. -/
def valuesOf (m : Mapping) (k : Key) : List Value :=
  (m.filter fun e => e.1.agrees k).map Prod.snd

variable {m n : Mapping} {k l : Key} {v : Value}

/-! ### The value of a key -/

theorem get?_cons (e : Key × Value) (m : Mapping) (k : Key) :
    get? (e :: m) k = if e.1.agrees k then some e.2 else get? m k := by
  rw [get?, get?, List.find?_cons]
  split
  next h => rw [h, if_pos rfl, Option.map_some]
  next h => rw [h, if_neg (by decide)]

/-- The same key has the same value. -/
theorem get?_congr (h : k.agrees l = true) : get? m k = get? m l := by
  have hsame : ∀ e : Key × Value, e.1.agrees k = e.1.agrees l := by
    intro e
    rw [agrees_comm e.1, agrees_comm e.1, agrees_trans h]
  simp only [get?, hsame]

theorem get?_eq_none_iff : get? m k = none ↔ ∀ l ∈ m.map Prod.fst, l.agrees k = false := by
  rw [get?, Option.map_eq_none_iff, List.find?_eq_none, List.forall_mem_map]
  simp only [Bool.not_eq_true]

/-! ### The keys after a value has been put -/

theorem put_of_get?_eq_none (h : get? m k = none) (v : Value) : put m k v = m ++ [(k, v)] := by
  induction m with
  | nil => rfl
  | cons e m ih =>
      rw [get?_cons] at h
      split at h
      · cases h
      next hk => rw [put, if_neg hk, ih h, List.cons_append]

/-- The keys of a mapping with one more value. -/
theorem map_fst_put (m : Mapping) (k : Key) (v : Value) :
    (put m k v).map Prod.fst =
      if (get? m k).isSome then m.map Prod.fst else m.map Prod.fst ++ [k] := by
  induction m with
  | nil => rfl
  | cons e m ih =>
      rw [put, get?_cons]
      by_cases hk : e.1.agrees k = true
      · simp [hk]
      · rw [if_neg hk, if_neg hk, List.map_cons, ih]
        split <;> simp

theorem mem_put {e : Key × Value} (h : e ∈ put m k v) : e ∈ m ∨ e.2 = v := by
  induction m with
  | nil => exact .inr (congrArg Prod.snd (List.mem_singleton.mp h))
  | cons x m ih =>
      rw [put] at h
      split at h
      · rcases List.mem_cons.mp h with rfl | hmem
        · exact .inr rfl
        · exact .inl (List.mem_cons_of_mem x hmem)
      · rcases List.mem_cons.mp h with rfl | hmem
        · exact .inl List.mem_cons_self
        · exact (ih hmem).imp_left (List.mem_cons_of_mem x)

theorem keyed_nil : Keyed [] := List.Pairwise.nil

theorem Keyed.put (h : m.Keyed) (k : Key) (v : Value) : (put m k v).Keyed := by
  rw [Keyed, map_fst_put]
  split
  · exact h
  next hnew =>
    rw [Option.not_isSome_iff_eq_none, get?_eq_none_iff] at hnew
    refine List.pairwise_append.mpr ⟨h, List.pairwise_singleton _ _, fun l hl k' hk' => ?_⟩
    rw [List.mem_singleton.mp hk']
    exact hnew l hl

/-! ### Reading a mapping -/

theorem Keyed.get?_eq_none (h : Keyed ((k, v) :: m)) (hl : k.agrees l = true) :
    get? m l = none := by
  rw [Keyed, List.map_cons, List.pairwise_cons] at h
  rw [← get?_congr hl, get?_eq_none_iff]
  intro k' hk'
  rw [agrees_comm]
  exact h.1 k' hk'

theorem mem_of_get? (h : get? m k = some v) : ∃ l, (l, v) ∈ m := by
  obtain ⟨e, he, rfl⟩ := Option.map_eq_some_iff.mp h
  exact ⟨e.1, List.mem_of_find?_eq_some he⟩

/-- Where the keys differ, a key has one value or none. -/
theorem Keyed.valuesOf_eq_toList (h : m.Keyed) (k : Key) : valuesOf m k = (get? m k).toList := by
  induction m with
  | nil => rfl
  | cons e m ih =>
      have hrest := ih (List.pairwise_cons.mp h).2
      rw [get?_cons]
      by_cases hk : e.1.agrees k = true
      · rw [h.get?_eq_none hk] at hrest
        rw [if_pos hk, valuesOf, List.filter_cons_of_pos (by simpa using hk), List.map_cons]
        exact congrArg (e.2 :: ·) hrest
      · rw [if_neg hk, valuesOf, List.filter_cons_of_neg (by simpa using hk)]
        exact hrest

/-- Mappings with the same keys in the same order and the same value of each are
the same. -/
theorem Keyed.ext (hm : m.Keyed) (hn : n.Keyed) (hkeys : m.map Prod.fst = n.map Prod.fst)
    (hget : ∀ k, get? m k = get? n k) : m = n := by
  induction m generalizing n with
  | nil => exact (List.map_eq_nil_iff.mp hkeys.symm).symm
  | cons e m ih =>
      obtain ⟨k, v⟩ := e
      rw [List.map_cons] at hkeys
      obtain ⟨⟨k', w⟩, n, rfl, rfl, hrest⟩ := List.map_eq_cons_iff.mp hkeys.symm
      have hvalue := hget k'
      rw [get?_cons, get?_cons, if_pos (agrees_refl k'), if_pos (agrees_refl k')] at hvalue
      obtain rfl : v = w := Option.some.inj hvalue
      rw [ih (List.pairwise_cons.mp hm).2 (List.pairwise_cons.mp hn).2 hrest.symm fun l => ?_]
      by_cases hl : k'.agrees l = true
      · rw [hm.get?_eq_none hl, hn.get?_eq_none hl]
      · have hsame := hget l
        rwa [get?_cons, get?_cons, if_neg hl, if_neg hl] at hsame

end LogCalls.Mapping
