/-
LogCalls/Proofs/Edit/Weaving.lean

Edits made at once.  Edits that do not overlap say by their offsets alone what
becomes of a text: the gaps between them are kept, and each of them stands in the
place of what it replaces (`woven`).  Applying them one after the other, the last
one first, comes to the same, since all that has changed by then stands behind
the edit that is applied next (`applyOrdered_eq_woven`).

Only neighbours in the order are compared.  That is enough, because edits of which
each starts where its neighbour has stopped are all apart
(`overlap?_ordered_eq_none_iff`).

The order and the comparison look at offsets only, so edits that are listed in
another order are refused for the same neighbours (`overlap?_ordered_perm`), and
edits with different offsets come into the same order (`ordered_eq_of_perm`).

Main result: `applyAll_weaves`.
-/
import Mathlib.Data.List.Nodup
import LogCalls.Proofs.Edit.Splice

namespace LogCalls.Edit

/-! ### Edits of a text -/

/-- The offsets of the edit are places of the text, the first of them first. -/
structure Within (t : Text) (e : Edit) : Prop where
  start_nonneg : 0 ≤ e.start
  start_le_stop : e.start ≤ e.stop
  stop_le : e.stop ≤ t.length

/-- Neither of two edits stops before the other one starts. -/
def Overlaps (a b : Edit) : Prop := ¬ a.stop ≤ b.start ∧ ¬ b.stop ≤ a.start

/-- Two edits put something in at one offset and replace nothing. -/
def InsertsBeside (a b : Edit) : Prop :=
  a.start = a.stop ∧ b.start = b.stop ∧ a.start = b.start

/-- Two entries of a list are related. -/
def TwoOf (related : Edit → Edit → Prop) (es : List Edit) : Prop :=
  ∃ (i j : Nat) (a b : Edit), i ≠ j ∧ es[i]? = some a ∧ es[j]? = some b ∧ related a b

/-- What becomes of a text from `low` on when edits are made in it at once. -/
def woven (t : Text) : (low : Int) → List Edit → Text
  | low, [] => t.drop low.toNat
  | low, e :: es => t.extract low.toNat e.start.toNat ++ e.newText ++ woven t e.stop es

/-- The offsets of an edit. -/
def span (e : Edit) : Int × Int := (e.start, e.stop)

variable {t : Text} {es es' : List Edit}

theorem overlaps_symm {a b : Edit} (h : Overlaps a b) : Overlaps b a := h.symm

theorem insertsBeside_symm {a b : Edit} (h : InsertsBeside a b) : InsertsBeside b a :=
  ⟨h.2.1, h.1, h.2.2.symm⟩

/-- No two entries are related where no entry is related to a later one. -/
theorem not_twoOf_iff {related : Edit → Edit → Prop}
    (hsymm : ∀ {a b}, related a b → related b a) :
    ¬ TwoOf related es ↔ es.Pairwise fun a b => ¬ related a b := by
  rw [List.pairwise_iff_getElem]
  constructor
  · intro h i j hi hj hij hrelated
    exact h ⟨i, j, es[i], es[j], Nat.ne_of_lt hij, List.getElem?_eq_getElem hi,
      List.getElem?_eq_getElem hj, hrelated⟩
  · rintro h ⟨i, j, a, b, hij, ha, hb, hrelated⟩
    obtain ⟨hi, rfl⟩ := List.getElem?_eq_some_iff.mp ha
    obtain ⟨hj, rfl⟩ := List.getElem?_eq_some_iff.mp hb
    rcases Nat.lt_or_gt_of_ne hij with hlt | hgt
    · exact h i j hi hj hlt hrelated
    · exact h j i hj hi hgt (hsymm hrelated)

theorem precedes_iff {a b : Edit} :
    precedes a b = true ↔ a.start < b.start ∨ (a.start = b.start ∧ a.stop ≤ b.stop) := by
  simp [precedes]

/-! ### The order of edits -/

theorem pairwise_ordered (es : List Edit) :
    (ordered es).Pairwise fun a b => precedes a b = true :=
  List.pairwise_mergeSort precedes_trans precedes_total es

/-- Edits with the same offsets stay in the order in which they are listed. -/
theorem filter_ordered (es : List Edit) (offsets : Int × Int) :
    (ordered es).filter (fun e => e.span = offsets) = es.filter (fun e => e.span = offsets) := by
  have hsame : (es.filter fun e => e.span = offsets).Pairwise fun a b => precedes a b = true := by
    refine List.pairwise_of_forall_mem_list fun a ha b hb => ?_
    have ha' : a.span = offsets := by simpa using (List.mem_filter.mp ha).2
    have hb' : b.span = offsets := by simpa using (List.mem_filter.mp hb).2
    have hspan : a.span = b.span := ha'.trans hb'.symm
    simp only [span, Prod.mk.injEq] at hspan
    rw [precedes_iff]
    omega
  -- the sort moves no edit in front of an earlier one that may stand there
  have hkept : List.Sublist (es.filter fun e => e.span = offsets) (ordered es) :=
    List.sublist_mergeSort precedes_trans precedes_total hsame List.filter_sublist
  have hfilter := hkept.filter fun e => decide (e.span = offsets)
  rw [List.filter_filter] at hfilter
  simp only [Bool.and_self] at hfilter
  exact (hfilter.eq_of_length ((ordered_perm es).symm.filter _).length_eq).symm

/-- The order of the offsets does not depend on the order of the list. -/
theorem map_span_ordered (h : es.Perm es') :
    (ordered es).map span = (ordered es').map span := by
  have hsorted : ∀ l : List Edit, ((ordered l).map span).Pairwise
      fun p q => p.1 < q.1 ∨ (p.1 = q.1 ∧ p.2 ≤ q.2) := by
    intro l
    rw [List.pairwise_map]
    exact (pairwise_ordered l).imp fun hab => precedes_iff.mp hab
  have hperm : ((ordered es).map span).Perm ((ordered es').map span) :=
    ((ordered_perm es).trans (h.trans (ordered_perm es').symm)).map span
  refine List.Perm.eq_of_pairwise ?_ (hsorted es) (hsorted es') hperm
  rintro ⟨a, a'⟩ ⟨b, b'⟩ - - hab hba
  simp only [Prod.mk.injEq] at hab hba ⊢
  omega

/-- Edits with different offsets have one order. -/
theorem ordered_eq_of_perm (h : es.Perm es') (hspans : (es.map span).Nodup) :
    ordered es = ordered es' := by
  refine List.Perm.eq_of_pairwise ?_ (pairwise_ordered es) (pairwise_ordered es')
    ((ordered_perm es).trans (h.trans (ordered_perm es').symm))
  intro a b ha hb hab hba
  have hspan : a.span = b.span := by
    rw [precedes_iff] at hab hba
    simp only [span, Prod.mk.injEq]
    omega
  have ha' : a ∈ es := (ordered_perm es).mem_iff.mp ha
  have hb' : b ∈ es := h.mem_iff.mpr ((ordered_perm es').mem_iff.mp hb)
  exact List.inj_on_of_nodup_map hspans ha' hb' hspan

/-! ### Neighbours that overlap -/

/-- The first overlap is one of offsets. -/
theorem overlap?_congr (h : es.map span = es'.map span) : overlap? es = overlap? es' := by
  induction es generalizing es' with
  | nil =>
      obtain rfl : es' = [] := List.map_eq_nil_iff.mp h.symm
      rfl
  | cons a es ih =>
      rcases es' with _ | ⟨a', es'⟩
      · cases h
      obtain ⟨ha, hrest⟩ := List.cons.inj h
      have hnext := ih hrest
      rcases es with _ | ⟨b, es⟩
      · obtain rfl : es' = [] := List.map_eq_nil_iff.mp hrest.symm
        rfl
      rcases es' with _ | ⟨b', es'⟩
      · cases hrest
      have hb := (List.cons.inj hrest).1
      simp only [span, Prod.mk.injEq] at ha hb
      rw [overlap?, overlap?, hnext, ha.1, ha.2, hb.1]

theorem overlap?_ordered_perm (h : es.Perm es') :
    overlap? (ordered es) = overlap? (ordered es') :=
  overlap?_congr (map_span_ordered h)

/-- An overlap is reported as one. -/
theorem exists_overlap_of_overlap? {fault : Fault} (h : overlap? es = some fault) :
    ∃ start stop next, fault = .overlap start stop next := by
  induction es with
  | nil => cases h
  | cons a es ih =>
      rcases es with _ | ⟨b, es⟩
      · cases h
      rw [overlap?] at h
      split at h
      · exact ⟨_, _, _, (Option.some.inj h).symm⟩
      · exact ih h

/-- Edits in order of which no neighbours overlap stand one behind the other. -/
theorem apart_of_overlap?_eq_none {low : Int}
    (hsorted : es.Pairwise fun a b => precedes a b = true)
    (hspan : ∀ e ∈ es, e.start ≤ e.stop) (hlow : ∀ e ∈ es, low ≤ e.start)
    (h : overlap? es = none) : Apart low es := by
  induction es generalizing low with
  | nil => trivial
  | cons a es ih =>
      obtain ⟨hfirst, hsorted⟩ := List.pairwise_cons.mp hsorted
      obtain ⟨ha, hspan⟩ := List.forall_mem_cons.mp hspan
      refine ⟨hlow a List.mem_cons_self, ha, ?_⟩
      rcases es with _ | ⟨b, es⟩
      · trivial
      rw [overlap?] at h
      split at h
      · cases h
      case isFalse hnot =>
        refine ih hsorted hspan (fun e he => ?_) h
        -- the neighbour starts where `a` has stopped, and all others start no earlier
        have hle : b.start ≤ e.start := by
          rcases List.mem_cons.mp he with rfl | he
          · exact Int.le_refl _
          · have hbe := precedes_iff.mp ((List.pairwise_cons.mp hsorted).1 e he)
            omega
        omega

theorem Apart.pairwise_not_overlaps {low : Int} (h : Apart low es) :
    es.Pairwise fun a b => ¬ Overlaps a b := by
  induction es generalizing low with
  | nil => exact .nil
  | cons a es ih =>
      obtain ⟨-, -, hrest⟩ := h
      refine .cons (fun e he hoverlaps => ?_) (ih hrest)
      exact hoverlaps.1 (hrest.le_of_mem he).1

/-- In order, an edit that does not overlap an earlier one starts behind it. -/
theorem stop_le_start_of_not_overlaps {a b : Edit} (hspan : b.start ≤ b.stop)
    (hprecedes : precedes a b = true) (h : ¬ Overlaps a b) : a.stop ≤ b.start := by
  rw [precedes_iff] at hprecedes
  simp only [Overlaps, not_and_or, not_not] at h
  omega

theorem overlap?_eq_none_of_pairwise (hspan : ∀ e ∈ es, e.start ≤ e.stop)
    (hsorted : es.Pairwise fun a b => precedes a b = true)
    (h : es.Pairwise fun a b => ¬ Overlaps a b) : overlap? es = none := by
  induction es with
  | nil => rfl
  | cons a es ih =>
      obtain ⟨-, hspans⟩ := List.forall_mem_cons.mp hspan
      obtain ⟨hfirst, hsorted⟩ := List.pairwise_cons.mp hsorted
      obtain ⟨hclear, hrest⟩ := List.pairwise_cons.mp h
      rcases es with _ | ⟨b, es⟩
      · rfl
      have hb : b ∈ b :: es := List.mem_cons_self
      have hle : a.stop ≤ b.start :=
        stop_le_start_of_not_overlaps (hspans b hb) (hfirst b hb) (hclear b hb)
      rw [overlap?, if_neg (Int.not_lt.mpr hle)]
      exact ih hspans hsorted hrest

/-- Edits are apart where no two of them overlap. -/
theorem apart_ordered (hwithin : ∀ e ∈ es, Within t e) (h : ¬ TwoOf Overlaps es) :
    Apart 0 (ordered es) := by
  have hmem : ∀ e ∈ ordered es, Within t e := fun e he =>
    hwithin e ((ordered_perm es).mem_iff.mp he)
  have hspan : ∀ e ∈ ordered es, e.start ≤ e.stop := fun e he => (hmem e he).start_le_stop
  have hclear : (ordered es).Pairwise fun a b => ¬ Overlaps a b := by
    rw [(ordered_perm es).pairwise_iff fun hab hba => hab (overlaps_symm hba)]
    exact (not_twoOf_iff overlaps_symm).mp h
  exact apart_of_overlap?_eq_none (pairwise_ordered es) hspan
    (fun e he => (hmem e he).start_nonneg)
    (overlap?_eq_none_of_pairwise hspan (pairwise_ordered es) hclear)

/-- Neighbours in the order overlap where any two edits do. -/
theorem overlap?_ordered_eq_none_iff (hwithin : ∀ e ∈ es, Within t e) :
    overlap? (ordered es) = none ↔ ¬ TwoOf Overlaps es := by
  constructor
  · intro h
    have hmem : ∀ e ∈ ordered es, Within t e := fun e he =>
      hwithin e ((ordered_perm es).mem_iff.mp he)
    have hapart : Apart 0 (ordered es) :=
      apart_of_overlap?_eq_none (pairwise_ordered es) (fun e he => (hmem e he).start_le_stop)
        (fun e he => (hmem e he).start_nonneg) h
    rw [not_twoOf_iff overlaps_symm,
      ← (ordered_perm es).pairwise_iff fun hab hba => hab (overlaps_symm hba)]
    exact hapart.pairwise_not_overlaps
  · intro h
    exact (apart_ordered hwithin h).overlap?_eq_none

/-! ### One after the other and at once -/

/-- A text up to one place, and from there up to a later one. -/
theorem take_append_extract (t : Text) {low high : Nat} (h : low ≤ high) :
    t.take low ++ t.extract low high = t.take high := by
  rw [List.extract_eq_take_drop, ← List.take_add, Nat.add_sub_cancel' h]

/-- Edits that are apart, applied from the last to the first, leave the text as it
is with all of them made at once. -/
theorem applyOrdered_eq_woven {low : Int} (h : Apart low es) (hlow : 0 ≤ low)
    (hstop : ∀ e ∈ es, e.stop ≤ t.length) :
    applyOrdered es t = t.take low.toNat ++ woven t low es := by
  induction es generalizing low with
  | nil => exact (List.take_append_drop _ _).symm
  | cons e es ih =>
      obtain ⟨hstart, hspan, hrest⟩ := h
      obtain ⟨he, hstops⟩ := List.forall_mem_cons.mp hstop
      -- what stands behind `e` has been changed, what it replaces has not
      have hlater : applyOrdered es t = t.take e.start.toNat ++
          t.extract e.start.toNat e.stop.toNat ++ woven t e.stop es := by
        rw [ih hrest (by omega) hstops, take_append_extract t (by omega)]
      have hfrom : e.start = (t.take e.start.toNat).length := by
        rw [List.length_take]
        omega
      have hupTo : e.stop = (t.take e.start.toNat ++
          t.extract e.start.toNat e.stop.toNat).length := by
        rw [take_append_extract t (by omega), List.length_take]
        omega
      calc applyOrdered (e :: es) t
          = e.apply (applyOrdered es t) := rfl
        _ = t.take e.start.toNat ++ e.newText ++ woven t e.stop es := by
            rw [hlater, apply_append hfrom hupTo]
        _ = t.take low.toNat ++ woven t low (e :: es) := by
            rw [← take_append_extract t (show low.toNat ≤ e.start.toNat by omega), woven]
            simp only [List.append_assoc]

/-! ### What edits do -/

theorem applyAll_eq_error_iff {fault : Fault} :
    applyAll t es = .error fault ↔ overlap? (ordered es) = some fault := by
  rw [applyAll]
  rcases overlap? (ordered es) with _ | f
  · simp
  · simp

/-- Edits of which no two overlap, and no two insert at one offset, have different
offsets. -/
theorem nodup_map_span (hwithin : ∀ e ∈ es, Within t e) (hclear : ¬ TwoOf Overlaps es)
    (hinserts : ¬ TwoOf InsertsBeside es) : (es.map span).Nodup := by
  rw [not_twoOf_iff overlaps_symm] at hclear
  rw [not_twoOf_iff insertsBeside_symm] at hinserts
  rw [List.Nodup, List.pairwise_map]
  refine (List.Pairwise.and_mem.mp (hclear.and hinserts)).imp ?_
  rintro a b ⟨ha, -, hoverlaps, hbeside⟩ hspan
  have hspan_a := (hwithin a ha).start_le_stop
  simp only [span, Prod.mk.injEq] at hspan
  simp only [Overlaps, InsertsBeside] at hoverlaps hbeside
  omega

/-- **Edits are made at once.**  Edits of a text are refused exactly where two of
them overlap.  Otherwise the gaps between them are kept and each stands in the place
of what it replaces, in the order of their offsets, and of the list where the
offsets are equal.  Edits of which no two insert at one offset can be listed in any
order. -/
theorem applyAll_weaves (hwithin : ∀ e ∈ es, Within t e) :
    ((∃ fault, applyAll t es = .error fault ∧ fault.label = "ValueError") ↔
        TwoOf Overlaps es) ∧
      (¬ TwoOf Overlaps es → ∃ sorted, sorted.Perm es ∧
        sorted.Pairwise (fun a b => a.start < b.start ∨ a.start = b.start ∧ a.stop ≤ b.stop) ∧
        (∀ offsets, sorted.filter (fun e => e.span = offsets) =
          es.filter (fun e => e.span = offsets)) ∧
        applyAll t es = .ok (woven t 0 sorted)) ∧
      (¬ TwoOf InsertsBeside es → ∀ es', es'.Perm es → applyAll t es' = applyAll t es) := by
  have hnone := overlap?_ordered_eq_none_iff hwithin
  refine ⟨?_, ?_, ?_⟩
  · simp only [applyAll_eq_error_iff]
    constructor
    · rintro ⟨fault, hfault, -⟩
      by_contra hclear
      rw [hnone.mpr hclear] at hfault
      cases hfault
    · intro htwo
      rcases h : overlap? (ordered es) with _ | fault
      · exact absurd htwo (hnone.mp h)
      · obtain ⟨start, stop, next, rfl⟩ := exists_overlap_of_overlap? h
        exact ⟨_, rfl, rfl⟩
  · intro hclear
    refine ⟨ordered es, ordered_perm es, ?_, filter_ordered es, ?_⟩
    · exact (pairwise_ordered es).imp fun hab => precedes_iff.mp hab
    · have hapart := apart_ordered hwithin hclear
      have hstop : ∀ e ∈ ordered es, e.stop ≤ t.length := fun e he =>
        (hwithin e ((ordered_perm es).mem_iff.mp he)).stop_le
      rw [applyAll, hapart.overlap?_eq_none]
      exact congrArg Except.ok (applyOrdered_eq_woven hapart (Int.le_refl 0) hstop)
  · intro hinserts es' hperm
    have hfaults := overlap?_ordered_perm hperm
    by_cases hclear : TwoOf Overlaps es
    · -- both lists are refused, for the same neighbours
      rcases h : overlap? (ordered es) with _ | fault
      · exact absurd hclear (hnone.mp h)
      · rw [applyAll_eq_error_iff.mpr h, applyAll_eq_error_iff.mpr (hfaults.trans h)]
    · have hordered : ordered es = ordered es' :=
        ordered_eq_of_perm hperm.symm (nodup_map_span hwithin hclear hinserts)
      rw [applyAll, applyAll, hordered]

/-- A replacement between two insertions, one at each of its ends, listed from the
last to the first. -/
def bordered : List Edit := [⟨4, 4, ['>']⟩, ⟨2, 4, ['x']⟩, ⟨2, 2, ['<']⟩]

theorem applyAll_weaves_bordered :
    applyAll "abcdef".toList bordered = .ok "ab<x>ef".toList ∧
      applyAll "abcdef".toList bordered.reverse = .ok "ab<x>ef".toList := by
  have hwithin : ∀ e ∈ bordered, Within "abcdef".toList e := by
    rw [bordered, List.forall_mem_cons, List.forall_mem_cons, List.forall_mem_singleton]
    exact ⟨⟨by decide, by decide, by decide⟩, ⟨by decide, by decide, by decide⟩,
      ⟨by decide, by decide, by decide⟩⟩
  have hinserts : ¬ TwoOf InsertsBeside bordered := by
    rw [not_twoOf_iff insertsBeside_symm]
    simp [bordered, InsertsBeside]
  obtain ⟨-, -, hperm⟩ := applyAll_weaves hwithin
  have hapart : Apart 0 bordered.reverse := by
    simp [bordered, Apart]
  have happly : applyAll "abcdef".toList bordered.reverse = .ok "ab<x>ef".toList := by
    rw [applyAll_of_apart hapart]
    rfl
  refine ⟨?_, happly⟩
  rw [← hperm hinserts _ (List.reverse_perm bordered), happly]

end LogCalls.Edit
