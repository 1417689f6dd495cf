/-
LogCalls/Proofs/Edit/Splice.lean

Edits that are apart.  Edits of which each starts where the one before has
stopped, or later, are in order and do not overlap, so they are applied as they
stand, the last one first (`applyAll_of_apart`).

An edit of a text that is cut at its offsets replaces the middle piece and
leaves the two others alone (`apply_append`).
-/
import LogCalls.Edit
import LogCalls.Proofs.Text.Places

namespace LogCalls.Edit

/-- The edits stand one behind the other, from an offset on. -/
def Apart : (low : Int) → List Edit → Prop
  | _, [] => True
  | low, e :: es => low ≤ e.start ∧ e.start ≤ e.stop ∧ Apart e.stop es

theorem Apart.le_of_mem {low : Int} {es : List Edit} (h : Apart low es) {e : Edit} (he : e ∈ es) :
    low ≤ e.start ∧ e.start ≤ e.stop := by
  induction es generalizing low with
  | nil => cases he
  | cons f es ih =>
      obtain ⟨hlow, hstop, hrest⟩ := h
      rcases List.mem_cons.mp he with rfl | he
      · exact ⟨hlow, hstop⟩
      · have := ih hrest he
        omega

theorem Apart.mono {low low' : Int} {es : List Edit} (h : Apart low es) (hle : low' ≤ low) :
    Apart low' es := by
  cases es with
  | nil => trivial
  | cons e es =>
      obtain ⟨hlow, hrest⟩ := h
      exact ⟨Int.le_trans hle hlow, hrest⟩

theorem Apart.pairwise_precedes {low : Int} {es : List Edit} (h : Apart low es) :
    es.Pairwise fun a b => precedes a b = true := by
  induction es generalizing low with
  | nil => exact .nil
  | cons f es ih =>
      obtain ⟨-, hstop, hrest⟩ := h
      refine .cons (fun e he => ?_) (ih hrest)
      have := hrest.le_of_mem he
      simp only [precedes, Bool.or_eq_true, Bool.and_eq_true, decide_eq_true_eq, beq_iff_eq]
      omega

theorem Apart.overlap?_eq_none {low : Int} {es : List Edit} (h : Apart low es) :
    overlap? es = none := by
  induction es generalizing low with
  | nil => rfl
  | cons f es ih =>
      obtain ⟨-, -, hrest⟩ := h
      cases es with
      | nil => rfl
      | cons g es =>
          have hg := (hrest.le_of_mem List.mem_cons_self).1
          rw [overlap?, if_neg (by omega)]
          exact ih hrest

/-- Edits that are apart are applied as they stand. -/
theorem applyAll_of_apart {low : Int} {es : List Edit} (h : Apart low es) (t : Text) :
    applyAll t es = .ok (applyOrdered es t) := by
  have hordered : ordered es = es := List.mergeSort_of_pairwise h.pairwise_precedes
  rw [applyAll, hordered, h.overlap?_eq_none]

theorem applyOrdered_append (es fs : List Edit) (t : Text) :
    applyOrdered (es ++ fs) t = applyOrdered es (applyOrdered fs t) :=
  List.foldr_append

/-- An edit replaces what stands between its offsets. -/
theorem apply_append {e : Edit} {x y z : Text} (hstart : e.start = x.length)
    (hstop : e.stop = (x ++ y).length) : e.apply (x ++ y ++ z) = x ++ e.newText ++ z := by
  have hx : Text.upTo (x ++ y ++ z) e.start = x := by
    rw [hstart, List.append_assoc, Text.upTo_length_append]
  have hz : Text.onFrom (x ++ y ++ z) e.stop = z := by
    rw [hstop, Text.onFrom_length_append]
  rw [apply, hx, hz]

/-! ### Edits of a text behind another one -/

/-- The edit, with `n` characters more in front of the text. -/
def shift (n : Nat) (e : Edit) : Edit := ⟨e.start + n, e.stop + n, e.newText⟩

theorem Apart.shift {low : Int} {es : List Edit} (h : Apart low es) (n : Nat) :
    Apart (low + n) (es.map (Edit.shift n)) := by
  induction es generalizing low with
  | nil => trivial
  | cons e es ih =>
      obtain ⟨hlow, hspan, hrest⟩ := h
      exact ⟨by simpa [Edit.shift] using hlow, by simpa [Edit.shift] using hspan, ih hrest⟩

/-- Edits of a text leave alone what is put in front of it. -/
theorem applyOrdered_shift {low : Int} {es : List Edit} (h : Apart low es) (hlow : 0 ≤ low)
    (x t : Text) :
    applyOrdered (es.map (Edit.shift x.length)) (x ++ t) = x ++ applyOrdered es t := by
  induction es generalizing low with
  | nil => rfl
  | cons e es ih =>
      obtain ⟨hstart, hspan, hrest⟩ := h
      rw [List.map_cons, applyOrdered_cons, applyOrdered_cons, ih hrest (by omega), apply, apply,
        Edit.shift, Text.upTo_append_add (by omega), Text.onFrom_append_add (by omega)]
      simp

end LogCalls.Edit
