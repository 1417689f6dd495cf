/-
LogCalls/Proofs/Action/Edits.lean

What the two edits of an action do to the call that they are made for.  A call that
stands in a text is given by its pieces, and the offsets of the edits are the ends
of these pieces (`Stands.mention_stop`, `Stands.openParen_add_one`,
`Stands.stop_sub_one`).  So the edits write the new call in the place of the old one
and leave what stands around it as it was (`Stands.applyAll_editsFor`).
-/
import LogCalls.Action
import LogCalls.Proofs.CallSite.Shape
import LogCalls.Proofs.Edit.Splice

namespace LogCalls

namespace CallSite.Stands

variable {site : CallSite} {x blanks argument r t : Text}
  (h : Stands site x blanks argument r t)
include h

/-! ### The offsets of the pieces -/

theorem mention_stop : site.mention.stop = (x ++ site.mention.matched).length :=
  Mention.stop_eq_length h.start

theorem openParen_add_one :
    site.openParen + 1 = (x ++ site.mention.matched ++ blanks ++ ['(']).length := by
  rw [h.openParen, h.mention_stop]
  simp only [List.length_append, List.length_singleton]
  omega

theorem stop_sub_one :
    site.stop - 1 = (x ++ site.mention.matched ++ blanks ++ ['('] ++ argument).length := by
  have hopen := h.openParen_add_one
  rw [List.length_append, Int.natCast_add, ← hopen, h.stop]
  omega

/-! ### The edits -/

variable (logger severity : String) (replacement : Text)

/-- The edits of an action, the last one applied first. -/
theorem applyOrdered_editsFor :
    Edit.applyOrdered (Action.editsFor site logger severity replacement) t =
      x ++ Action.callee logger severity ++ (blanks ++ '(' :: replacement ++ [')'] ++ r) := by
  have hold : t = x ++ site.mention.matched ++ blanks ++ ['('] ++ argument ++ ([')'] ++ r) := by
    rw [h.text]
    simp
  have hmiddle : x ++ site.mention.matched ++ blanks ++ ['('] ++ replacement ++ ([')'] ++ r) =
      x ++ site.mention.matched ++ (blanks ++ '(' :: replacement ++ [')'] ++ r) := by
    simp
  -- the argument is written first, so the offsets of the mention still count
  have hlast : Edit.apply ⟨site.openParen + 1, site.stop - 1, replacement⟩ t =
      x ++ site.mention.matched ++ (blanks ++ '(' :: replacement ++ [')'] ++ r) := by
    rw [hold, Edit.apply_append h.openParen_add_one h.stop_sub_one, hmiddle]
  rw [Action.editsFor, Edit.applyOrdered_cons, Edit.applyOrdered_cons, Edit.applyOrdered_nil,
    hlast, Edit.apply_append h.start h.mention_stop]

/-- The edits of an action lie between the ends of its call. -/
theorem apart_editsFor {es : List Edit} (hes : Edit.Apart site.stop es) :
    Edit.Apart site.mention.start (Action.editsFor site logger severity replacement ++ es) := by
  have hstart := h.start
  have hmention := h.mention_stop
  have hopen := h.openParen_add_one
  have hclose := h.stop_sub_one
  simp only [List.length_append] at hmention hopen hclose
  refine ⟨Int.le_refl _, ?_, ?_, ?_, hes.mono ?_⟩
  all_goals dsimp only
  all_goals omega

/-- The edits of an action write the new call in the place of the old one. -/
theorem applyAll_editsFor :
    Edit.applyAll t (Action.editsFor site logger severity replacement) =
      .ok (x ++ Action.callee logger severity ++ (blanks ++ '(' :: replacement ++ [')'] ++ r)) := by
  have hapart : Edit.Apart site.mention.start
      (Action.editsFor site logger severity replacement ++ []) :=
    h.apart_editsFor logger severity replacement trivial
  rw [List.append_nil] at hapart
  rw [Edit.applyAll_of_apart hapart, h.applyOrdered_editsFor]

end CallSite.Stands

end LogCalls
