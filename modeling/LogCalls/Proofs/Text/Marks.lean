/-
LogCalls/Proofs/Text/Marks.lean

Texts that are divided by a mark.  The pieces between all marks hold none
(`not_mem_of_mem_splitAll`), and dividing is undone by putting the mark between the
pieces (`splitAll_intercalate`, `intercalate_splitAll`); two texts in a row have one
piece in common (`splitAll_append`).  A text is divided at its first mark where what
stands before it holds none (`splitAtFirst?_eq_some_iff`).
-/
import LogCalls.Text.Lines

namespace LogCalls.Text

variable {mark : Char}

theorem splitAll_ne_nil (mark : Char) (x : Text) : splitAll mark x ≠ [] := by
  cases x with
  | nil => exact List.cons_ne_nil _ _
  | cons c r =>
      rw [splitAll]
      split
      · exact List.cons_ne_nil _ _
      · split <;> exact List.cons_ne_nil _ _

theorem splitAll_of_not_mem {x : Text} (h : mark ∉ x) : splitAll mark x = [x] := by
  induction x with
  | nil => rfl
  | cons c r ih =>
      rw [List.mem_cons, not_or] at h
      rw [splitAll, if_neg (Ne.symm h.1), ih h.2]

theorem splitAll_append_cons {x : Text} (h : mark ∉ x) (y : Text) :
    splitAll mark (x ++ mark :: y) = x :: splitAll mark y := by
  induction x with
  | nil => rw [List.nil_append, splitAll, if_pos rfl]
  | cons c r ih =>
      rw [List.mem_cons, not_or] at h
      rw [List.cons_append, splitAll, if_neg (Ne.symm h.1), ih h.2]

/-- No piece between marks holds a mark. -/
theorem not_mem_of_mem_splitAll {x piece : Text} (h : piece ∈ splitAll mark x) : mark ∉ piece := by
  induction x generalizing piece with
  | nil =>
      obtain rfl := List.mem_singleton.mp h
      exact List.not_mem_nil
  | cons c r ih =>
      rw [splitAll] at h
      split at h
      · rcases List.mem_cons.mp h with rfl | h
        · exact List.not_mem_nil
        · exact ih h
      next hc =>
        have hcons : ∀ l ∈ splitAll mark r, mark ∉ c :: l := fun l hl => by
          rw [List.mem_cons, not_or]
          exact ⟨Ne.symm hc, ih hl⟩
        split at h
        · obtain rfl := List.mem_singleton.mp h
          simpa using Ne.symm hc
        next l ls heq =>
          rw [heq] at ih hcons
          rcases List.mem_cons.mp h with rfl | h
          · exact hcons l List.mem_cons_self
          · exact ih (List.mem_cons_of_mem l h)

theorem splitAll_intercalate {pieces : List Text} (hne : pieces ≠ [])
    (h : ∀ piece ∈ pieces, mark ∉ piece) : splitAll mark ([mark].intercalate pieces) = pieces := by
  induction pieces with
  | nil => exact absurd rfl hne
  | cons x pieces ih =>
      rw [List.forall_mem_cons] at h
      rcases pieces with _ | ⟨y, pieces⟩
      · rw [List.intercalate_singleton, splitAll_of_not_mem h.1]
      · rw [List.intercalate_cons_cons, List.append_assoc, List.singleton_append,
          splitAll_append_cons h.1, ih (List.cons_ne_nil _ _) h.2]

theorem splitAll_replicate_append (n : Nat) (x : Text) :
    splitAll mark (List.replicate n mark ++ x) = List.replicate n [] ++ splitAll mark x := by
  induction n with
  | zero => rfl
  | succ n ih =>
      rw [List.replicate_succ, List.cons_append, splitAll, if_pos rfl, ih, List.replicate_succ,
        List.cons_append]

/-- The last piece of a text and the first of the next one are one piece of both. -/
theorem splitAll_append (mark : Char) (x y : Text) :
    ∃ front last first rest, splitAll mark x = front ++ [last] ∧ splitAll mark y = first :: rest ∧
      splitAll mark (x ++ y) = front ++ (last ++ first) :: rest := by
  induction x with
  | nil =>
      obtain ⟨first, rest, hy⟩ := List.exists_cons_of_ne_nil (splitAll_ne_nil mark y)
      exact ⟨[], [], first, rest, rfl, hy, hy⟩
  | cons c r ih =>
      obtain ⟨front, last, first, rest, hr, hy, hboth⟩ := ih
      rw [List.cons_append, splitAll, splitAll, hr, hboth]
      by_cases hc : c = mark
      · rw [if_pos hc, if_pos hc]
        exact ⟨[] :: front, last, first, rest, rfl, hy, rfl⟩
      · rw [if_neg hc, if_neg hc]
        cases front with
        | nil => exact ⟨[], c :: last, first, rest, rfl, hy, rfl⟩
        | cons piece front => exact ⟨(c :: piece) :: front, last, first, rest, rfl, hy, rfl⟩

theorem intercalate_splitAll (mark : Char) (x : Text) :
    [mark].intercalate (splitAll mark x) = x := by
  induction x with
  | nil => rfl
  | cons c r ih =>
      rcases hr : splitAll mark r with _ | ⟨piece, pieces⟩
      · exact absurd hr (splitAll_ne_nil mark r)
      rw [hr] at ih
      by_cases hc : c = mark
      · rw [splitAll, if_pos hc, hr, List.intercalate_cons_cons, ih, hc]
        rfl
      · rw [splitAll, if_neg hc, hr]
        dsimp only
        rcases pieces with _ | ⟨next, pieces⟩
        · rw [List.intercalate_singleton] at ih ⊢
          rw [ih]
        · rw [List.intercalate_cons_cons] at ih ⊢
          rw [List.cons_append, List.cons_append, ih]

/-- The pieces hold characters of the text only. -/
theorem mem_of_mem_splitAll {c : Char} {x piece : Text} (h : piece ∈ splitAll mark x)
    (hc : c ∈ piece) : c ∈ x := by
  rw [← intercalate_splitAll mark x]
  generalize splitAll mark x = pieces at h
  induction pieces with
  | nil => exact absurd h List.not_mem_nil
  | cons y pieces ih =>
      rcases pieces with _ | ⟨z, pieces⟩
      · rw [List.intercalate_singleton, ← List.mem_singleton.mp h]
        exact hc
      · rw [List.intercalate_cons_cons, List.append_assoc, List.mem_append, List.mem_append]
        rcases List.mem_cons.mp h with rfl | h
        · exact .inl hc
        · exact .inr (.inr (ih h))

/-- A character of divided pieces is the mark or one of a piece. -/
theorem not_mem_intercalate {c : Char} {pieces : List Text} (hmark : c ≠ mark)
    (h : ∀ piece ∈ pieces, c ∉ piece) : c ∉ [mark].intercalate pieces := by
  induction pieces with
  | nil => exact List.not_mem_nil
  | cons x pieces ih =>
      rw [List.forall_mem_cons] at h
      rcases pieces with _ | ⟨y, pieces⟩
      · rw [List.intercalate_singleton]
        exact h.1
      · rw [List.intercalate_cons_cons, List.mem_append, List.mem_append, List.mem_singleton]
        rintro ((hx | hc) | hrest)
        · exact h.1 hx
        · exact hmark hc
        · exact ih h.2 hrest

/-! ### The first mark -/

theorem splitAtFirst?_eq_none_iff {t : Text} : splitAtFirst? mark t = none ↔ mark ∉ t := by
  induction t with
  | nil => exact iff_of_true rfl List.not_mem_nil
  | cons c r ih =>
      rw [splitAtFirst?, List.mem_cons, not_or]
      split
      next hc => exact iff_of_false nofun fun h => h.1 hc.symm
      next hc => rw [Option.map_eq_none_iff, ih, and_iff_right (Ne.symm hc)]

theorem splitAtFirst?_eq_some_iff {t x y : Text} :
    splitAtFirst? mark t = some (x, y) ↔ t = x ++ mark :: y ∧ mark ∉ x := by
  induction t generalizing x with
  | nil => simp [splitAtFirst?]
  | cons c r ih =>
      rw [splitAtFirst?]
      split
      next hc =>
        subst hc
        rw [Option.some.injEq, Prod.mk.injEq]
        constructor
        · rintro ⟨rfl, rfl⟩
          exact ⟨rfl, List.not_mem_nil⟩
        · rintro ⟨htext, hx⟩
          rcases x with _ | ⟨d, x⟩
          · exact ⟨rfl, (List.cons.inj htext).2⟩
          · rw [(List.cons.inj htext).1] at hx
            exact absurd List.mem_cons_self hx
      next hc =>
        rw [Option.map_eq_some_iff]
        constructor
        · rintro ⟨⟨x', y'⟩, hrest, heq⟩
          obtain ⟨rfl, rfl⟩ := Prod.mk.inj heq
          obtain ⟨rfl, hx⟩ := ih.mp hrest
          exact ⟨rfl, List.not_mem_cons_of_ne_of_not_mem (Ne.symm hc) hx⟩
        · rintro ⟨htext, hx⟩
          rcases x with _ | ⟨d, x⟩
          · exact absurd (List.cons.inj htext).1 hc
          · obtain ⟨rfl, htail⟩ := List.cons.inj htext
            exact ⟨(x, y), ih.mpr ⟨htail, fun hmem => hx (List.mem_cons_of_mem _ hmem)⟩, rfl⟩

end LogCalls.Text
