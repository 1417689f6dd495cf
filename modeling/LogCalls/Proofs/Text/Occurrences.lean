/-
LogCalls/Proofs/Text/Occurrences.lean

How often a text occurs in another one, from left to right.  The count is read
off the first occurrence: it is zero where there is none
(`occurrences_eq_zero_iff`), and otherwise one more than behind that occurrence
(`occurrences_of_breakAt?_eq_some`).
-/
import LogCalls.Text.Search

namespace LogCalls.Text

variable {part t before behind : Text}

/-- What a text starts with, it starts with alone if it is long enough. -/
theorem isPrefixOf_append_iff {w : Text} (hle : part.length ≤ t.length) :
    part.isPrefixOf (t ++ w) = part.isPrefixOf t := by
  rw [Bool.eq_iff_iff, List.isPrefixOf_iff_prefix, List.isPrefixOf_iff_prefix]
  constructor
  · intro h
    exact List.prefix_of_prefix_length_le h (List.prefix_append t w) hle
  · intro h
    exact h.trans (List.prefix_append t w)

theorem length_le_of_breakAt?_eq_some (h : breakAt? part t = some (before, behind)) :
    part.length + behind.length ≤ t.length := by
  rw [breakAt?_eq_some h]
  simp only [List.length_append]
  omega

/-- The first occurrence stays the first one when the text goes on. -/
theorem breakAt?_append (hpart : part ≠ []) (h : breakAt? part t = some (before, behind))
    (w : Text) : breakAt? part (t ++ w) = some (before, behind ++ w) := by
  have hle : part.length ≤ t.length := by
    have := length_le_of_breakAt?_eq_some h
    omega
  induction t generalizing before with
  | nil => exact absurd (List.length_eq_zero_iff.mp (Nat.le_zero.mp hle)) hpart
  | cons c r ih =>
      rw [breakAt?] at h
      rw [List.cons_append, breakAt?, ← List.cons_append, isPrefixOf_append_iff hle]
      by_cases hfirst : part.isPrefixOf (c :: r) = true
      · rw [if_pos hfirst] at h ⊢
        obtain ⟨rfl, rfl⟩ := Prod.mk.inj (Option.some.inj h)
        rw [List.drop_append_of_le_length hle]
      · rw [if_neg hfirst] at h ⊢
        obtain ⟨⟨b, b'⟩, hb, heq⟩ := Option.map_eq_some_iff.mp h
        obtain ⟨rfl, rfl⟩ := Prod.mk.inj heq
        have hle' : part.length ≤ r.length := by
          have := length_le_of_breakAt?_eq_some hb
          omega
        rw [ih hb hle', Option.map_some]

/-- As many cuts as there are characters are as many as there can be. -/
theorem piecesUpTo_of_length_le (hpart : part ≠ []) {n m : Nat} (hn : t.length ≤ n)
    (hm : t.length ≤ m) : piecesUpTo part n t = piecesUpTo part m t := by
  have hpos : 0 < part.length := List.length_pos_iff.mpr hpart
  induction n generalizing m t with
  | zero =>
      obtain rfl : t = [] := List.length_eq_zero_iff.mp (Nat.le_zero.mp hn)
      cases m with
      | zero => rfl
      | succ m => simp [piecesUpTo, breakAt?, hpart]
  | succ n ih =>
      cases m with
      | zero =>
          obtain rfl : t = [] := List.length_eq_zero_iff.mp (Nat.le_zero.mp hm)
          simp [piecesUpTo, breakAt?, hpart]
      | succ m =>
          rw [piecesUpTo, piecesUpTo]
          split
          · next before behind hbreak =>
              have hle := length_le_of_breakAt?_eq_some hbreak
              rw [ih (t := behind) (m := m) (by omega) (by omega)]
          · rfl

theorem occurrences_of_breakAt?_eq_none (hpart : part ≠ []) (h : breakAt? part t = none) :
    occurrences part t = 0 := by
  have hpieces : ∀ n, piecesUpTo part n t = [t] := by
    intro n
    cases n <;> simp [piecesUpTo, h]
  simp [occurrences, hpart, hpieces]

theorem occurrences_of_breakAt?_eq_some (hpart : part ≠ [])
    (h : breakAt? part t = some (before, behind)) :
    occurrences part t = occurrences part behind + 1 := by
  have hpos : 0 < part.length := List.length_pos_iff.mpr hpart
  have hle := length_le_of_breakAt?_eq_some h
  obtain ⟨n, hn⟩ : ∃ n, t.length = n + 1 := ⟨t.length - 1, by omega⟩
  have hne : 0 < (piecesUpTo part behind.length behind).length :=
    List.length_pos_iff.mpr (piecesUpTo_ne_nil part behind.length behind)
  have hpieces : piecesUpTo part t.length t =
      before :: piecesUpTo part behind.length behind := by
    rw [hn, piecesUpTo, h]
    dsimp only
    rw [piecesUpTo_of_length_le hpart (n := n) (m := behind.length) (by omega) (Nat.le_refl _)]
  have hempty : part.isEmpty = false := by simpa using hpart
  simp only [occurrences, hempty, Bool.false_eq_true, if_false, hpieces, List.length_cons]
  omega

theorem occurrences_eq_zero_iff (hpart : part ≠ []) :
    occurrences part t = 0 ↔ breakAt? part t = none := by
  constructor
  · intro h
    rcases hb : breakAt? part t with _ | ⟨before, behind⟩
    · rfl
    · rw [occurrences_of_breakAt?_eq_some hpart hb] at h
      cases h
  · exact occurrences_of_breakAt?_eq_none hpart

end LogCalls.Text
