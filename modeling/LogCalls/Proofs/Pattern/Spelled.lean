/-
LogCalls/Proofs/Pattern/Spelled.lean

Patterns that spell a word out.  Such a pattern can be read at a place where the
word stands, and goes on behind it (`meets_spelled`); with a boundary behind the
word it occurs in a text where the word stands and no word character follows
(`occursIn_spelled_boundary`).

Main result: the pattern that marks a generated logger unless the settings say
otherwise occurs where the annotation stands as a word of its own
(`Style.usesLombok_eq_annotated`).
-/
import Mathlib
import LogCalls.Action
import LogCalls.Proofs.Outcome

namespace LogCalls

namespace Pattern

/-! ### Words -/

/-- The pattern of a word and what is behind it. -/
def spelled : (word : Text) → (rest : Pattern) → Pattern
  | [], rest => rest
  | c :: word, rest => .seq (.char (.only c)) (spelled word rest)

theorem getElem?_toArray_append (x y : Text) : (x ++ y).toArray[x.length]? = y.head? := by
  rw [List.getElem?_toArray, List.getElem?_append_right (Nat.le_refl _), Nat.sub_self,
    List.head?_eq_getElem?]

/-- A word is read where it stands. -/
theorem meets_spelled {word x y : Text} {rest : Pattern} {groups : List (Nat × Span)}
    {goal : Goal} :
    meets (x ++ y).toArray (spelled word rest) ⟨x.length, groups⟩ goal =
      if word <+: y then meets (x ++ y).toArray rest ⟨(x ++ word).length, groups⟩ goal
      else none := by
  induction word generalizing x y with
  | nil => simp [spelled]
  | cons c word ih =>
      rw [spelled, meets, meets]
      dsimp only
      rw [getElem?_toArray_append]
      rcases y with _ | ⟨d, y⟩
      · simp
      · by_cases hd : d = c
        · subst hd
          have hrest := ih (x := x ++ [d]) (y := y)
          rw [List.length_append, List.length_singleton, List.append_assoc,
            List.singleton_append] at hrest
          simp only [List.head?_cons, CharSet.holds_only, beq_self_eq_true, if_true, hrest,
            List.cons_prefix_cons, true_and, List.append_assoc, List.singleton_append]
        · simp [hd, Ne.symm hd]

/-- Behind a word character there is a boundary where no word character
follows. -/
theorem occursAt_boundary {u r : Text} {c : Char} (hc : Text.isWord c = true) :
    occursAt (.boundary true .every) (u ++ [c] ++ r).toArray (u ++ [c]).length = true ↔
      r.head?.any Text.isWord = false := by
  have hword : Kind.word.holds .every = Text.isWord := by
    funext d
    simp [Kind.holds]
  have hbefore : charBefore? (u ++ [c] ++ r).toArray (u ++ [c]).length = some c := by
    rw [charBefore?, if_neg (by simp), List.append_assoc, List.length_append,
      List.length_singleton, Nat.add_sub_cancel, getElem?_toArray_append]
    rfl
  have hboundary : isBoundary .every (u ++ [c] ++ r).toArray (u ++ [c]).length =
      !r.head?.any Text.isWord := by
    rw [isBoundary, hbefore, getElem?_toArray_append, hword, Option.any_some, hc]
    cases r.head?.any Text.isWord <;> rfl
  rw [occursAt, meets, hboundary]
  cases r.head?.any Text.isWord <;> simp

/-- A word with a boundary behind it occurs where the word stands and no word
character follows. -/
theorem occursIn_spelled_boundary {word t : Text} {c : Char} (hc : Text.isWord c = true) :
    (spelled (word ++ [c]) (.boundary true .every)).occursIn t = true ↔
      ∃ x r, t = x ++ (word ++ [c]) ++ r ∧ r.head?.any Text.isWord = false := by
  have hplace : ∀ x r : Text, occursAt (spelled (word ++ [c]) (.boundary true .every))
      (x ++ (word ++ [c] ++ r)).toArray x.length = true ↔ r.head?.any Text.isWord = false := by
    intro x r
    have hboundary := occursAt_boundary (u := x ++ word) (r := r) hc
    rw [List.append_assoc x, List.append_assoc x] at hboundary
    rw [occursAt, meets_spelled, if_pos (List.prefix_append _ r)]
    exact hboundary
  rw [occursIn_iff]
  constructor
  · rintro ⟨k, hk, h⟩
    obtain ⟨x, y, rfl, rfl⟩ : ∃ x y, t = x ++ y ∧ k = x.length :=
      ⟨t.take k, t.drop k, (List.take_append_drop k t).symm, by simp [hk]⟩
    by_cases hprefix : word ++ [c] <+: y
    · obtain ⟨r, rfl⟩ := hprefix
      exact ⟨x, r, (List.append_assoc x _ r).symm, (hplace x r).mp h⟩
    · rw [occursAt, meets_spelled, if_neg hprefix] at h
      cases h
  · rintro ⟨x, r, rfl, hr⟩
    refine ⟨x.length, by simp, ?_⟩
    rw [List.append_assoc]
    exact (hplace x r).mpr hr

end Pattern

/-! ### The annotation of a generated logger -/

/-- The annotation stands in a text, with no word character right behind it. -/
def Style.Annotated (t : Text) : Prop :=
  ∃ x r, t = x ++ "@Slf4j".toList ++ r ∧ r.head?.any Text.isWord = false

theorem Style.read_lombokPattern_default :
    Pattern.read default.lombokPattern.toList =
      .ok (.spelled ("@Slf4".toList ++ ['j']) (.boundary true .every)) := by
  cbv

/-- The usual pattern occurs where the annotation stands as a word. -/
theorem Style.occursIn_iff_annotated {style : Style} {p : Pattern} {t : Text}
    (hpattern : style.lombokPattern = default.lombokPattern)
    (hp : Pattern.read style.lombokPattern.toList = .ok p) :
    p.occursIn t = true ↔ Annotated t := by
  rw [hpattern, read_lombokPattern_default] at hp
  obtain rfl := Except.ok.inj hp
  exact Pattern.occursIn_spelled_boundary (by decide)

open Classical in
/-- Looking for the usual pattern never fails, and finds the annotation. -/
theorem Style.usesLombok_eq_annotated {style : Style}
    (hpattern : style.lombokPattern = default.lombokPattern) (t : Text) :
    style.usesLombok t = .ok (decide (Annotated t)) := by
  have hread := read_lombokPattern_default
  rw [← hpattern] at hread
  have hoccurs : (Pattern.spelled ("@Slf4".toList ++ ['j']) (.boundary true .every)).occursIn t =
      decide (Annotated t) := by
    rw [Bool.eq_iff_iff, occursIn_iff_annotated hpattern hread, decide_eq_true_eq]
  rw [usesLombok, hread, ok_bind, hoccurs]
  rfl

end LogCalls
