/-
LogCalls/Proofs/Argument/Reading.lean

What reading an argument gives, once its scan is known.  The atoms are those of
the raw tokens in order, and validity and length are those of the scan
(`result_read`).

Reading fails on nothing but integers with more digits than can be read, so it
gives an argument exactly where no token is overlong (`exists_read_eq_ok_iff`),
and the fault says that there were too many digits
(`exists_read_eq_error_of_overlong`).
-/
import LogCalls.Argument
import LogCalls.Proofs.Outcome

namespace LogCalls

/-! ### Tokens that cannot be read -/

namespace Atom

/-- What the atom of a token is, by the first character that is not blank. -/
theorem ofToken_cases {t : Text} {a : Atom} (h : ofToken t = .ok a) :
    ((Text.trimStart t).head?.any isQuote = true ∧ a = literal (unquoted t)) ∨
      (∃ n, (Text.trimStart t).head?.any Text.isDigit = true ∧ Number.read t = .ok n ∧
        a = numeral n) ∨
      ((Text.trimStart t).head?.any (fun c => isQuote c || Text.isDigit c) = false ∧
        a = expression (Text.trim t)) := by
  rw [ofToken] at h
  split at h
  · next c r ht =>
      rw [ht, List.head?_cons]
      split at h
      · next hquote => exact .inl ⟨hquote, (Except.ok.inj h).symm⟩
      split at h
      · next hdigit =>
          obtain ⟨n, hn, rfl⟩ := map_eq_ok_iff.mp h
          exact .inr (.inl ⟨n, hdigit, hn, rfl⟩)
      · next hquote hdigit =>
          exact .inr (.inr ⟨by simp [hquote, hdigit], (Except.ok.inj h).symm⟩)
  · next ht =>
      rw [ht]
      exact .inr (.inr ⟨rfl, (Except.ok.inj h).symm⟩)

/-- A token that is read as a decimal integer and starts with more digits than
can be read. -/
def Overlong (t : Text) : Prop :=
  Number.hexDigits? t = none ∧ Number.hasRealMark t = false ∧
    Fault.digitLimit < ((Text.trimStart t).takeWhile Text.isDigit).length

theorem isQuote_eq_false_of_isDigit {c : Char} (h : Text.isDigit c = true) :
    isQuote c = false := by
  rw [isQuote, Bool.or_eq_false_iff, beq_eq_false_iff_ne, beq_eq_false_iff_ne]
  constructor <;> (rintro rfl; exact absurd h (by decide))

/-- A text that starts with a digit starts with no sign. -/
theorem takeSign_of_isDigit {c : Char} (r : Text) (h : Text.isDigit c = true) :
    Number.takeSign (c :: r) = (false, c :: r) := by
  have hm : c ≠ '-' := by rintro rfl; exact absurd h (by decide)
  have hp : c ≠ '+' := by rintro rfl; exact absurd h (by decide)
  unfold Number.takeSign
  split <;> simp_all

/-- The number that a digit starts, where its digits can be read. -/
theorem read_of_isDigit {t r : Text} {c : Char} (ht : Text.trimStart t = c :: r)
    (hc : Text.isDigit c = true) (hh : Number.hexDigits? t = none)
    (hm : Number.hasRealMark t = false) :
    Number.read t = (Number.readDigits ((c :: r).takeWhile Text.isDigit)).map
      fun n => Number.whole n := by
  have hd : (c :: r).takeWhile Text.isDigit ≠ [] := by simp [hc]
  simp only [Number.read, hh, hm, ht, takeSign_of_isDigit r hc, hd, if_false, Bool.false_eq_true]
  cases Number.readDigits ((c :: r).takeWhile Text.isDigit) <;> rfl

/-- A token that starts with a digit is a numeral. -/
theorem ofToken_of_isDigit {t r : Text} {c : Char} (ht : Text.trimStart t = c :: r)
    (hc : Text.isDigit c = true) : ofToken t = (Number.read t).map numeral := by
  simp only [ofToken, ht, isQuote_eq_false_of_isDigit hc, hc, if_true, Bool.false_eq_true, if_false]

theorem ofToken_eq_error_of_overlong {t : Text} (h : Overlong t) :
    ∃ n, ofToken t = .error (.tooManyDigits n) := by
  obtain ⟨hh, hm, hl⟩ := h
  rcases ht : Text.trimStart t with _ | ⟨c, r⟩
  · simp [ht] at hl
  · by_cases hc : Text.isDigit c = true
    · rw [ht] at hl
      refine ⟨((c :: r).takeWhile Text.isDigit).length, ?_⟩
      rw [ofToken_of_isDigit ht hc, read_of_isDigit ht hc hh hm, Number.readDigits, if_pos hl]
      rfl
    · simp [ht, hc] at hl

theorem exists_ofToken_eq_ok_of_not_overlong {t : Text} (h : ¬ Overlong t) :
    ∃ a, ofToken t = .ok a := by
  rcases ht : Text.trimStart t with _ | ⟨c, r⟩
  · exact ⟨_, by rw [ofToken, ht]⟩
  by_cases hq : isQuote c = true
  · simp only [ofToken, ht, hq, if_true]
    exact ⟨_, rfl⟩
  by_cases hc : Text.isDigit c = true
  · simp only [ofToken, ht, hq, hc, if_true, Bool.false_eq_true, if_false]
    rcases hh : Number.hexDigits? t with _ | digits
    · rcases hm : Number.hasRealMark t with _ | _
      · have hl : ¬ Fault.digitLimit < ((c :: r).takeWhile Text.isDigit).length := by
          intro hl
          exact h ⟨hh, hm, by rw [ht]; exact hl⟩
        rw [read_of_isDigit ht hc hh hm, Number.readDigits, if_neg hl]
        exact ⟨_, rfl⟩
      · simp only [Number.read, hh, hm, if_true]
        split <;> exact ⟨_, rfl⟩
    · simp only [Number.read, hh]
      exact ⟨_, rfl⟩
  · simp only [ofToken, ht, hq, hc, if_false, Bool.false_eq_true]
    exact ⟨_, rfl⟩

end Atom

/-! ### Reading an argument -/

namespace Argument

/-- The atoms of an argument are those of its tokens, and the rest is told by
the scan. -/
theorem result_read (t : Text) :
    (read t).result = ((scan t).tokens.mapM Atom.ofToken).map
      fun atoms => ⟨atoms, (scan t).valid, (scan t).length⟩ := by
  have hne : (scan t).tokens ≠ [] := tokens_scanFrom_ne_nil _ _
  have hlast : (scan t).tokens.dropLast ++ [(scan t).tokens.getLastD []] = (scan t).tokens := by
    rw [List.getLastD_eq_getLast?, List.getLast?_eq_some_getLast hne, Option.getD_some,
      List.dropLast_concat_getLast]
  rw [← hlast, List.mapM_append, List.mapM_cons, List.mapM_nil, read]
  rcases (scan t).tokens.dropLast.mapM Atom.ofToken with e | front
  · simp
  · rcases Atom.ofToken ((scan t).tokens.getLastD []) with e | last
    · by_cases hv : (scan t).valid = true <;> simp [hv]
    · by_cases hv : (scan t).valid = true <;> simp [hv]

/-- What an argument is read as: the atoms of its tokens, with the verdict and
the length of the scan. -/
theorem read_eq_ok_iff {t : Text} {a : Argument} :
    (read t).result = .ok a ↔
      (scan t).tokens.mapM Atom.ofToken = .ok a.atoms ∧
        (scan t).valid = a.valid ∧ (scan t).length = a.length := by
  rw [result_read, map_eq_ok_iff]
  constructor
  · rintro ⟨atoms, hatoms, rfl⟩
    exact ⟨hatoms, rfl, rfl⟩
  · rintro ⟨hatoms, hvalid, hlength⟩
    exact ⟨a.atoms, hatoms, by rw [hvalid, hlength]⟩

/-- An argument can be read where no token of its scan is overlong. -/
theorem exists_read_eq_ok_iff {t : Text} :
    (∃ a, (read t).result = .ok a) ↔ ∀ token ∈ (scan t).tokens, ¬ Atom.Overlong token := by
  have hmap : (∃ a, (read t).result = .ok a) ↔
      ∃ atoms, (scan t).tokens.mapM Atom.ofToken = .ok atoms := by
    constructor
    · rintro ⟨a, h⟩
      exact ⟨a.atoms, (read_eq_ok_iff.mp h).1⟩
    · rintro ⟨atoms, h⟩
      exact ⟨⟨atoms, _, _⟩, read_eq_ok_iff.mpr ⟨h, rfl, rfl⟩⟩
  rw [hmap, exists_mapM_eq_ok_iff]
  refine forall₂_congr fun token _ => ?_
  constructor
  · rintro ⟨a, ha⟩ ho
    obtain ⟨n, hn⟩ := Atom.ofToken_eq_error_of_overlong ho
    rw [ha] at hn
    cases hn
  · exact Atom.exists_ofToken_eq_ok_of_not_overlong

/-- Reading an argument with an overlong token fails for its digits. -/
theorem exists_read_eq_error_of_overlong {t token : Text} (hm : token ∈ (scan t).tokens)
    (ho : Atom.Overlong token) : ∃ n, (read t).result = .error (.tooManyDigits n) := by
  rcases hr : (read t).result with e | a
  · rw [result_read] at hr
    rcases hl : (scan t).tokens.mapM Atom.ofToken with e' | atoms
    · rw [hl, map_error] at hr
      obtain rfl : e' = e := Except.error.inj hr
      obtain ⟨token', _, hf⟩ := exists_mem_of_mapM_eq_error hl
      have ho' : Atom.Overlong token' := by
        refine Classical.byContradiction fun hn => ?_
        obtain ⟨a, ha⟩ := Atom.exists_ofToken_eq_ok_of_not_overlong hn
        rw [ha] at hf
        cases hf
      obtain ⟨n, hn⟩ := Atom.ofToken_eq_error_of_overlong ho'
      rw [hf] at hn
      exact ⟨n, congrArg Except.error (Except.error.inj hn)⟩
    · rw [hl, map_ok] at hr
      cases hr
  · exact absurd ho (exists_read_eq_ok_iff.mp ⟨a, hr⟩ token hm)

end Argument

end LogCalls
