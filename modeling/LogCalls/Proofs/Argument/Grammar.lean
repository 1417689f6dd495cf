/-
LogCalls/Proofs/Argument/Grammar.lean

The scan as a recogniser.  A call of the grammar is a row of items in
parentheses, with what stands before them.  It is accepted with its own length,
whatever follows (`scan_of_isCall`).  Conversely, a text that is accepted starts
with a call of the grammar, since the pieces that it is cut into are items up to
the parenthesis that closes it (`exists_isCall_of_valid`).

Main result: reading an argument follows the grammar wherever it gives an
argument at all, and it does so unless a token has more digits than can be read
(`read_follows_grammar`).
-/
import LogCalls.Proofs.Argument.Pieces

namespace LogCalls.Argument

open State

/-! ### Calls of the grammar -/

/-- An argument in its parentheses, with what stands before them. -/
def IsCall (t : Text) : Prop :=
  ∃ lead body, '(' ∉ lead ∧ ')' ∉ lead ∧ Body body ∧ t = lead ++ '(' :: body ++ [')']

/-- No parenthesis is closed before the first one is opened. -/
def OpensFirst (t : Text) : Prop :=
  ∀ lead rest, t = lead ++ '(' :: rest → '(' ∉ lead → ')' ∉ lead

/-- The scan of a call ends behind its closing parenthesis, whatever follows. -/
theorem scan_of_isCall {t : Text} (h : IsCall t) (r : Text) :
    (scan (t ++ r)).valid = true ∧ (scan (t ++ r)).length = t.length := by
  obtain ⟨lead, body, ho, hc, hb, rfl⟩ := h
  obtain ⟨pieces, -, rfl, hdivided⟩ := hb.exists_pieces
  have hsplit : lead ++ '(' :: pieces.flatten ++ [')'] ++ r =
      lead ++ '(' :: (pieces.flatten ++ ')' :: r) := by simp
  rw [hsplit, scan_append_open ho hc, (hdivided r).scan_eq]
  refine ⟨rfl, ?_⟩
  simp only [List.length_append, List.length_cons, List.length_nil]
  omega

/-- Without an opening parenthesis no argument is complete. -/
theorem valid_scanFrom_of_not_mem {s : State} {t : Text} (hs : s.entered = false)
    (ht : '(' ∉ t) : (scanFrom s t).valid = false := by
  induction t generalizing s with
  | nil => simp [scanFrom, isComplete, hs]
  | cons c r ih =>
      rw [List.mem_cons, not_or] at ht
      have hn : (s.next c).entered = false := by
        unfold State.next
        split
        · exact hs
        · rw [if_neg (Ne.symm ht.1)]
          split
          · exact hs
          · split <;> exact hs
      have hc : (s.next c).isClosed = false := by simp [isClosed, hn]
      simp [scanFrom, hc, ih hn ht.2]

/-- A complete argument is a call of the grammar, unless a parenthesis is
closed before the first one is opened. -/
theorem exists_isCall_of_valid {t : Text} (ho : OpensFirst t) (h : (scan t).valid = true) :
    ∃ u, u <+: t ∧ IsCall u := by
  by_cases hm : '(' ∈ t
  · obtain ⟨lead, rest, rfl, hlead⟩ := List.eq_append_cons_of_mem hm
    have hclose : ')' ∉ lead := ho lead rest rfl hlead
    obtain ⟨pieces, closed, hdivided⟩ := exists_divided rest
    rw [scan_append_open hlead hclose, hdivided.scan_eq] at h
    obtain rfl : closed = true := h
    obtain ⟨r, rfl⟩ : ∃ s, rest = pieces.flatten ++ ')' :: s := hdivided.text_eq
    exact ⟨lead ++ '(' :: pieces.flatten ++ [')'], ⟨r, by simp⟩,
      lead, pieces.flatten, hlead, hclose, hdivided.body rfl, rfl⟩
  · rw [scan, valid_scanFrom_of_not_mem rfl hm] at h
    cases h

/-! ### The scan as a recogniser -/

/-- A verdict and a length that follow the grammar: the verdict says whether the
text starts with a call, the call is the only one that it starts with, and the
length is that of the call, or one more than that of the text. -/
structure FollowsGrammar (t : Text) (valid : Bool) (length : Nat) : Prop where
  valid_iff : valid = true ↔ ∃ u, u <+: t ∧ IsCall u
  unique : ∀ u v, u <+: t → v <+: t → IsCall u → IsCall v → u = v
  length_of_isCall : ∀ u, u <+: t → IsCall u → length = u.length
  length_of_none : (¬ ∃ u, u <+: t ∧ IsCall u) → length = t.length + 1

/-- Where a text opens a parenthesis first, its scan follows the grammar. -/
theorem scan_followsGrammar {t : Text} (ho : OpensFirst t) :
    FollowsGrammar t (scan t).valid (scan t).length := by
  have accepted : ∀ u, u <+: t → IsCall u →
      (scan t).valid = true ∧ (scan t).length = u.length := by
    rintro u ⟨r, rfl⟩ hu
    exact scan_of_isCall hu r
  refine ⟨⟨exists_isCall_of_valid ho, ?_⟩, ?_, ?_, ?_⟩
  · rintro ⟨u, hut, hu⟩
    exact (accepted u hut hu).1
  · intro u v hut hvt hu hv
    have hlen : u.length = v.length := (accepted u hut hu).2.symm.trans (accepted v hvt hv).2
    exact (List.prefix_of_prefix_length_le hut hvt (Nat.le_of_eq hlen)).eq_of_length hlen
  · intro u hut hu
    exact (accepted u hut hu).2
  · intro hnone
    refine length_scanFrom_of_not_valid ?_
    rw [← Bool.not_eq_true]
    exact fun hv => hnone (exists_isCall_of_valid ho hv)

/-- **Reading follows the grammar.**  Where no parenthesis is closed before the
first one is opened, an argument is read as the grammar says, or a token of it
has more digits than can be read and the fault says so. -/
theorem read_follows_grammar {t : Text} (ho : OpensFirst t) :
    (∃ token ∈ (scan t).tokens, Atom.Overlong token ∧
        ∃ n, (read t).result = .error (.tooManyDigits n)) ∨
      ((∀ token ∈ (scan t).tokens, ¬ Atom.Overlong token) ∧
        ∃ a, (read t).result = .ok a ∧ FollowsGrammar t a.valid a.length) := by
  by_cases hlong : ∃ token ∈ (scan t).tokens, Atom.Overlong token
  · obtain ⟨token, hm, hl⟩ := hlong
    exact .inl ⟨token, hm, hl, exists_read_eq_error_of_overlong hm hl⟩
  · have hshort : ∀ token ∈ (scan t).tokens, ¬ Atom.Overlong token :=
      fun token hm hl => hlong ⟨token, hm, hl⟩
    obtain ⟨a, ha⟩ := exists_read_eq_ok_iff.mpr hshort
    refine .inr ⟨hshort, a, ha, ?_⟩
    rw [result_read, map_eq_ok_iff] at ha
    obtain ⟨atoms, -, rfl⟩ := ha
    exact scan_followsGrammar ho

/-- A parenthesis that is opened at once is opened first. -/
theorem opensFirst_open (r : Text) : OpensFirst ('(' :: r) := by
  intro lead rest h hlead
  rcases lead with _ | ⟨c, lead⟩
  · simp
  · obtain ⟨rfl, -⟩ := List.cons.inj h
    exact absurd List.mem_cons_self hlead

/-- An argument with a closing parenthesis in a literal and quotes inside of
nested parentheses. -/
def greeting : Text := "(\"Hello :)\" + name(\"x\")); next();".toList

theorem read_follows_grammar_greeting :
    OpensFirst greeting ∧ FollowsGrammar greeting true 24 := by
  have ho : OpensFirst greeting := opensFirst_open _
  have hread : (read greeting).result =
      .ok ⟨[.literal "Hello :)".toList, .expression "name(\"x\")".toList], true, 24⟩ := by
    rfl
  refine ⟨ho, ?_⟩
  rcases read_follows_grammar ho with ⟨_, _, _, n, hn⟩ | ⟨_, a, ha, hg⟩
  · rw [hread] at hn
    cases hn
  · rw [hread] at ha
    cases ha
    exact hg

theorem body_of_plain {w : Text} (h : ∀ c ∈ w, IsPlain c) : Body w := by
  induction w with
  | nil => exact .nil
  | cons c r ih =>
      obtain ⟨ho, hc, hq, -⟩ := h c List.mem_cons_self
      exact .cons (i := [c]) (.char ho hc hq) (ih fun d hd => h d (List.mem_cons_of_mem c hd))

/-- Ones in a row are overlong as soon as there are more of them than can be
read. -/
theorem overlong_ones {n : Nat} (h : Fault.digitLimit < n) :
    Atom.Overlong (List.replicate n '1') := by
  obtain ⟨k, rfl⟩ : ∃ k, n = k + 1 := ⟨n - 1, by omega⟩
  have htrim : Text.trimStart (List.replicate (k + 1) '1') = List.replicate (k + 1) '1' := by
    rw [Text.trimStart, List.replicate_succ, List.dropWhile_cons_of_neg (by decide)]
  refine ⟨?_, ?_, ?_⟩
  · rw [Number.hexDigits?, htrim, List.replicate_succ]
    rfl
  · rw [Number.hasRealMark, List.any_replicate, if_neg (Nat.succ_ne_zero k)]
    decide
  · rw [htrim, List.takeWhile_replicate, if_pos (by decide), List.length_replicate]
    exact h

/-- A number of 4301 digits in parentheses. -/
def overlongCall : Text := '(' :: List.replicate 4301 '1' ++ [')']

/-- A call of the grammar that is refused for its digits: the grammar alone
does not decide whether an argument is read. -/
theorem read_overlongCall :
    OpensFirst overlongCall ∧ IsCall overlongCall ∧
      ∃ n, (read overlongCall).result = .error (.tooManyDigits n) := by
  have hplain : ∀ c ∈ List.replicate 4301 '1', IsPlain c := by
    intro c hc
    rw [List.eq_of_mem_replicate hc]
    exact ⟨by decide, by decide, by decide, by decide, by decide⟩
  have htoken : List.replicate 4301 '1' ∈ (scan overlongCall).tokens := by
    rw [overlongCall, scan_plain hplain []]
    exact List.mem_singleton_self _
  refine ⟨opensFirst_open _, ?_, ?_⟩
  · exact ⟨[], _, by simp, by simp, body_of_plain hplain, rfl⟩
  · exact exists_read_eq_error_of_overlong htoken (overlong_ones (by decide))

end LogCalls.Argument
