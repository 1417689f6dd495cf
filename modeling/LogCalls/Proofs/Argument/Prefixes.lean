/-
LogCalls/Proofs/Argument/Prefixes.lean

How much of a text a scan depends on.  A scan that ends has seen nothing of what
follows its end, so an argument that is read does not change with the text behind
it.

A scan that does not end goes on over whatever is put behind the text: all its
tokens but the last are tokens of the longer text, and the last one is the start
of a token (`exists_tokens_append`).  So a text that starts an incomplete argument
is incomplete as well, and what can keep it from being read is its last token
alone: it is an integer with too many digits, and a mark that would make it a real
has been cut off (`Atom.Overlong.hasRealMark`).

Main result: `read_depends_on_consumed`.
-/
import LogCalls.Proofs.Argument.Grammar
import LogCalls.Proofs.Number.Spelling

namespace LogCalls

/-! ### Integers that are cut off -/

namespace Atom

/-- A token with more digits than can be read starts with two digits. -/
theorem Overlong.exists_trimStart {t : Text} (h : Overlong t) :
    ∃ c d r, Text.trimStart t = c :: d :: r ∧ Text.isDigit d = true := by
  obtain ⟨-, -, hlong⟩ := h
  rcases hrun : (Text.trimStart t).takeWhile Text.isDigit with _ | ⟨c, _ | ⟨d, digits⟩⟩
  · rw [hrun] at hlong
    exact absurd hlong (Nat.not_lt_zero _)
  · rw [hrun, List.length_singleton] at hlong
    exact absurd hlong (by decide)
  · have hdigit := Text.forall_mem_takeWhile Text.isDigit (Text.trimStart t) d (by simp [hrun])
    obtain ⟨r, hr⟩ := List.takeWhile_prefix (p := Text.isDigit) (l := Text.trimStart t)
    rw [hrun] at hr
    exact ⟨c, d, digits ++ r, hr.symm, hdigit⟩

/-- A token that cannot be read for its digits can be read with more behind it only
where a mark of a real follows. -/
theorem Overlong.hasRealMark {t more : Text} (h : Overlong t) (hmore : ¬ Overlong (t ++ more)) :
    Number.hasRealMark more = true := by
  obtain ⟨c, d, r, ht, hd⟩ := h.exists_trimStart
  obtain ⟨-, hmark, hlong⟩ := h
  have htrim : Text.trimStart (t ++ more) = c :: d :: r ++ more := by
    rw [Text.trimStart, List.dropWhile_append, ← Text.trimStart, ht]
    rfl
  -- the second digit is not the mark of a hexadecimal integer
  have hhex : Number.hexDigits? (t ++ more) = none := by
    refine Option.eq_none_iff_forall_ne_some.mpr fun digits hdigits => ?_
    obtain ⟨x, r', hlead, hx, -⟩ := Number.hexDigits?_eq_some_iff.mp hdigits
    obtain ⟨-, hrest⟩ := List.cons.inj (htrim.symm.trans hlead)
    rw [(List.cons.inj hrest).1] at hd
    rcases hx with rfl | rfl <;> exact absurd hd (by decide)
  have hdigits : Fault.digitLimit <
      ((Text.trimStart (t ++ more)).takeWhile Text.isDigit).length := by
    have hprefix : (c :: d :: r).takeWhile Text.isDigit <+: c :: d :: r ++ more :=
      (List.takeWhile_prefix _).trans (List.prefix_append _ _)
    rw [ht] at hlong
    rw [htrim]
    exact Nat.lt_of_lt_of_le hlong
      (Text.prefix_takeWhile hprefix (Text.forall_mem_takeWhile _ _)).length_le
  rcases hreal : Number.hasRealMark (t ++ more) with _ | _
  · exact absurd ⟨hhex, hreal, hdigits⟩ hmore
  · rw [Number.hasRealMark, List.any_append, ← Number.hasRealMark, hmark] at hreal
    exact hreal

end Atom

namespace Argument

variable {s : State} {t p r : Text} {a : Argument}

/-! ### Scans that go on -/

/-- A scan that counts more characters than there are passes over the text. -/
theorem exists_passes_of_lt_length (h : t.length < (scanFrom s t).length) :
    ∃ s', Passes anyEffect s t s' := by
  induction t generalizing s with
  | nil => exact ⟨s, .nil s⟩
  | cons c r ih =>
      rcases hclosed : (s.next c).isClosed with _ | _
      · rw [scanFrom, hclosed] at h
        obtain ⟨s', hs'⟩ := ih (Nat.lt_of_succ_lt_succ h)
        exact ⟨s', .cons trivial hclosed hs'⟩
      · rw [scanFrom, hclosed] at h
        exact absurd (Nat.lt_of_succ_lt_succ h) (Nat.not_lt_zero _)

theorem Passes.of_append {s' : State} (h : Passes anyEffect s (p ++ r) s') :
    ∃ s'', Passes anyEffect s p s'' := by
  induction p generalizing s with
  | nil => exact ⟨s, .nil s⟩
  | cons c p ih =>
      cases h with
      | cons hallowed hclosed hrest =>
          obtain ⟨s'', hs''⟩ := ih hrest
          exact ⟨s'', .cons hallowed hclosed hs''⟩

/-- A text in front of a scan adds tokens in front, and goes on with the first one. -/
theorem Scan.exists_tokens_afterText (s : State) (u : Text) :
    ∃ front last, ∀ (x : Scan) (first : Text) (others : List Text), x.tokens = first :: others →
      (x.afterText s u).tokens = front ++ (last ++ first) :: others := by
  induction u generalizing s with
  | nil => exact ⟨[], [], fun x first others hx => hx⟩
  | cons c u ih =>
      obtain ⟨front, last, hafter⟩ := ih (s.next c)
      rcases heffect : s.effect c with _ | _ | _
      · -- the character is kept, in the first token that there is
        rcases front with _ | ⟨token, front⟩
        · refine ⟨[], c :: last, fun x first others hx => ?_⟩
          simp [Scan.afterText, Scan.after, heffect, hafter x first others hx]
        · refine ⟨(c :: token) :: front, last, fun x first others hx => ?_⟩
          simp [Scan.afterText, Scan.after, heffect, hafter x first others hx]
      · refine ⟨front, last, fun x first others hx => ?_⟩
        simp [Scan.afterText, Scan.after, heffect, hafter x first others hx]
      · refine ⟨[] :: front, last, fun x first others hx => ?_⟩
        simp [Scan.afterText, Scan.after, heffect, hafter x first others hx]

/-- The tokens of a text that is passed over, and of a longer one. -/
theorem exists_tokens_append {s' : State} (h : Passes anyEffect s p s') (r : Text) :
    ∃ front last first others, (scanFrom s p).tokens = front ++ [last] ∧
      (scanFrom s (p ++ r)).tokens = front ++ (last ++ first) :: others := by
  obtain ⟨front, last, hafter⟩ := Scan.exists_tokens_afterText s p
  obtain ⟨first, others, hrest⟩ := List.exists_cons_of_ne_nil (tokens_scanFrom_ne_nil s' r)
  refine ⟨front, last, first, others, ?_, ?_⟩
  · have hp := scanFrom_append h []
    rw [List.append_nil] at hp
    rw [hp, hafter _ [] [] rfl, List.append_nil]
  · rw [scanFrom_append h, hafter _ first others hrest]

/-! ### Texts that start an incomplete argument -/

theorem OpensFirst.of_append (h : OpensFirst (p ++ r)) : OpensFirst p := by
  rintro lead rest rfl
  exact h lead (rest ++ r) (by rw [List.append_assoc, List.cons_append])

/-- What starts an incomplete argument is incomplete. -/
theorem valid_scan_of_append (ho : OpensFirst (p ++ r)) (h : (scan (p ++ r)).valid = false) :
    (scan p).valid = false := by
  rcases hvalid : (scan p).valid with _ | _
  · rfl
  · obtain ⟨u, hu, hcall⟩ := exists_isCall_of_valid ho.of_append hvalid
    obtain ⟨more, hmore⟩ := hu.trans (List.prefix_append p r)
    rw [← hmore, (scan_of_isCall hcall more).1] at h
    cases h

/-- What can keep the start of an incomplete argument from being read is its last
token. -/
theorem overlong_last_of_append (hread : (read (p ++ r)).result = .ok a) (hvalid : a.valid = false)
    {token : Text} (htoken : token ∈ (scan p).tokens) (hlong : Atom.Overlong token) :
    token = (scan p).tokens.getLastD [] ∧
      ∃ more, Number.hasRealMark more = true ∧ token ++ more ∈ (scan (p ++ r)).tokens := by
  have hshort := exists_read_eq_ok_iff.mp ⟨a, hread⟩
  have hlength := length_scanFrom_of_not_valid ((read_eq_ok_iff.mp hread).2.1.trans hvalid)
  obtain ⟨s', hs'⟩ := exists_passes_of_lt_length (Nat.lt_of_succ_le (Nat.le_of_eq hlength.symm))
  obtain ⟨s'', hs''⟩ := hs'.of_append
  obtain ⟨front, last, first, others, hp, htokens⟩ := exists_tokens_append hs'' r
  replace hp : (scan p).tokens = front ++ [last] := hp
  replace htokens : (scan (p ++ r)).tokens = front ++ (last ++ first) :: others := htokens
  rw [htokens] at hshort ⊢
  rw [hp, List.mem_append, List.mem_singleton] at htoken
  obtain rfl : token = last :=
    htoken.resolve_left fun hmem => hshort token (List.mem_append_left _ hmem) hlong
  have hmem : token ++ first ∈ front ++ (token ++ first) :: others := by simp
  refine ⟨?_, first, hlong.hasRealMark (hshort _ hmem), hmem⟩
  rw [hp, List.getLastD_concat]

/-! ### What an argument depends on -/

/-- **An argument depends on what it consumes.**  An argument that ends before its
text does is complete, and read as it is whatever stands behind its end.  And where
no parenthesis is closed before the first one is opened, the start of an incomplete
argument is incomplete: it is read as such, unless its last token is an integer with
more digits than can be read, which in the whole text goes on with a mark of a real. -/
theorem read_depends_on_consumed (h : (read t).result = .ok a) :
    (a.length ≤ t.length →
      a.valid = true ∧ ∀ s, (read (t.take a.length ++ s)).result = .ok a) ∧
    (OpensFirst t → a.valid = false → ∀ p, p <+: t →
      (¬ Atom.Overlong ((scan p).tokens.getLastD []) ∧
          ∃ b, (read p).result = .ok b ∧ b.valid = false) ∨
        (Atom.Overlong ((scan p).tokens.getLastD []) ∧
          (∃ n, (read p).result = .error (.tooManyDigits n)) ∧
          ∃ more, Number.hasRealMark more = true ∧
            (scan p).tokens.getLastD [] ++ more ∈ (scan t).tokens)) := by
  constructor
  · intro hlength
    obtain ⟨-, hvalid, hscan⟩ := read_eq_ok_iff.mp h
    rw [← hscan] at hlength
    refine ⟨hvalid.symm.trans (scanFrom_take_append hlength []).1, fun s => ?_⟩
    have hsame : scan (t.take (scan t).length ++ s) = scan t := (scanFrom_take_append hlength s).2
    rw [result_read] at h ⊢
    rwa [← hscan, hsame]
  · rintro ho hvalid p ⟨r, rfl⟩
    have hincomplete := valid_scan_of_append ho ((read_eq_ok_iff.mp h).2.1.trans hvalid)
    by_cases hlong : ∃ token ∈ (scan p).tokens, Atom.Overlong token
    · obtain ⟨token, htoken, hlong⟩ := hlong
      obtain ⟨rfl, hmore⟩ := overlong_last_of_append h hvalid htoken hlong
      exact .inr ⟨hlong, exists_read_eq_error_of_overlong htoken hlong, hmore⟩
    · have hshort : ∀ token ∈ (scan p).tokens, ¬ Atom.Overlong token :=
        fun token htoken htoo => hlong ⟨token, htoken, htoo⟩
      obtain ⟨b, hb⟩ := exists_read_eq_ok_iff.mpr hshort
      have hlast : (scan p).tokens.getLastD [] ∈ (scan p).tokens := by
        have hne : (scan p).tokens ≠ [] := tokens_scanFrom_ne_nil _ _
        rw [List.getLastD_eq_getLast?, List.getLast?_eq_some_getLast hne]
        exact List.getLast_mem hne
      exact .inl ⟨hshort _ hlast, b, hb, (read_eq_ok_iff.mp hb).2.1.symm.trans hincomplete⟩

/-- An argument that ends at an opening parenthesis, where the level comes back to
zero from below, and an incomplete one that is cut off inside of a literal. -/
theorem read_depends_on_consumed_strayClose :
    (∀ s, (read (")(".toList ++ s)).result = .ok ⟨[.expression []], true, 2⟩) ∧
      OpensFirst "(\"a)\" + f(x".toList ∧ "(\"a".toList <+: "(\"a)\" + f(x".toList ∧
      ∃ b, (read "(\"a".toList).result = .ok b ∧ b.valid = false := by
  have hstray : (read ")(x)".toList).result = .ok ⟨[.expression []], true, 2⟩ := by rfl
  have hopen : (read "(\"a)\" + f(x".toList).result =
      .ok ⟨[.literal "a)".toList, .expression "f(x".toList], false, 12⟩ := by rfl
  have hstart : (read "(\"a".toList).result = .ok ⟨[.literal []], false, 4⟩ := by rfl
  have hfirst : OpensFirst "(\"a)\" + f(x".toList := opensFirst_open _
  have hprefix : "(\"a".toList <+: "(\"a)\" + f(x".toList := by decide
  refine ⟨((read_depends_on_consumed hstray).1 (by decide)).2, hfirst, hprefix, ?_⟩
  rcases (read_depends_on_consumed hopen).2 hfirst rfl _ hprefix with
    ⟨-, hb⟩ | ⟨-, ⟨n, hn⟩, -⟩
  · exact hb
  · rw [hstart] at hn
    cases hn

/-- A word behind a parenthesis that nothing closes. -/
theorem scan_plain_open {w : Text} (h : ∀ c ∈ w, IsPlain c) :
    scan ('(' :: w) = ⟨[w], false, w.length + 2⟩ := by
  obtain ⟨p, hp⟩ := passes_plain h (some '(')
  have hopen : scan ('(' :: w) = (scanFrom (.inside 0 (some '(')) w).after .skip '(' := rfl
  have hend := scanFrom_append_of_keep hp []
  rw [List.append_nil] at hend
  rw [hopen, hend]
  simp [scanFrom, Scan.after]

/-- An integer of 4301 digits, in parentheses that nothing closes. -/
def unfinishedInteger : Text := '(' :: List.replicate 4301 '1'

/-- The same with the mark of an exponent behind it. -/
def unfinishedReal : Text := '(' :: (List.replicate 4301 '1' ++ ['e'])

/-- An incomplete argument that is read as such, and the start of one that is refused
for its digits. -/
theorem read_unfinishedInteger :
    OpensFirst unfinishedReal ∧ unfinishedInteger <+: unfinishedReal ∧
      (∃ a, (read unfinishedReal).result = .ok a ∧ a.valid = false) ∧
      ∃ n, (read unfinishedInteger).result = .error (.tooManyDigits n) := by
  have hones : ∀ c ∈ List.replicate 4301 '1', IsPlain c := by
    intro c hc
    rw [List.eq_of_mem_replicate hc]
    decide
  have hreal : ∀ c ∈ List.replicate 4301 '1' ++ ['e'], IsPlain c := by
    rw [List.forall_mem_append, List.forall_mem_singleton]
    exact ⟨hones, by decide⟩
  refine ⟨opensFirst_open _, ⟨['e'], rfl⟩, ?_, ?_⟩
  · have hshort : ∀ token ∈ (scan unfinishedReal).tokens, ¬ Atom.Overlong token := by
      rw [unfinishedReal, scan_plain_open hreal, List.forall_mem_singleton]
      rintro ⟨-, hmark, -⟩
      rw [Number.hasRealMark, List.any_append, Bool.or_eq_false_iff] at hmark
      exact absurd hmark.2 (by decide)
    obtain ⟨a, ha⟩ := exists_read_eq_ok_iff.mpr hshort
    refine ⟨a, ha, (read_eq_ok_iff.mp ha).2.1.symm.trans ?_⟩
    rw [unfinishedReal, scan_plain_open hreal]
  · have hlong : Atom.Overlong (List.replicate 4301 '1') := overlong_ones (by decide)
    refine exists_read_eq_error_of_overlong ?_ hlong
    rw [unfinishedInteger, scan_plain_open hones]
    exact List.mem_singleton_self _

end Argument

end LogCalls
