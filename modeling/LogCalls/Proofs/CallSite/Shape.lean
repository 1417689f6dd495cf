/-
LogCalls/Proofs/CallSite/Shape.lean

The shape of a call site.  A mention is a call site exactly where blanks and an
argument in parentheses follow it, and the site's offsets are those of these
pieces (`ofMention?_eq_some_iff`).

An argument is read up to its closing parenthesis and no further, so a call
site stays one when the text behind it is replaced (`Stands.replace_rest`).
-/
import Mathlib.Data.List.TakeWhile
import LogCalls.CallSite
import LogCalls.Proofs.Argument.Grammar

namespace LogCalls

/-! ### Blank texts -/

/-- Nothing is left of a text by trimming it where all of it is blank. -/
theorem Text.trim_eq_nil_iff {t : Text} : Text.trim t = [] ↔ ∀ c ∈ t, Text.isBlank c = true := by
  have hstart : Text.trimStart t = [] ↔ ∀ c ∈ t, Text.isBlank c = true :=
    List.dropWhile_eq_nil_iff
  rw [Text.trim, Text.trimEnd, List.reverse_eq_nil_iff, List.dropWhile_eq_nil_iff, ← hstart]
  constructor
  · intro h
    rcases ht : Text.trimStart t with _ | ⟨c, r⟩
    · rfl
    · -- what is left starts with a character that is not blank
      have hc := List.head?_dropWhile_not Text.isBlank t
      rw [← Text.trimStart, ht, List.head?_cons] at hc
      have hblank := h c (by simp [ht])
      exact absurd hblank (by simpa using hc)
  · intro h c hc
    rw [h] at hc
    cases hc

theorem Text.not_mem_of_isBlank {t : Text} (h : ∀ c ∈ t, Text.isBlank c = true) :
    '(' ∉ t ∧ ')' ∉ t := by
  constructor
  · intro hmem
    exact (Argument.State.ne_parens_of_isBlank (h _ hmem)).1 rfl
  · intro hmem
    exact (Argument.State.ne_parens_of_isBlank (h _ hmem)).2 rfl

theorem Text.trimStart_append_of_blank {lead : Text} (h : ∀ c ∈ lead, isBlank c = true) (t : Text) :
    trimStart (lead ++ t) = trimStart t := List.dropWhile_append_of_pos h

/-! ### Reading ends with the argument -/

/-- An argument that ends inside of a text is read whatever follows the text. -/
theorem Argument.read_append_congr {u r : Text} {a : Argument}
    (h : (read (u ++ r)).result = .ok a) (hlen : a.length = u.length) (r' : Text) :
    (read (u ++ r')).result = .ok a := by
  have hscan : (scan (u ++ r)).length = u.length := (read_eq_ok_iff.mp h).2.2.trans hlen
  have hle : (scan (u ++ r)).length ≤ (u ++ r).length := by
    rw [hscan, List.length_append]
    omega
  have hlocal := (scanFrom_take_append hle r').2
  rw [show scanFrom {} (u ++ r) = scan (u ++ r) from rfl, hscan, List.take_left] at hlocal
  rw [result_read] at h ⊢
  rwa [show scan (u ++ r') = scan (u ++ r) from hlocal]

namespace CallSite

/-! ### Where a call stands -/

/-- Where a call stands in a text: behind `x` and before `r`, with `blanks`
before its parentheses and `argument` between them. -/
structure Stands (site : CallSite) (x blanks argument r t : Text) : Prop where
  text : t = x ++ site.mention.matched ++ (blanks ++ '(' :: argument ++ [')'] ++ r)
  start : site.mention.start = x.length
  blank : ∀ c ∈ blanks, Text.isBlank c = true
  openParen : site.openParen = site.mention.stop + blanks.length
  stop : site.stop = site.openParen + argument.length + 2
  read : (Argument.read (blanks ++ '(' :: argument ++ [')'] ++ r)).result =
    .ok ⟨site.atoms, true, (blanks ++ '(' :: argument ++ [')']).length⟩

/-- A call stands where it stands whatever follows it. -/
theorem Stands.replace_rest {site : CallSite} {x blanks argument r t : Text}
    (h : Stands site x blanks argument r t) (r' : Text) :
    Stands site x blanks argument r'
      (x ++ site.mention.matched ++ (blanks ++ '(' :: argument ++ [')'] ++ r')) :=
  ⟨rfl, h.start, h.blank, h.openParen, h.stop, Argument.read_append_congr h.read rfl r'⟩

/-- What stands before the first parenthesis is the gap. -/
theorem gap_of_not_mem {lead : Text} (h : '(' ∉ lead) (r : Text) :
    gap (lead ++ '(' :: r) = lead := by
  have hpos : ∀ c ∈ lead, decide (c ≠ '(') = true := by
    intro c hc
    refine decide_eq_true ?_
    rintro rfl
    exact h hc
  rw [gap, List.takeWhile_append_of_pos hpos, List.takeWhile_cons_of_neg (by simp),
    List.append_nil]

/-- What follows a mention. -/
theorem onFrom_stop {m : Mention} {x : Text} (hstart : m.start = x.length) (r : Text) :
    Text.onFrom (x ++ m.matched ++ r) m.stop = r := by
  rw [Mention.stop_eq_length hstart, Text.onFrom_length_append]

/-- A mention is a call site where a complete argument follows it, with nothing
but blanks before its parentheses. -/
theorem result_ofMention?_eq_some_iff {t : Text} {m : Mention} {site : CallSite} :
    (ofMention? t m).result = .ok (some site) ↔
      ∃ a, (Argument.read (Text.onFrom t m.stop)).result = .ok a ∧ a.valid = true ∧
        (∀ c ∈ gap (Text.onFrom t m.stop), Text.isBlank c = true) ∧
        site = ⟨m, m.stop + (gap (Text.onFrom t m.stop)).length, m.stop + a.length, a.atoms⟩ := by
  rw [ofMention?, Logged.result_bind_eq_ok_iff]
  refine exists_congr fun a => and_congr_right fun _ => ?_
  by_cases hv : a.valid = true
  · rw [← Text.trim_eq_nil_iff]
    by_cases hb : Text.trim (gap (Text.onFrom t m.stop)) = []
    · simp only [hv, hb, Bool.not_true, Bool.false_eq_true, if_false, ne_eq, not_true_eq_false,
        Logged.result_pure, Except.ok.injEq, Option.some.injEq, true_and]
      exact eq_comm
    · simp [hv, hb, noteSkipped]
  · simp [hv, noteSkipped]

/-- Looking for a call fails where reading its argument does. -/
theorem result_ofMention?_eq_error_iff {t : Text} {m : Mention} {e : Fault} :
    (ofMention? t m).result = .error e ↔
      (Argument.read (Text.onFrom t m.stop)).result = .error e := by
  rw [ofMention?, Logged.result_bind_eq_error_iff]
  refine ⟨fun h => h.resolve_right ?_, .inl⟩
  rintro ⟨a, -, h⟩
  by_cases hvalid : a.valid = true
  · by_cases hgap : Text.trim (gap (Text.onFrom t m.stop)) = []
    · simp [hvalid, hgap] at h
    · simp [hvalid, hgap, noteSkipped] at h
  · simp [hvalid, noteSkipped] at h

/-- A complete argument with only blanks before it ends with the parenthesis
that closes its first one. -/
theorem exists_eq_append_of_valid {r : Text} {a : Argument}
    (hread : (Argument.read r).result = .ok a) (hvalid : a.valid = true)
    (hblank : ∀ c ∈ gap r, Text.isBlank c = true) :
    ∃ argument r', r = gap r ++ '(' :: argument ++ [')'] ++ r' ∧
      a.length = (gap r ++ '(' :: argument ++ [')']).length := by
  obtain ⟨-, hscan, hlen⟩ := Argument.read_eq_ok_iff.mp hread
  have hfirst : Argument.OpensFirst r := by
    rintro lead rest rfl hlead
    rw [gap_of_not_mem hlead] at hblank
    exact (Text.not_mem_of_isBlank hblank).2
  obtain ⟨u, ⟨r', rfl⟩, hu⟩ := Argument.exists_isCall_of_valid hfirst (hscan.trans hvalid)
  have hlength := hlen.symm.trans (Argument.scan_of_isCall hu r').2
  obtain ⟨lead, body, hlead, -, -, rfl⟩ := hu
  have hgap : gap (lead ++ '(' :: body ++ [')'] ++ r') = lead := by
    rw [List.append_assoc, List.append_assoc, List.cons_append, gap_of_not_mem hlead]
  exact ⟨body, r', by rw [hgap], by rw [hgap]; exact hlength⟩

/-- **The shape of a call.**  A mention behind `x` is a call site where a call
stands behind `x`. -/
theorem ofMention?_eq_some_iff {m : Mention} {x r : Text} {site : CallSite}
    (hstart : m.start = x.length) :
    (ofMention? (x ++ m.matched ++ r) m).result = .ok (some site) ↔
      site.mention = m ∧
        ∃ blanks argument r', Stands site x blanks argument r' (x ++ m.matched ++ r) := by
  rw [result_ofMention?_eq_some_iff, onFrom_stop hstart]
  constructor
  · rintro ⟨a, hread, hvalid, hblank, rfl⟩
    obtain ⟨argument, r', hr, hlength⟩ := exists_eq_append_of_valid hread hvalid hblank
    refine ⟨rfl, gap r, argument, r', ?_, hstart, hblank, rfl, ?_, ?_⟩
    · rw [← hr]
    · simp only [hlength, List.length_append, List.length_cons, List.length_nil]
      omega
    · rw [← hr, hread, ← hlength, ← hvalid]
  · rintro ⟨rfl, blanks, argument, r', h⟩
    obtain rfl : r = blanks ++ '(' :: argument ++ [')'] ++ r' := List.append_cancel_left h.text
    have hgap : gap (blanks ++ '(' :: argument ++ [')'] ++ r') = blanks := by
      rw [List.append_assoc, List.append_assoc, List.cons_append,
        gap_of_not_mem (Text.not_mem_of_isBlank h.blank).1]
    refine ⟨_, h.read, rfl, ?_, ?_⟩
    · rw [hgap]
      exact h.blank
    · have hstop : site.stop =
          site.mention.stop + ((blanks ++ '(' :: argument ++ [')']).length : Nat) := by
        rw [h.stop, h.openParen]
        simp only [List.length_append, List.length_cons, List.length_nil]
        omega
      rw [hgap, ← h.openParen, ← hstop]

end CallSite

end LogCalls
