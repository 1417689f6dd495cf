/-
LogCalls/Proofs/CallSite/Blanks.lean

Blanks between a mention and its parentheses.  The scan keeps what stands before
the first parenthesis as part of the first token, and what becomes of it there
depends on the token: a numeral and an expression are read behind the blanks
(`Atom.ofToken_append_blanks`), but a literal loses the first and the last
character of the whole token, so one blank is cut off where its first quote
should be.

Main result: blanks move a call and change nothing else, unless its argument
starts with a literal (`ofMention?_insert_blanks`).
-/
import LogCalls.Proofs.Argument.Printing
import LogCalls.Proofs.CallSite.Shape

namespace LogCalls

/-! ### Tokens behind blanks -/

section

variable {w : Text} (hw : ∀ c ∈ w, Text.isBlank c = true) (t : Text)
include hw

theorem Text.trim_append_of_blank : trim (w ++ t) = trim t := by
  rw [trim, trimStart_append_of_blank hw, trim]

theorem Number.hasRealMark_append_of_blank : hasRealMark (w ++ t) = hasRealMark t := by
  have hmark : hasRealMark w = false := by
    rw [hasRealMark, List.any_eq_false]
    intro c hc hmark
    have hblank := hw c hc
    simp only [Bool.or_eq_true, beq_iff_eq] at hmark
    rcases hmark with ((rfl | rfl) | rfl) | rfl <;> exact absurd hblank (by decide)
  rw [hasRealMark, List.any_append, ← hasRealMark, hmark, Bool.false_or, ← hasRealMark]

/-- A number is read behind blanks. -/
theorem Number.read_append_of_blank : read (w ++ t) = read t := by
  have hstart := Text.trimStart_append_of_blank hw t
  have hhex : hexDigits? (w ++ t) = hexDigits? t := by rw [hexDigits?, hstart, hexDigits?]
  have hreal : leadingReal? (w ++ t) = leadingReal? t := by
    rw [leadingReal?, hstart, leadingReal?]
  rw [read, hhex, hasRealMark_append_of_blank hw, hreal, hstart, read]

/-- The atom of a token behind blanks is that of the token, unless it is a
literal. -/
theorem Atom.ofToken_append_blanks :
    ofToken (w ++ t) = if (Text.trimStart t).head?.any isQuote
      then .ok (literal (unquoted (w ++ t))) else ofToken t := by
  rw [ofToken, ofToken, Text.trimStart_append_of_blank hw, Number.read_append_of_blank hw,
    Text.trim_append_of_blank hw]
  rcases Text.trimStart t with _ | ⟨c, r⟩
  · rfl
  · by_cases hq : isQuote c = true
    · simp [hq]
    · simp [hq]

end

/-- Blanks in front of a token do no harm and mend none. -/
theorem Atom.ofToken_append_blanks_eq_error_iff {w : Text}
    (hw : ∀ c ∈ w, Text.isBlank c = true) {t : Text} {e : Fault} :
    ofToken (w ++ t) = .error e ↔ ofToken t = .error e := by
  rw [ofToken_append_blanks hw]
  split
  · next hquote =>
      rcases ht : Text.trimStart t with _ | ⟨c, r⟩
      · simp [ht] at hquote
      · have hc : isQuote c = true := by simpa [ht] using hquote
        simp [ofToken, ht, hc]
  · exact Iff.rfl

namespace Argument

/-- A row of items that a quote starts goes on behind it. -/
theorem Kept.exists_of_quote {t : Text} (h : Kept t) (hquote : t.head?.any Atom.isQuote = true) :
    ∃ q r, Atom.isQuote q = true ∧ r ≠ [] ∧ t = q :: r := by
  cases h with
  | nil => cases hquote
  | char hc _ =>
      rw [List.head?_cons, Option.any_some, hc.2.2.1] at hquote
      cases hquote
  | literal hq _ _ => exact ⟨_, _, hq, by simp, rfl⟩
  | nested _ _ => simp [Atom.isQuote] at hquote

/-- What blanks in front of a token make of its atom: nothing, unless it is a
literal, and then they get into it, but for the first one, with the quote. -/
theorem Kept.ofToken_append_blanks {t w : Text} (h : Kept t)
    (hw : ∀ c ∈ w, Text.isBlank c = true) {a : Atom} (ha : Atom.ofToken t = .ok a) :
    (a.isLiteral = false ∧ Atom.ofToken (w ++ t) = .ok a) ∨
      ∃ q u, Atom.isQuote q = true ∧ a = .literal u ∧
        Atom.ofToken (w ++ t) = .ok (if w = [] then a else .literal (w.tail ++ q :: u)) := by
  have hstart := h.trim_eq_self.1
  rw [Atom.ofToken_append_blanks hw, hstart]
  by_cases hquote : t.head?.any Atom.isQuote = true
  · obtain ⟨q, r, hq, hr, rfl⟩ := h.exists_of_quote hquote
    obtain rfl : a = .literal r.dropLast := by
      rw [Atom.ofToken, hstart] at ha
      simpa [hq, Atom.unquoted, eq_comm] using ha
    refine .inr ⟨q, r.dropLast, hq, rfl, ?_⟩
    rw [if_pos hquote]
    rcases w with _ | ⟨c, w⟩
    · rfl
    · -- a blank is cut off in front, and the last quote behind
      have hlast : (w ++ q :: r).dropLast = w ++ q :: r.dropLast := by
        rw [List.dropLast_append_of_ne_nil (by simp), List.dropLast_cons_of_ne_nil hr]
      simp [Atom.unquoted, hlast]
  · rw [if_neg hquote]
    refine .inl ⟨?_, ha⟩
    rcases Atom.ofToken_cases ha with ⟨hhead, -⟩ | ⟨n, -, -, rfl⟩ | ⟨-, rfl⟩
    · rw [hstart] at hhead
      exact absurd hhead hquote
    · rfl
    · rfl

/-- An argument is read with blanks before it as it is read without them, but for
the atom of its first token. -/
theorem read_append_open_cases {w : Text} (hw : ∀ c ∈ w, Text.isBlank c = true) (v : Text) :
    (∃ e, (read ('(' :: v)).result = .error e ∧ (read (w ++ '(' :: v)).result = .error e) ∨
      ∃ first a a' rest valid length,
        (read ('(' :: v)).result = .ok ⟨a :: rest, valid, length⟩ ∧
        (read (w ++ '(' :: v)).result = .ok ⟨a' :: rest, valid, w.length + length⟩ ∧
        Atom.ofToken first = .ok a ∧ Atom.ofToken (w ++ first) = .ok a' ∧
        (valid = true → Kept first) := by
  obtain ⟨ho, hc⟩ := Text.not_mem_of_isBlank hw
  obtain ⟨first, others, htokens⟩ := exists_tokens_scan ('(' :: v)
  rw [result_read, result_read, scan_append_open ho hc, htokens, List.modifyHead_cons,
    List.mapM_cons, List.mapM_cons]
  rcases hfirst : Atom.ofToken first with e | a
  · rw [Atom.ofToken_append_blanks_eq_error_iff hw |>.mpr hfirst]
    exact .inl ⟨e, rfl, rfl⟩
  rcases hfirst' : Atom.ofToken (w ++ first) with e | a'
  · rw [Atom.ofToken_append_blanks_eq_error_iff hw, hfirst] at hfirst'
    cases hfirst'
  rcases others.mapM Atom.ofToken with e | rest
  · exact .inl ⟨e, rfl, rfl⟩
  · refine .inr ⟨first, a, a', rest, _, _, rfl, rfl, hfirst, hfirst', fun hvalid => ?_⟩
    refine kept_of_mem_tokens hvalid first ?_
    rw [htokens]
    exact List.mem_cons_self

end Argument

/-! ### Calls behind blanks -/

namespace CallSite

/-- What blanks before its parentheses make of a call site: it is the same one,
further on, but for a literal that its argument starts with.  All blanks but the
first get into that, with the quote behind them. -/
structure MovedBy (w : Text) (site site' : CallSite) : Prop where
  mention : site'.mention = site.mention
  openParen : site'.openParen = site.openParen + w.length
  stop : site'.stop = site.stop + w.length
  atoms_eq_iff : site'.atoms = site.atoms ↔ w = [] ∨ ∀ a ∈ site.atoms.head?, a.isLiteral = false
  literal : ∀ u rest, w ≠ [] → site.atoms = .literal u :: rest →
    ∃ q, Atom.isQuote q = true ∧ site'.atoms = .literal (w.tail ++ q :: u) :: rest

/-- A call is moved by blanks where they stand in front of its first token. -/
theorem movedBy_of_first {m : Mention} {w first : Text} {a a' : Atom} {rest : List Atom}
    (hw : ∀ c ∈ w, Text.isBlank c = true) (hkept : Argument.Kept first)
    (ha : Atom.ofToken first = .ok a) (ha' : Atom.ofToken (w ++ first) = .ok a') (length : Nat) :
    MovedBy w ⟨m, m.stop + ([] : Text).length, m.stop + length, a :: rest⟩
      ⟨m, m.stop + w.length, m.stop + (w.length + length : Nat), a' :: rest⟩ := by
  have hopen : m.stop + (w.length : Int) = m.stop + ([] : Text).length + w.length := by simp
  have hstop : m.stop + ((w.length + length : Nat) : Int) = m.stop + length + w.length := by omega
  rcases hkept.ofToken_append_blanks hw ha with ⟨hliteral, heq⟩ | ⟨q, u, hq, rfl, heq⟩
  · obtain rfl : a' = a := Except.ok.inj (ha'.symm.trans heq)
    refine ⟨rfl, hopen, hstop, iff_of_true rfl (.inr (by simpa using hliteral)), ?_⟩
    intro u rest' _ hatoms
    obtain ⟨rfl, -⟩ := List.cons.inj hatoms
    cases hliteral
  · have hfirst := Except.ok.inj (ha'.symm.trans heq)
    by_cases hnil : w = []
    · rw [if_pos hnil] at hfirst
      subst hfirst
      exact ⟨rfl, hopen, hstop, iff_of_true rfl (.inl hnil), fun _ _ hne => absurd hnil hne⟩
    · rw [if_neg hnil] at hfirst
      subst hfirst
      refine ⟨rfl, hopen, hstop, iff_of_false ?_ ?_, ?_⟩
      · -- the literal has grown by a quote at least
        intro hatoms
        have htext : w.tail ++ q :: u = u := by simpa [Atom.literal] using hatoms
        have hlength := congrArg List.length htext
        simp only [List.length_append, List.length_cons] at hlength
        omega
      · rintro (hw' | hhead)
        · exact hnil hw'
        · exact absurd (hhead _ rfl) (by simp)
      · intro u' rest' _ hatoms
        obtain ⟨hu, rfl⟩ := List.cons.inj hatoms
        obtain rfl : u = u' := by simpa [Atom.literal] using hu
        exact ⟨q, hq, rfl⟩

/-- A mention that blanks and a parenthesis follow is a call site where a complete
argument is read there. -/
theorem ofMention?_open_eq_some_iff {m : Mention} {x w v : Text} {site : CallSite}
    (hstart : m.start = x.length) (hw : ∀ c ∈ w, Text.isBlank c = true) :
    (ofMention? (x ++ m.matched ++ (w ++ '(' :: v)) m).result = .ok (some site) ↔
      ∃ a, (Argument.read (w ++ '(' :: v)).result = .ok a ∧ a.valid = true ∧
        site = ⟨m, m.stop + w.length, m.stop + a.length, a.atoms⟩ := by
  rw [result_ofMention?_eq_some_iff, onFrom_stop hstart,
    gap_of_not_mem (Text.not_mem_of_isBlank hw).1]
  exact exists_congr fun a => and_congr_right fun _ => and_congr_right fun _ =>
    ⟨fun h => h.2, fun h => ⟨hw, h⟩⟩

/-- **Blanks before the parentheses.**  With blanks between a mention and a
parenthesis, a call is found exactly where it is found without them, and the
search fails for the same fault.  The call is moved by the blanks. -/
theorem ofMention?_insert_blanks {m : Mention} {x w : Text} (hstart : m.start = x.length)
    (hw : ∀ c ∈ w, Text.isBlank c = true) (v : Text) :
    (∀ e, (ofMention? (x ++ m.matched ++ (w ++ '(' :: v)) m).result = .error e ↔
        (ofMention? (x ++ m.matched ++ '(' :: v) m).result = .error e) ∧
      ((∃ site', (ofMention? (x ++ m.matched ++ (w ++ '(' :: v)) m).result = .ok (some site')) ↔
        ∃ site, (ofMention? (x ++ m.matched ++ '(' :: v) m).result = .ok (some site)) ∧
      ∀ site site', (ofMention? (x ++ m.matched ++ '(' :: v) m).result = .ok (some site) →
        (ofMention? (x ++ m.matched ++ (w ++ '(' :: v)) m).result = .ok (some site') →
        MovedBy w site site' := by
  have hplain : ∀ site, (ofMention? (x ++ m.matched ++ '(' :: v) m).result = .ok (some site) ↔
      ∃ a, (Argument.read ('(' :: v)).result = .ok a ∧ a.valid = true ∧
        site = ⟨m, m.stop + ([] : Text).length, m.stop + a.length, a.atoms⟩ := fun site =>
    ofMention?_open_eq_some_iff (w := []) hstart (List.forall_mem_nil _)
  simp only [result_ofMention?_eq_error_iff, onFrom_stop hstart, hplain,
    ofMention?_open_eq_some_iff hstart hw]
  rcases Argument.read_append_open_cases hw v with ⟨e, hread, hread'⟩ |
    ⟨first, a, a', rest, valid, length, hread, hread', hfirst, hfirst', hkept⟩
  · simp [hread, hread']
  · rw [hread, hread']
    refine ⟨fun e => by simp, ?_, ?_⟩
    · simp
    · rintro site site' ⟨_, hargument, hvalid, rfl⟩ ⟨_, hargument', -, rfl⟩
      obtain rfl := Except.ok.inj hargument
      obtain rfl := Except.ok.inj hargument'
      exact movedBy_of_first hw (hkept hvalid) hfirst hfirst' length

/-- A mention at the start of a text. -/
def firstMention : Mention := ⟨0, "System.out.println".toList, .out, "println".toList⟩

/-- A number behind a blank and a tab is read as it is without them. -/
theorem ofMention?_insert_blanks_number :
    ∃ site, (ofMention? "System.out.println \t(42L + \"k\");".toList firstMention).result =
        .ok (some site) ∧
      site.atoms = [.numeral (.whole 42), .literal ['k']] ∧ site.openParen = 20 ∧ site.stop = 31 := by
  have hplain : (ofMention? "System.out.println(42L + \"k\");".toList firstMention).result =
      .ok (some ⟨firstMention, 18, 29, [.numeral (.whole 42), .literal ['k']]⟩) := by rfl
  have hblank : ∀ c ∈ [' ', '\t'], Text.isBlank c = true := List.all_eq_true.mp rfl
  obtain ⟨-, hfound, hmoved⟩ := ofMention?_insert_blanks (m := firstMention) (x := []) rfl hblank
    "42L + \"k\");".toList
  obtain ⟨site, hsite⟩ := hfound.mpr ⟨_, hplain⟩
  have h := hmoved _ _ hplain hsite
  exact ⟨site, hsite, h.atoms_eq_iff.mpr (.inr (by rintro _ ⟨⟩; rfl)), h.openParen, h.stop⟩

/-- A blank before the parenthesis gets the quote of the first literal into its
text. -/
theorem ofMention?_blank_before_literal :
    (ofMention? "System.out.println(\"abc\");".toList firstMention).result =
        .ok (some ⟨firstMention, 18, 25, [.literal "abc".toList]⟩) ∧
      (ofMention? "System.out.println (\"abc\");".toList firstMention).result =
        .ok (some ⟨firstMention, 19, 26, [.literal "\"abc".toList]⟩) := ⟨rfl, rfl⟩

end CallSite

end LogCalls
