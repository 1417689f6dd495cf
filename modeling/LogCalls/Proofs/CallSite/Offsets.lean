/-
LogCalls/Proofs/CallSite/Offsets.lean

The offsets of a call site.  The scan counts closing parentheses below zero, so it
calls texts complete whose last parenthesis opens, or that close more than they
open.  Blanks in front rule them out: the scan comes to the first parenthesis at
level zero.  From there it is inside of parentheses, which only a closing one
leaves (`State.IsOpen.next_cases`), and stays inside up to the character that brings
the level back to zero (`State.IsOpen.exists_close`).  So the two parentheses
enclose what stands between them (`encloses_of_valid`).

Main result: a mention is looked up without fault behind a complete argument, and
the offsets of a call site are those of the parenthesis that opens it and of the
one that brings the level back (`offsets_of_ofMention?`).
-/
import LogCalls.Proofs.CallSite.Shape
import LogCalls.Text.Search

namespace LogCalls

namespace Argument

namespace State

/-! ### The level on the way -/

/-- Where a scan stands behind a text, if it does not end on the way. -/
def run (s : State) (t : Text) : State := t.foldl next s

theorem run_cons (s : State) (c : Char) (t : Text) : s.run (c :: t) = (s.next c).run t := rfl

theorem run_append (s : State) (t u : Text) : s.run (t ++ u) = (s.run t).run u :=
  List.foldl_append

/-- A parenthesis has been opened and not been closed again. -/
structure IsOpen (s : State) : Prop where
  entered : s.entered = true
  level_pos : 0 < s.level

theorem IsOpen.isComplete {s : State} (h : s.IsOpen) : s.isComplete = false := by
  have hlevel : ¬ s.level ≤ 0 := Int.not_le.mpr h.level_pos
  simp [State.isComplete, hlevel]

theorem IsOpen.isClosed {s : State} (h : s.IsOpen) : s.isClosed = false := by
  have hlevel : s.level ≠ 0 := Int.ne_of_gt h.level_pos
  simp [State.isClosed, hlevel]

theorem isOpen_inside (depth : Nat) (p : Option Char) : (inside depth p).IsOpen := by
  refine ⟨rfl, ?_⟩
  show 0 < (depth : Int) + 1
  omega

/-- A scan inside of parentheses stays there, unless the next character closes
them. -/
theorem IsOpen.next_cases {s : State} (h : s.IsOpen) (c : Char) :
    (s.next c).IsOpen ∨ c = ')' ∧ (s.next c).level = 0 ∧ (s.next c).isClosed = true := by
  obtain ⟨hentered, hlevel⟩ := h
  by_cases hquote : s.level = 1 ∧ s.quote.isSome
  · have hnext : (s.next c).level = s.level ∧ (s.next c).entered = s.entered := by
      simp [next, hquote]
    exact .inl ⟨hnext.2.trans hentered, by omega⟩
  by_cases hopen : c = '('
  · have hnext : (s.next c).level = s.level + 1 ∧ (s.next c).entered = true := by
      simp [next, hquote, hopen]
    exact .inl ⟨hnext.2, by omega⟩
  by_cases hclose : c = ')'
  · have hnext : (s.next c).level = s.level - 1 ∧ (s.next c).entered = s.entered := by
      simp [next, hquote, hclose]
    by_cases hone : s.level = 1
    · have hzero : (s.next c).level = 0 := by omega
      exact .inr ⟨hclose, hzero, by simp [State.isClosed, hzero, hnext.2, hentered]⟩
    · exact .inl ⟨hnext.2.trans hentered, by omega⟩
  · have hnext : (s.next c).level = s.level ∧ (s.next c).entered = s.entered := by
      unfold next
      rw [if_neg hquote, if_neg hopen, if_neg hclose]
      split <;> exact ⟨rfl, rfl⟩
    exact .inl ⟨hnext.2.trans hentered, by omega⟩

/-- A scan inside of parentheses that finds an end finds it behind the closing
parenthesis that brings the level back to zero, and not before. -/
theorem IsOpen.exists_close {s : State} {t : Text} (h : s.IsOpen)
    (hvalid : (scanFrom s t).valid = true) :
    ∃ u r, t = u ++ ')' :: r ∧ (scanFrom s t).length = u.length + 1 ∧
      (∀ v, v <+: u → (s.run v).IsOpen) ∧ (s.run (u ++ [')'])).level = 0 := by
  induction t generalizing s with
  | nil =>
      rw [scanFrom, h.isComplete] at hvalid
      cases hvalid
  | cons c r ih =>
      rcases h.next_cases c with hopen | ⟨rfl, hlevel, hclosed⟩
      · rw [scanFrom, hopen.isClosed] at hvalid ⊢
        obtain ⟨u, r', rfl, hlength, hprefix, hzero⟩ := ih hopen hvalid
        refine ⟨c :: u, r', rfl, ?_, ?_, hzero⟩
        · rw [List.length_cons, ← hlength]
          rfl
        · intro v hv
          rcases v with _ | ⟨d, v⟩
          · exact h
          · obtain ⟨rfl, htail⟩ := List.cons_prefix_cons.mp hv
            exact hprefix v htail
      · refine ⟨[], r, rfl, ?_, ?_, hlevel⟩
        · rw [scanFrom, hclosed]
          rfl
        · intro v hv
          rw [List.prefix_nil.mp hv]
          exact h

end State

theorem Passes.run_eq {allowed : Effect → Prop} {s s' : State} {t : Text}
    (h : Passes allowed s t s') : s.run t = s' := by
  induction h with
  | nil s => rfl
  | cons _ _ _ ih => exact ih

end Argument

namespace CallSite

open Argument (scan State)

/-! ### The first parenthesis -/

/-- A text with an opening parenthesis has a first one, behind its gap. -/
theorem find?_open_eq_length_gap {t : Text} (h : '(' ∈ t) :
    Text.find? ['('] t = some (gap t).length := by
  induction t with
  | nil => cases h
  | cons c r ih =>
      by_cases hc : c = '('
      · subst hc
        rfl
      · have hmem : '(' ∈ r := (List.mem_cons.mp h).resolve_left (Ne.symm hc)
        have hfirst : ['('].isPrefixOf (c :: r) = false := by
          simp [List.isPrefixOf, Ne.symm hc]
        have hgap : gap (c :: r) = c :: gap r := by simp [gap, hc]
        rw [Text.find?, hfirst, ih hmem, hgap]
        rfl

/-- A complete argument has an opening parenthesis. -/
theorem mem_open_of_valid {t : Text} (h : (scan t).valid = true) : '(' ∈ t := by
  refine Classical.byContradiction fun hmem => ?_
  rw [scan, Argument.valid_scanFrom_of_not_mem rfl hmem] at h
  cases h

/-! ### The parentheses of a complete argument -/

/-- Two offsets enclose an argument: an opening parenthesis that is read at level
zero, and the end of the closing one that brings the level back to zero from
there. -/
structure Encloses (t : Text) (opening stop : Nat) : Prop where
  lt_stop : opening + 1 < stop
  stop_le : stop ≤ t.length
  opens : t[opening]? = some '('
  closes : t[stop - 1]? = some ')'
  level_opening : (State.run {} (t.take opening)).level = 0
  level_pos : ∀ i, opening < i → i < stop → 0 < (State.run {} (t.take i)).level
  level_stop : (State.run {} (t.take stop)).level = 0

/-- A text in pieces whose levels are known encloses what stands between its
parentheses. -/
theorem encloses_append {lead u : Text} (hlead : (State.run {} lead).level = 0)
    (hinside : ∀ v, v <+: u → (State.run {} (lead ++ '(' :: v)).IsOpen)
    (hback : (State.run {} (lead ++ '(' :: (u ++ [')']))).level = 0) (r : Text) :
    Encloses (lead ++ '(' :: (u ++ ')' :: r)) lead.length (lead.length + (u.length + 1 + 1)) := by
  have htake : ∀ i, (lead ++ '(' :: (u ++ ')' :: r)).take (lead.length + (i + 1)) =
      lead ++ '(' :: (u ++ ')' :: r).take i := by
    intro i
    rw [List.take_length_add_append, List.take_succ_cons]
  refine ⟨by omega, ?_, Text.getElem?_append_cons _ _ _, ?_, ?_, ?_, ?_⟩
  · simp only [List.length_append, List.length_cons]
    omega
  · have htext : lead ++ '(' :: (u ++ ')' :: r) = (lead ++ '(' :: u) ++ ')' :: r := by simp
    have hclose : lead.length + (u.length + 1 + 1) - 1 = (lead ++ '(' :: u).length := by
      rw [List.length_append, List.length_cons]
      omega
    rw [htext, hclose]
    exact Text.getElem?_append_cons _ _ _
  · rw [List.take_left]
    exact hlead
  · intro i hlow hhigh
    obtain ⟨j, rfl⟩ : ∃ j, i = lead.length + (j + 1) := ⟨i - lead.length - 1, by omega⟩
    have hj : j ≤ u.length := by omega
    rw [htake, List.take_append_of_le_length hj]
    exact (hinside _ (List.take_prefix j u)).level_pos
  · rw [htake, List.take_length_add_append]
    exact hback

/-- A complete argument with only blanks before its first parenthesis is enclosed
by that parenthesis and the end of the scan. -/
theorem encloses_of_valid {t : Text} (hvalid : (scan t).valid = true)
    (hblank : ∀ c ∈ gap t, Text.isBlank c = true) :
    Encloses t (gap t).length (scan t).length := by
  obtain ⟨lead, v, rfl, hlead⟩ := List.eq_append_cons_of_mem (mem_open_of_valid hvalid)
  rw [gap_of_not_mem hlead] at hblank ⊢
  have hclose : ')' ∉ lead := (Text.not_mem_of_isBlank hblank).2
  obtain ⟨p, hp⟩ := Argument.passes_outside hlead hclose none
  have hrun : State.run {} lead = .outside p := hp.run_eq
  -- the first parenthesis is read outside of all others
  have hopen : ∀ w, State.run {} (lead ++ '(' :: w) = (State.inside 0 (some '(')).run w := by
    intro w
    rw [State.run_append, hrun, State.run_cons, State.next_outside_open]
  have hscan : scan ('(' :: v) =
      (Argument.scanFrom (.inside 0 (some '(')) v).after .skip '(' := rfl
  rw [Argument.scan_append_open hlead hclose, hscan] at hvalid ⊢
  obtain ⟨u, r, rfl, hlength, hprefix, hzero⟩ := (State.isOpen_inside 0 _).exists_close hvalid
  rw [Argument.Scan.length_after, hlength]
  refine encloses_append ?_ ?_ ?_ r
  · rw [hrun]
    rfl
  · intro w hw
    rw [hopen]
    exact hprefix w hw
  · rw [hopen]
    exact hzero

/-- Without blanks, a closing parenthesis before the first opening one leads the
scan below zero, and the opening one counts as its end. -/
example : (scan ")(x)".toList).valid = true ∧ (scan ")(x)".toList).length = 2 := by decide

/-! ### Sound offsets -/

/-- The level at which a scan that starts behind a mention comes to an offset. -/
def levelAt (t : Text) (m : Mention) (offset : Int) : Int :=
  (State.run {} ((Text.onFrom t m.stop).take (offset - m.stop).toNat)).level

/-- The offsets of a call site are those of its parentheses: the first one behind
the mention, with nothing but blanks before it, and the one that brings the scan
back from there to level zero. -/
structure HasSoundOffsets (t : Text) (site : CallSite) : Prop where
  stop_le_openParen : site.mention.stop ≤ site.openParen
  openParen_lt_close : site.openParen < site.stop - 1
  close_lt_length : site.stop - 1 < t.length
  opens : t[site.openParen.toNat]? = some '('
  closes : t[(site.stop - 1).toNat]? = some ')'
  blank : ∀ c ∈ t.extract site.mention.stop.toNat site.openParen.toNat, Text.isBlank c = true
  first : Text.find? ['('] (Text.onFrom t site.mention.stop) =
    some (site.openParen - site.mention.stop).toNat
  level_openParen : levelAt t site.mention site.openParen = 0
  level_pos : ∀ offset, site.openParen < offset → offset < site.stop →
    0 < levelAt t site.mention offset
  level_stop : levelAt t site.mention site.stop = 0

/-- What encloses the argument in the text behind a mention encloses it in the
whole text, that far behind the mention. -/
theorem Encloses.hasSoundOffsets {t : Text} {m : Mention} {n opening stop : Nat}
    (h : Encloses (t.drop n) opening stop) (hn : m.stop = n) (hle : n ≤ t.length)
    (hblank : ∀ c ∈ (t.drop n).take opening, Text.isBlank c = true)
    (hfirst : Text.find? ['('] (t.drop n) = some opening) (atoms : List Atom) :
    HasSoundOffsets t ⟨m, m.stop + opening, m.stop + stop, atoms⟩ := by
  have hlt := h.lt_stop
  have hend := h.stop_le
  rw [List.length_drop] at hend
  have hrest : Text.onFrom t m.stop = t.drop n := by rw [hn, Text.onFrom_natCast t hle]
  -- the places of the rest are those of the text behind the mention
  have hplace : ∀ k : Nat, t[(m.stop + k).toNat]? = (t.drop n)[k]? := by
    intro k
    rw [List.getElem?_drop, hn, ← Int.natCast_add, Int.toNat_natCast]
  have hlevelAt : ∀ k : Nat, levelAt t m (m.stop + k) =
      (State.run {} ((t.drop n).take k)).level := by
    intro k
    rw [levelAt, hrest, Int.add_comm, Int.add_sub_cancel, Int.toNat_natCast]
  refine ⟨?_, ?_, ?_, ?_, ?_, ?_, ?_, ?_, ?_, ?_⟩
  · show m.stop ≤ m.stop + opening
    omega
  · show m.stop + (opening : Int) < m.stop + stop - 1
    omega
  · show m.stop + (stop : Int) - 1 < t.length
    omega
  · exact (hplace opening).trans h.opens
  · have hclose : m.stop + (stop : Int) - 1 = m.stop + ((stop - 1 : Nat) : Int) := by omega
    show t[(m.stop + (stop : Int) - 1).toNat]? = some ')'
    rw [hclose]
    exact (hplace (stop - 1)).trans h.closes
  · intro c hc
    refine hblank c ?_
    have hopening : (m.stop + (opening : Int)).toNat - m.stop.toNat = opening := by omega
    have hstop : m.stop.toNat = n := by omega
    rwa [List.extract_eq_take_drop, hopening, hstop] at hc
  · show Text.find? ['('] (Text.onFrom t m.stop) = some (m.stop + (opening : Int) - m.stop).toNat
    rw [hrest, hfirst, Int.add_comm, Int.add_sub_cancel, Int.toNat_natCast]
  · exact (hlevelAt opening).trans h.level_opening
  · intro offset hlow hhigh
    replace hlow : m.stop + (opening : Int) < offset := hlow
    replace hhigh : offset < m.stop + (stop : Int) := hhigh
    obtain ⟨k, rfl⟩ : ∃ k : Nat, offset = m.stop + k := ⟨(offset - m.stop).toNat, by omega⟩
    rw [hlevelAt]
    exact h.level_pos k (by omega) (by omega)
  · exact (hlevelAt stop).trans h.level_stop

/-- A fault in looking for a call is one of its numbers. -/
theorem exists_eq_tooManyDigits {t : Text} {m : Mention} {e : Fault}
    (h : (ofMention? t m).result = .error e) : ∃ n, e = .tooManyDigits n := by
  rw [result_ofMention?_eq_error_iff] at h
  by_cases hlong : ∃ token ∈ (scan (Text.onFrom t m.stop)).tokens, Atom.Overlong token
  · obtain ⟨token, hmem, hoverlong⟩ := hlong
    obtain ⟨n, hn⟩ := Argument.exists_read_eq_error_of_overlong hmem hoverlong
    rw [h] at hn
    exact ⟨n, Except.error.inj hn⟩
  · obtain ⟨a, ha⟩ := Argument.exists_read_eq_ok_iff.mpr fun token hmem hoverlong =>
      hlong ⟨token, hmem, hoverlong⟩
    rw [h] at ha
    cases ha

/-- **Offsets of a call site.**  Behind a complete argument the first parenthesis is
always found, so that looking for a call fails on nothing but the digits of a
number, and a call site that is found has sound offsets. -/
theorem offsets_of_ofMention? (t : Text) (m : Mention) (hstart : 0 ≤ m.start)
    (hstop : m.stop ≤ t.length) :
    (∀ a, (Argument.read (Text.onFrom t m.stop)).result = .ok a → a.valid = true →
        ∃ i, Text.find? ['('] (Text.onFrom t m.stop) = some i) ∧
      (∀ e, (ofMention? t m).result = .error e → ∃ n, e = .tooManyDigits n) ∧
      ∀ site, (ofMention? t m).result = .ok (some site) →
        site.mention = m ∧ HasSoundOffsets t site := by
  refine ⟨?_, fun e h => exists_eq_tooManyDigits h, ?_⟩
  · intro a hread hvalid
    have hscan := (Argument.read_eq_ok_iff.mp hread).2.1.trans hvalid
    exact ⟨_, find?_open_eq_length_gap (mem_open_of_valid hscan)⟩
  · intro site h
    obtain ⟨a, hread, hvalid, hblank, rfl⟩ := result_ofMention?_eq_some_iff.mp h
    obtain ⟨-, hscan, hlength⟩ := Argument.read_eq_ok_iff.mp hread
    rw [hvalid] at hscan
    obtain ⟨n, hn⟩ : ∃ n : Nat, m.stop = n := by
      refine Int.eq_ofNat_of_zero_le ?_
      rw [Mention.stop]
      omega
    have hle : n ≤ t.length := by omega
    have hrest : Text.onFrom t m.stop = t.drop n := by rw [hn, Text.onFrom_natCast t hle]
    have henclosed := encloses_of_valid hscan hblank
    have hfirst := find?_open_eq_length_gap (mem_open_of_valid hscan)
    rw [hlength] at henclosed
    rw [hrest] at henclosed hblank hfirst ⊢
    refine ⟨rfl, henclosed.hasSoundOffsets hn hle ?_ hfirst a.atoms⟩
    have hprefix : gap (t.drop n) <+: t.drop n := List.takeWhile_prefix _
    rwa [← List.prefix_iff_eq_take.mp hprefix]

/-- A call behind a stray closing parenthesis and blanks, with a nested call and a
parenthesis in a literal. -/
def strayClose : Text := ") System.err.print  (f(x) + \")\"); g();".toList

/-- The mention in it. -/
def strayMention : Mention := ⟨2, "System.err.print".toList, .err, "print".toList⟩

theorem offsets_of_ofMention?_strayClose :
    ∃ site, (ofMention? strayClose strayMention).result = .ok (some site) ∧
      site.openParen = 20 ∧ site.stop = 32 ∧ HasSoundOffsets strayClose site := by
  obtain ⟨-, -, hsound⟩ := offsets_of_ofMention? strayClose strayMention (by decide) (by decide)
  have hsite : (ofMention? strayClose strayMention).result = .ok (some ⟨strayMention, 20, 32,
      [.expression "f(x)".toList, .literal ")".toList]⟩) := by rfl
  exact ⟨_, hsite, rfl, rfl, (hsound _ hsite).2⟩

end CallSite

end LogCalls
