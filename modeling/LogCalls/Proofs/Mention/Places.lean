/-
LogCalls/Proofs/Mention/Places.lean

Where mentions stand.  A mention of a text is the wording of a print method
with no word character right before or after it, and every such place is
listed (`mem_all_iff`), from left to right (`pairwise_all`).

The letter that opens a wording occurs nowhere else in it, so two mentions
never share a character (`stop_le_start`), and a mention that ends before the
end of some text is one of every longer text (`mem_all_append_congr`).

The first mention on a line is the first of the whole text's mentions that
stands on that line (`onLine?_eq_some`).
-/
import LogCalls.Mention
import LogCalls.Proofs.Text.Places

namespace LogCalls.Mention

/-! ### Wordings -/

theorem startsWith_iff {w t : Text} :
    startsWith w t = true ↔ ∃ r, t = w ++ r ∧ r.head?.any Text.isWord = false := by
  rw [startsWith, Bool.and_eq_true, List.isPrefixOf_iff_prefix, Bool.not_eq_true']
  constructor
  · rintro ⟨⟨r, rfl⟩, h⟩
    rw [List.drop_left] at h
    exact ⟨r, rfl, h⟩
  · rintro ⟨r, rfl, h⟩
    exact ⟨⟨r, rfl⟩, by rwa [List.drop_left]⟩

theorem mem_choices_iff {s : Stream} {method : Text} :
    (s, method) ∈ choices ↔ method ∈ methods := by
  cases s <;> simp [choices, methods]

theorem wording_eq (s : Stream) (method : Text) :
    wording s method = "System.".toList ++ (s.name.toList ++ '.' :: method) := by
  unfold wording
  exact List.append_assoc _ _ _

/-- The names of the streams have one length, so a text tells the stream of the
wording that it starts with. -/
theorem wording_inj {s s' : Stream} {k k' : Text}
    (h : wording s k = wording s' k') : s = s' ∧ k = k' := by
  have hlen : ∀ s : Stream, s.name.toList.length = 3 := by
    intro s
    cases s <;> decide
  rw [wording_eq, wording_eq] at h
  obtain ⟨hname, hk⟩ := List.append_inj (List.append_cancel_left h) (by rw [hlen, hlen])
  refine ⟨?_, (List.cons.inj hk).2⟩
  have hs := congrArg (fun n : Text => Stream.ofName? (String.ofList n)) hname
  simpa [Stream.ofName?_name] using hs

/-- What follows a method's name decides which name it is: the longer one goes
on with a word character where the shorter one ends. -/
theorem method_unique {k k' r r' : Text} (hk : k ∈ methods) (hk' : k' ∈ methods)
    (h : k ++ r = k' ++ r') (hr : r.head?.any Text.isWord = false)
    (hr' : r'.head?.any Text.isWord = false) : k = k' := by
  have hl : Text.isWord 'l' = true := by decide
  have longer : ∀ r r' : Text, "println".toList ++ r = "print".toList ++ r' →
      r'.head?.any Text.isWord = true := by
    intro r r' h
    have hsplit : "println".toList ++ r = "print".toList ++ ('l' :: 'n' :: r) := rfl
    rw [hsplit] at h
    rw [← List.append_cancel_left h]
    exact hl
  simp only [methods, List.mem_cons, List.not_mem_nil, or_false] at hk hk'
  rcases hk with rfl | rfl <;> rcases hk' with rfl | rfl
  · rfl
  · rw [longer r r' h] at hr'
    cases hr'
  · rw [longer r' r h.symm] at hr
    cases hr
  · rfl

/-- A text starts with one wording at most. -/
theorem startsWith_unique {s s' : Stream} {k k' t : Text} (hk : k ∈ methods) (hk' : k' ∈ methods)
    (h : startsWith (wording s k) t = true) (h' : startsWith (wording s' k') t = true) :
    (s, k) = (s', k') := by
  obtain ⟨r, rfl, hr⟩ := startsWith_iff.mp h
  obtain ⟨r', heq, hr'⟩ := startsWith_iff.mp h'
  have happ : ∀ (s : Stream) (k r : Text), wording s k ++ r = wording s (k ++ r) := by
    intro s k r
    rw [wording_eq, wording_eq, List.append_assoc, List.append_assoc]
    rfl
  rw [happ, happ] at heq
  obtain ⟨rfl, hkr⟩ := wording_inj heq
  rw [method_unique hk hk' hkr hr hr']

/-- What is mentioned at a place is a wording with no word character before or
after it. -/
theorem here?_eq_some_iff {before : Option Char} {t : Text} {s : Stream} {method : Text} :
    here? before t = some (s, method) ↔
      before.any Text.isWord = false ∧ method ∈ methods ∧
        ∃ r, t = wording s method ++ r ∧ r.head?.any Text.isWord = false := by
  rw [← startsWith_iff, here?]
  by_cases hb : before.any Text.isWord = true
  · simp [hb]
  simp only [hb, if_false, Bool.false_eq_true, true_and]
  constructor
  · intro h
    have hfound := List.find?_some h
    exact ⟨mem_choices_iff.mp (List.mem_of_find?_eq_some h), hfound⟩
  · rintro ⟨hm, hs⟩
    have hsome : (choices.find? fun c => startsWith (wording c.1 c.2) t).isSome = true :=
      List.find?_isSome.mpr ⟨(s, method), mem_choices_iff.mpr hm, hs⟩
    obtain ⟨⟨s', k'⟩, hc⟩ := Option.isSome_iff_exists.mp hsome
    have hk' : k' ∈ methods := mem_choices_iff.mp (List.mem_of_find?_eq_some hc)
    have hs' := List.find?_some hc
    rw [hc, startsWith_unique hm hk' hs hs']

/-! ### All mentions -/

/-- The mention of a method at an offset. -/
def atOffset (offset : Nat) (s : Stream) (method : Text) : Mention :=
  ⟨offset, wording s method, s, method⟩

theorem mem_allFrom_iff {m : Mention} {position : Nat} {before : Option Char} {t : Text} :
    m ∈ allFrom position before t ↔
      ∃ x y s method, t = x ++ y ∧ m = atOffset (position + x.length) s method ∧
        here? (x.getLast?.or before) y = some (s, method) := by
  induction t generalizing position before with
  | nil =>
      constructor
      · intro h
        cases h
      · rintro ⟨x, y, s, method, hxy, -, hy⟩
        obtain ⟨-, rfl⟩ := List.append_eq_nil_iff.mp hxy.symm
        obtain ⟨-, -, r, hr, -⟩ := here?_eq_some_iff.mp hy
        rw [wording_eq] at hr
        cases hr
  | cons c r ih =>
      have hrest : (∃ x y s method, c :: r = x ++ y ∧
            m = atOffset (position + x.length) s method ∧
            here? (x.getLast?.or before) y = some (s, method)) ↔
          (∃ s method, m = atOffset position s method ∧
            here? before (c :: r) = some (s, method)) ∨
          m ∈ allFrom (position + 1) (some c) r := by
        rw [ih]
        constructor
        · rintro ⟨x, y, s, method, hxy, hm, hy⟩
          rcases x with _ | ⟨d, x⟩
          · obtain rfl : c :: r = y := hxy
            exact .inl ⟨s, method, hm, hy⟩
          · obtain ⟨rfl, rfl⟩ := List.cons.inj hxy
            rw [Text.getLast?_cons_or] at hy
            refine .inr ⟨x, y, s, method, rfl, ?_, hy⟩
            rw [hm, List.length_cons, Nat.add_right_comm, Nat.add_assoc]
        · rintro (⟨s, method, hm, hy⟩ | ⟨x, y, s, method, rfl, hm, hy⟩)
          · exact ⟨[], c :: r, s, method, rfl, hm, hy⟩
          · refine ⟨c :: x, y, s, method, rfl, ?_, ?_⟩
            · rw [hm, List.length_cons, Nat.add_right_comm, Nat.add_assoc]
            · rwa [Text.getLast?_cons_or]
      rw [hrest, allFrom]
      rcases hh : here? before (c :: r) with _ | ⟨s, method⟩
      · simp
      · simp [atOffset]

/-- Where a mention stands in a text: behind `x` and before `r`. -/
structure Stands (m : Mention) (x r t : Text) : Prop where
  text : t = x ++ m.matched ++ r
  start : m.start = x.length
  matched : m.matched = wording m.stream m.method
  method : m.method ∈ methods
  before : x.getLast?.any Text.isWord = false
  after : r.head?.any Text.isWord = false

/-- The mentions of a text are the wordings in it with no word character right
before or after them. -/
theorem mem_all_iff {m : Mention} {t : Text} : m ∈ all t ↔ ∃ x r, Stands m x r t := by
  rw [all, mem_allFrom_iff]
  constructor
  · rintro ⟨x, y, s, method, rfl, rfl, hy⟩
    obtain ⟨hb, hm, r, rfl, hr⟩ := here?_eq_some_iff.mp hy
    rw [Option.or_none] at hb
    exact ⟨x, r, by simp [atOffset], by simp [atOffset], rfl, hm, hb, hr⟩
  · rintro ⟨x, r, h⟩
    refine ⟨x, m.matched ++ r, m.stream, m.method, ?_, ?_, ?_⟩
    · rw [h.text, List.append_assoc]
    · rw [atOffset, ← h.matched, Nat.zero_add, ← h.start]
    · rw [here?_eq_some_iff, Option.or_none]
      exact ⟨h.before, h.method, r, by rw [h.matched], h.after⟩

theorem start_nonneg {m : Mention} {t : Text} (hm : m ∈ all t) : 0 ≤ m.start := by
  obtain ⟨x, _, hx⟩ := mem_all_iff.mp hm
  rw [hx.start]
  omega

theorem pairwise_allFrom (position : Nat) (before : Option Char) (t : Text) :
    (allFrom position before t).Pairwise fun a b => a.start < b.start := by
  induction t generalizing position before with
  | nil => exact .nil
  | cons c r ih =>
      rw [allFrom]
      rcases here? before (c :: r) with _ | ⟨s, method⟩
      · exact ih _ _
      · refine .cons (fun m hm => ?_) (ih _ _)
        obtain ⟨x, y, s', method', -, rfl, -⟩ := mem_allFrom_iff.mp hm
        simp only [atOffset]
        omega

/-- Mentions are listed from left to right. -/
theorem pairwise_all (t : Text) : (all t).Pairwise fun a b => a.start < b.start :=
  pairwise_allFrom 0 none t

/-! ### Mentions are apart -/

/-- A wording is the letter `S` and letters and points that are no `S`. -/
theorem exists_wording_eq_cons {s : Stream} {method : Text} (h : method ∈ methods) :
    ∃ w, wording s method = 'S' :: w ∧ 'S' ∉ w ∧ '\n' ∉ w := by
  simp only [methods, List.mem_cons, List.not_mem_nil, or_false] at h
  rw [wording_eq]
  rcases h with rfl | rfl <;> cases s <;> exact ⟨_, rfl, by decide, by decide⟩

/-- Two mentions share no character. -/
theorem stop_le_start {m m' : Mention} {t : Text} (hm : m ∈ all t) (hm' : m' ∈ all t)
    (h : m.start < m'.start) : m.stop ≤ m'.start := by
  obtain ⟨x, r, hx⟩ := mem_all_iff.mp hm
  obtain ⟨x', r', hx'⟩ := mem_all_iff.mp hm'
  obtain ⟨w, hw, hS, -⟩ := exists_wording_eq_cons (s := m.stream) hx.method
  obtain ⟨w', hw', -, -⟩ := exists_wording_eq_cons (s := m'.stream) hx'.method
  rw [← hx.matched] at hw
  rw [← hx'.matched] at hw'
  rw [hx.start, hx'.start] at h
  have heq : x ++ (m.matched ++ r) = x' ++ (m'.matched ++ r') := by
    rw [← List.append_assoc, ← List.append_assoc, ← hx.text, ← hx'.text]
  rcases List.append_eq_append_iff.mp heq with ⟨a, rfl, ha⟩ | ⟨a, rfl, -⟩
  · -- the second mention starts `a` behind the first, and its first letter is no later letter
    -- of the first one
    have hlen : m.matched.length ≤ a.length := by
      rcases List.append_eq_append_iff.mp ha with ⟨z, rfl, -⟩ | ⟨z, hz, hr⟩
      · simp
      · rcases z with _ | ⟨c, z⟩
        · rw [hz]
          simp
        · rw [hw', List.cons_append] at hr
          obtain ⟨rfl, -⟩ := List.cons.inj hr
          rcases a with _ | ⟨d, a⟩
          · simp at h
          · rw [hw, List.cons_append] at hz
            obtain ⟨-, rfl⟩ := List.cons.inj hz
            exact absurd (by simp) hS
    rw [stop, hx.start, hx'.start]
    simp only [List.length_append]
    omega
  · simp only [List.length_append] at h
    omega

/-- A mention that ends inside of a text, with a character of the text behind
it, does not depend on what follows the text. -/
theorem mem_all_append_congr {m : Mention} {u v : Text} (hm : m ∈ all (u ++ v))
    (h : m.stop < u.length) (v' : Text) : m ∈ all (u ++ v') := by
  obtain ⟨x, r, hx⟩ := mem_all_iff.mp hm
  rw [stop, hx.start] at h
  rcases List.append_eq_append_iff.mp hx.text with ⟨a, ha, -⟩ | ⟨a, rfl, rfl⟩
  · have := congrArg List.length ha
    simp only [List.length_append] at this
    omega
  · rcases a with _ | ⟨c, a⟩
    · simp only [List.length_append, List.length_nil] at h
      omega
    · exact mem_all_iff.mpr
        ⟨x, c :: a ++ v', by simp, hx.start, hx.matched, hx.method, hx.before, hx.after⟩

/-! ### Mentions on a line -/

/-- The first of some mentions in a row. -/
theorem head?_eq_some_of_le {l : List Mention} (hl : l.Pairwise fun a b => a.start < b.start)
    {m : Mention} (hm : m ∈ l) (hfirst : ∀ m' ∈ l, m.start ≤ m'.start) : l.head? = some m := by
  cases hl with
  | nil => cases hm
  | @cons a l ha _ =>
      rcases List.mem_cons.mp hm with rfl | hm
      · rfl
      · have hlt := ha m hm
        have hle := hfirst a List.mem_cons_self
        omega

/-- A mention on a line is one of the whole text, behind the lines before. -/
theorem shift_mem_all {a l y : Text} (ha : Text.EndsLine a) (hl : '\n' ∉ l)
    (hy : y.head?.any Text.isWord = false) {m : Mention} (hm : m ∈ all l) :
    shift a.length m ∈ all (a ++ l ++ y) ∧
      Text.lineStart (a ++ l ++ y) (shift a.length m).start = a.length := by
  have hn : Text.isWord '\n' = false := by decide
  obtain ⟨x, r, hx⟩ := mem_all_iff.mp hm
  have hstart : (shift a.length m).start = (a ++ x).length := by
    simp only [shift, hx.start, List.length_append]
    omega
  constructor
  · refine mem_all_iff.mpr ⟨a ++ x, r ++ y, ?_, hstart, hx.matched, hx.method, ?_, ?_⟩
    · rw [hx.text]
      simp [shift]
    · rcases hlast : x.getLast? with _ | c
      · rw [List.getLast?_append, hlast]
        rcases ha with rfl | ha
        · rfl
        · rw [ha]
          exact hn
      · have := hx.before
        rw [hlast] at this
        rw [List.getLast?_append, hlast]
        exact this
    · rcases hr : r with _ | ⟨c, r'⟩
      · exact hy
      · have := hx.after
        rw [hr] at this
        exact this
  · have hx' : '\n' ∉ x := by
      intro hmem
      exact hl (by rw [hx.text]; simp [hmem])
    rw [hstart, hx.text]
    have hsplit : a ++ (x ++ m.matched ++ r) ++ y = a ++ x ++ (m.matched ++ r ++ y) := by simp
    rw [hsplit, Text.lineStart_length_append ha hx']

/-- The rest of a line starts with what the rest of the text starts with, or is
empty; what follows it starts with a line feed, or is empty. -/
theorem isWord_takeWhile_dropWhile {r : Text} (h : r.head?.any Text.isWord = false) :
    (r.takeWhile (· ≠ '\n')).head?.any Text.isWord = false ∧
      (r.dropWhile (· ≠ '\n')).head?.any Text.isWord = false := by
  have hn : Text.isWord '\n' = false := by decide
  constructor
  · rcases r with _ | ⟨c, r⟩
    · rfl
    · by_cases hc : c = '\n'
      · simp [hc]
      · simpa [hc] using h
  · rcases hd : r.dropWhile (· ≠ '\n') with _ | ⟨c, r'⟩
    · rfl
    · have hc := List.head?_dropWhile_not (fun c => decide (c ≠ '\n')) r
      rw [hd] at hc
      have : c = '\n' := by simpa using hc
      subst this
      exact hn

/-- **The first mention on a line.**  What is found on the line of an offset is
the first mention of the whole text that stands on that line. -/
theorem onLine?_eq_some {m : Mention} {t : Text} {offset : Int} (hm : m ∈ all t)
    (hline : Text.lineStart t m.start = Text.lineStart t offset)
    (hfirst : ∀ m' ∈ all t, Text.lineStart t m'.start = Text.lineStart t offset →
      m.start ≤ m'.start) : onLine? t offset = some m := by
  obtain ⟨x, r, hx⟩ := mem_all_iff.mp hm
  obtain ⟨a, b, rfl, ha, hb⟩ := Text.exists_endsLine_append x
  obtain ⟨w, hw, -, hwn⟩ := exists_wording_eq_cons (s := m.stream) hx.method
  rw [← hx.matched] at hw
  have hmatched : '\n' ∉ m.matched := by
    rw [hw]
    simpa using hwn
  obtain ⟨htake, hdrop⟩ := isWord_takeWhile_dropWhile hx.after
  -- the line is `b`, the mention, and what is left of the line behind it
  have hstart : Text.lineStart t offset = a.length := by
    rw [← hline, hx.start, hx.text, List.append_assoc, Text.lineStart_length_append ha hb]
  have htext : t = a ++ (b ++ m.matched ++ r.takeWhile (· ≠ '\n')) ++ r.dropWhile (· ≠ '\n') := by
    rw [hx.text]
    simp
  have hfree : '\n' ∉ b ++ m.matched ++ r.takeWhile (· ≠ '\n') := by
    simp only [List.mem_append, not_or]
    exact ⟨⟨hb, hmatched⟩, Text.not_mem_takeWhile_line r⟩
  have hlineFrom : Text.lineFrom t a.length = b ++ m.matched ++ r.takeWhile (· ≠ '\n') := by
    have hbm : '\n' ∉ b ++ m.matched := by
      simp only [List.mem_append, not_or]
      exact ⟨hb, hmatched⟩
    have hsplit : t = a ++ (b ++ m.matched ++ r) := by
      rw [hx.text]
      simp
    rw [hsplit, Text.lineFrom_length_append, Text.takeWhile_line_append hbm]
  have hmem : { m with start := (b.length : Int) } ∈ all (Text.lineFrom t a.length) := by
    rw [hlineFrom]
    refine mem_all_iff.mpr ⟨b, _, rfl, rfl, hx.matched, hx.method, ?_, htake⟩
    have hbefore := hx.before
    rcases hlast : b.getLast? with _ | c
    · rfl
    · rw [List.getLast?_append, hlast] at hbefore
      exact hbefore
  have hleast : ∀ m' ∈ all (Text.lineFrom t a.length), (b.length : Int) ≤ m'.start := by
    intro m' hm'
    rw [hlineFrom] at hm'
    obtain ⟨hall, hon⟩ := shift_mem_all ha hfree hdrop hm'
    rw [← htext] at hall hon
    have hle := hfirst _ hall (hon.trans hstart.symm)
    rw [hx.start] at hle
    simp only [shift, List.length_append] at hle
    omega
  have hshift : shift a.length { m with start := (b.length : Int) } = m := by
    have hsum : (b.length : Int) + a.length = m.start := by
      rw [hx.start, List.length_append]
      omega
    rw [shift, hsum]
  rw [onLine?, hstart, head?_eq_some_of_le (pairwise_all _) hmem hleast, Option.map_some, hshift]

/-- No other mention stands before it on its line. -/
def FirstOnLine (t : Text) (m : Mention) : Prop :=
  ∀ m' ∈ all t, Text.lineStart t m'.start = Text.lineStart t m.start → m.start ≤ m'.start

/-- A mention that ends inside of a text is the first on its line whatever
follows the text. -/
theorem FirstOnLine.append_congr {m : Mention} {u v : Text} (h : FirstOnLine (u ++ v) m)
    (hm : m ∈ all (u ++ v)) (hstop : m.stop < u.length) (v' : Text) :
    FirstOnLine (u ++ v') m := by
  intro m' hm' hline
  have hm₁ := mem_all_append_congr hm hstop v'
  refine Int.not_lt.mp fun hlt => ?_
  -- a mention before it ends before it, so it was there before
  have hstop' : m'.stop ≤ m.start := stop_le_start hm' hm₁ hlt
  have hle : m.start ≤ m.stop := by
    rw [stop]
    omega
  have hm₀ : m' ∈ all (u ++ v) := mem_all_append_congr hm' (by omega) v
  have hnonneg := start_nonneg hm
  have hnonneg' := start_nonneg hm'
  rw [Text.lineStart_append_of_le hnonneg' (by omega),
    Text.lineStart_append_of_le hnonneg (by omega)] at hline
  have := h m' hm₀ (by
    rw [Text.lineStart_append_of_le hnonneg' (by omega),
      Text.lineStart_append_of_le hnonneg (by omega), hline])
  omega

end LogCalls.Mention
