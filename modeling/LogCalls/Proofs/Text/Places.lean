/-
LogCalls/Proofs/Text/Places.lean

Places of a text that is given in pieces.  A text that is cut where its first
piece ends falls into its two pieces (`upTo_length_append`,
`onFrom_length_append`), and the line of such a place starts behind the last
line feed of the first piece (`lineStart_length_append`).
-/
import LogCalls.Text.Lines

namespace LogCalls.Text

/-! ### The character before a place -/

/-- Behind a character, the one before it counts no more. -/
theorem getLast?_cons_or (c : Char) (a : Text) (p : Option Char) :
    (c :: a).getLast?.or p = a.getLast?.or (some c) := by
  rw [List.getLast?_cons]
  cases a.getLast? <;> rfl

/-- A text is cut in one way at the first place of a character. -/
theorem append_cons_inj {c : Char} {x y u v : Text} (hx : c ∉ x) (hy : c ∉ y)
    (h : x ++ c :: u = y ++ c :: v) : x = y ∧ u = v := by
  induction x generalizing y with
  | nil =>
      rcases y with _ | ⟨d, y⟩
      · exact ⟨rfl, (List.cons.inj h).2⟩
      · obtain ⟨rfl, -⟩ := List.cons.inj h
        exact absurd List.mem_cons_self hy
  | cons d x ih =>
      rcases y with _ | ⟨d', y⟩
      · obtain ⟨rfl, -⟩ := List.cons.inj h
        exact absurd List.mem_cons_self hx
      · obtain ⟨rfl, htail⟩ := List.cons.inj h
        rw [List.mem_cons, not_or] at hx hy
        obtain ⟨rfl, huv⟩ := ih hx.2 hy.2 htail
        exact ⟨rfl, huv⟩

/-! ### Cutting where a piece ends -/

/-- The character where a piece ends is the first one of what follows. -/
theorem getElem?_append_cons (x : Text) (c : Char) (r : Text) :
    (x ++ c :: r)[x.length]? = some c := by
  rw [List.getElem?_append_right (Nat.le_refl _), Nat.sub_self, List.getElem?_cons_zero]

@[simp] theorem upTo_length_append (x y : Text) : upTo (x ++ y) (x.length : Int) = x := by
  rw [upTo_natCast _ (by simp), List.take_left]

@[simp] theorem onFrom_length_append (x y : Text) : onFrom (x ++ y) (x.length : Int) = y := by
  rw [onFrom_natCast _ (by simp), List.drop_left]

/-- What stands before a place inside of a text does not depend on what follows
the text. -/
theorem upTo_append_of_le {u : Text} {offset : Int} (hnonneg : 0 ≤ offset)
    (hle : offset ≤ u.length) (v : Text) : upTo (u ++ v) offset = upTo u offset := by
  obtain ⟨n, rfl⟩ := Int.eq_ofNat_of_zero_le hnonneg
  have hn : n ≤ u.length := by omega
  have hn' : n ≤ (u ++ v).length := by
    rw [List.length_append]
    omega
  rw [upTo_natCast _ hn', upTo_natCast _ hn, List.take_append_of_le_length hn]

/-- A place of a text is one of every text that ends with it. -/
theorem place_append {x y : Text} {offset : Int} (h : 0 ≤ offset) :
    place (x ++ y).length (offset + x.length) = x.length + place y.length offset := by
  unfold place
  rw [if_neg (by omega), if_neg (by omega), List.length_append]
  omega

theorem upTo_append_add {x y : Text} {offset : Int} (h : 0 ≤ offset) :
    upTo (x ++ y) (offset + x.length) = x ++ upTo y offset := by
  rw [upTo, place_append h, List.take_length_add_append]
  rfl

theorem onFrom_append_add {x y : Text} {offset : Int} (h : 0 ≤ offset) :
    onFrom (x ++ y) (offset + x.length) = onFrom y offset := by
  rw [onFrom, place_append h, List.drop_length_add_append]
  rfl

/-! ### Words beside the end of a line -/

/-- The last character of a text is one of its last piece. -/
theorem mem_of_getLast?_append {u v : Text} {c : Char} (h : (u ++ v).getLast? = some c)
    (hv : v ≠ []) : c ∈ v := by
  rw [List.getLast?_append, List.getLast?_eq_some_getLast hv, Option.some_or] at h
  exact Option.some.inj h ▸ List.getLast_mem hv

/-- A word stands on one line: where a text goes on behind the end of a line, a
word in it stands before that end, with a character of the line behind it, or
behind that end. -/
theorem word_before_or_behind {a b x w r : Text} (ha : a.getLast? = some '\n') (hw : '\n' ∉ w)
    (hne : w ≠ []) (h : a ++ b = x ++ w ++ r) :
    (∃ c r', a = x ++ w ++ c :: r' ∧ r = c :: r' ++ b) ∨ ∃ x', x = a ++ x' ∧ b = x' ++ w ++ r := by
  have hlast : ∀ {u v : Text}, a = u ++ v → v ≠ [] → '\n' ∈ v := by
    rintro u v rfl hv
    exact mem_of_getLast?_append ha hv
  rw [List.append_assoc] at h
  rcases List.append_eq_append_iff.mp h with ⟨x', rfl, hb⟩ | ⟨z, hz, hr⟩
  · exact .inr ⟨x', rfl, by rw [hb, List.append_assoc]⟩
  · rcases List.append_eq_append_iff.mp hr with ⟨y, rfl, rfl⟩ | ⟨y, rfl, rfl⟩
    · rcases y with _ | ⟨c, y⟩
      · rw [List.append_nil] at hz
        exact absurd (hlast hz hne) hw
      · exact .inl ⟨c, y, by rw [hz, List.append_assoc], rfl⟩
    · rcases z with _ | ⟨c, z⟩
      · exact .inr ⟨[], by rw [hz]; simp, by simp⟩
      · exact absurd (List.mem_append_left y (hlast hz (List.cons_ne_nil c z))) hw

/-- A word in a text that ends with the end of a line has a character behind
it. -/
theorem ne_nil_of_endsLine {x w r : Text} (ha : (x ++ w ++ r).getLast? = some '\n')
    (hw : '\n' ∉ w) (hne : w ≠ []) : r ≠ [] := by
  rintro rfl
  rw [List.append_nil] at ha
  exact hw (mem_of_getLast?_append ha hne)

/-! ### Where a line starts -/

/-- The text before a line: nothing, or a text that ends with a line feed. -/
def EndsLine (a : Text) : Prop := a = [] ∨ a.getLast? = some '\n'

/-- Every text is lines that have ended and the start of one that has not. -/
theorem exists_endsLine_append (x : Text) : ∃ a b, x = a ++ b ∧ EndsLine a ∧ '\n' ∉ b := by
  by_cases hm : '\n' ∈ x
  · obtain ⟨b, a, hx, hb⟩ := List.eq_append_cons_of_mem (List.mem_reverse.mpr hm)
    refine ⟨a.reverse ++ ['\n'], b.reverse, ?_, .inr (by simp), by simpa using hb⟩
    rw [← List.reverse_reverse x, hx]
    simp
  · exact ⟨[], x, rfl, .inl rfl, hm⟩

theorem EndsLine.takeWhile_reverse {a : Text} (h : EndsLine a) :
    a.reverse.takeWhile (· ≠ '\n') = [] := by
  rcases h with rfl | h
  · rfl
  · rw [← List.head?_reverse] at h
    obtain ⟨r, hr⟩ := List.head?_eq_some_iff.mp h
    rw [hr]
    rfl

/-- A line goes on over a text without line feeds. -/
theorem takeWhile_line_append {l : Text} (hl : '\n' ∉ l) (y : Text) :
    (l ++ y).takeWhile (· ≠ '\n') = l ++ y.takeWhile (· ≠ '\n') := by
  refine List.takeWhile_append_of_pos fun c hc => ?_
  have : c ≠ '\n' := by
    rintro rfl
    exact hl hc
  simpa using this

theorem not_mem_takeWhile_line (y : Text) : '\n' ∉ y.takeWhile (· ≠ '\n') := by
  intro hmem
  have hall := List.all_eq_true.mp (List.all_takeWhile (p := fun c => decide (c ≠ '\n'))) _ hmem
  simp at hall

theorem lineStart_length_append {a b : Text} (ha : EndsLine a) (hb : '\n' ∉ b) (y : Text) :
    lineStart (a ++ b ++ y) ((a ++ b).length : Int) = a.length := by
  have hline : (a ++ b).reverse.takeWhile (· ≠ '\n') = b.reverse := by
    rw [List.reverse_append, takeWhile_line_append (by simpa using hb), ha.takeWhile_reverse,
      List.append_nil]
  rw [lineStart, upTo_length_append, hline]
  simp

theorem lineStart_append_of_le {u : Text} {offset : Int} (hnonneg : 0 ≤ offset)
    (hle : offset ≤ u.length) (v : Text) : lineStart (u ++ v) offset = lineStart u offset := by
  rw [lineStart, lineStart, upTo_append_of_le hnonneg hle]

theorem lineFrom_length_append (a y : Text) :
    lineFrom (a ++ y) a.length = y.takeWhile (· ≠ '\n') := by
  rw [lineFrom, List.drop_left]

end LogCalls.Text
