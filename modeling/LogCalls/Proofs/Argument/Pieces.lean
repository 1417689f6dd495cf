/-
LogCalls/Proofs/Argument/Pieces.lean

The tokens of an argument, and the text that they were cut from.  What follows
the first parenthesis falls into pieces: single characters, whole literals and
whole nested parentheses, up to the parenthesis that closes the argument.  Where
none closes it, the pieces go on to the end of the text, and the last one may be
a literal or a parenthesis that nothing ends (`Divided`).  There is exactly one
way to cut a text into pieces (`exists_divided`, `Divided.unique`), because no
item starts another one (`Item.eq_of_append`).

The scan leaves out the pieces that are blanks, cuts at those that are signs and
keeps every other one as it is (`Item.scanFrom_append`, `Unended.scanFrom_eq`),
so its tokens are the operands between the signs (`Divided.scanFrom_eq`).

Main result: `tokens_lose_blanks_only`.
-/
import LogCalls.Proofs.Argument.Items
import LogCalls.Proofs.Argument.Reading

namespace LogCalls.Argument

open State

/-! ### Pieces of an argument -/

/-- A piece that nothing ends: a literal without its second quote, or a
parenthesis that is not closed again. -/
inductive Unended : Text → Prop
  | literal {q : Char} {t : Text} : Atom.isQuote q = true →
      (∀ u r, Enclosed q u → t ≠ u ++ q :: r) → Unended (q :: t)
  | nested {t : Text} : (∀ n r, Balanced n → t ≠ n ++ ')' :: r) → Unended ('(' :: t)

/-- The pieces of what follows the first parenthesis, and whether the argument is
closed behind them. -/
inductive Divided : Text → List Text → Bool → Prop
  | closed {r : Text} : Divided (')' :: r) [] true
  | finished : Divided [] [] false
  | unended {u : Text} : Unended u → Divided u [u] false
  | cons {i r : Text} {pieces : List Text} {closed : Bool} :
      Item i → Divided r pieces closed → Divided (i ++ r) (i :: pieces) closed

/-- What joins two operands, as a piece. -/
def sign : Text := ['+']

/-- Whether a piece is a blank. -/
def isBlankPiece : Text → Bool
  | [c] => Text.isBlank c
  | _ => false

/-- The pieces without the blanks. -/
def dense (pieces : List Text) : List Text := pieces.filter fun i => !isBlankPiece i

/-- The operands of a concatenation: the pieces between its signs, without the
blanks. -/
def operands (pieces : List Text) : List (List Text) := (dense pieces).splitOn sign

/-- What the pieces of an argument make of the text behind its first
parenthesis: all of it, or all up to the parenthesis that closes it. -/
theorem Divided.text_eq {r : Text} {pieces : List Text} {closed : Bool}
    (h : Divided r pieces closed) :
    if closed then ∃ s, r = pieces.flatten ++ ')' :: s else r = pieces.flatten := by
  induction h with
  | @closed r => exact ⟨r, rfl⟩
  | finished => rfl
  | unended _ => simp
  | @cons i r pieces closed _ _ ih =>
      cases closed with
      | true =>
          obtain ⟨s, hs⟩ := ih
          exact ⟨s, by rw [hs, List.flatten_cons, List.append_assoc]⟩
      | false =>
          have hr : r = pieces.flatten := ih
          simp [hr]

/-- Where the argument is closed its pieces are items. -/
theorem Divided.body {r : Text} {pieces : List Text} {closed : Bool}
    (h : Divided r pieces closed) (hclosed : closed = true) : Body pieces.flatten := by
  induction h with
  | closed => exact .nil
  | finished => cases hclosed
  | unended _ => cases hclosed
  | cons hi _ ih => exact .cons hi (ih hclosed)

/-! ### One way to cut -/

theorem Balanced.eq_of_append {n n' x y : Text} (h : Balanced n) (h' : Balanced n')
    (heq : n ++ ')' :: x = n' ++ ')' :: y) : n = n' ∧ x = y := by
  induction h generalizing n' x y with
  | nil =>
      cases h' with
      | nil => exact ⟨rfl, (List.cons.inj heq).2⟩
      | char _ hc _ => exact absurd (List.cons.inj heq).1.symm hc
      | nested _ _ => exact absurd (List.cons.inj heq).1 (by decide)
  | char ho hc _ ih =>
      cases h' with
      | nil => exact absurd (List.cons.inj heq).1 hc
      | char _ _ hr' =>
          obtain ⟨rfl, htail⟩ := List.cons.inj heq
          obtain ⟨rfl, rfl⟩ := ih hr' htail
          exact ⟨rfl, rfl⟩
      | nested _ _ => exact absurd (List.cons.inj heq).1 ho
  | nested _ _ ihn ihr =>
      cases h' with
      | nil => exact absurd (List.cons.inj heq).1 (by decide)
      | char ho' _ _ => exact absurd (List.cons.inj heq).1.symm ho'
      | nested hn' hr' =>
          simp only [List.cons_append, List.append_assoc] at heq
          obtain ⟨rfl, hrest⟩ := ihn hn' (List.cons.inj heq).2
          obtain ⟨rfl, rfl⟩ := ihr hr' hrest
          exact ⟨rfl, rfl⟩

theorem Enclosed.eq_of_append {q : Char} {u v x y : Text} (hu : Enclosed q u) (hv : Enclosed q v)
    (heq : u ++ q :: x = v ++ q :: y) : u = v := by
  -- the longer one would hold the quote that ends the shorter one
  rcases List.append_eq_append_iff.mp heq with ⟨_ | ⟨d, a⟩, rfl, ha⟩ | ⟨_ | ⟨d, a⟩, rfl, ha⟩
  · exact (List.append_nil u).symm
  · obtain ⟨rfl, -⟩ := List.cons.inj ha
    exact absurd (hv.escaped u a rfl) hu.last_ne
  · exact List.append_nil v
  · obtain ⟨rfl, -⟩ := List.cons.inj ha
    exact absurd (hu.escaped v a rfl) hv.last_ne

/-- What an item starts with tells its kind. -/
theorem Item.exists_cons {i : Text} (h : Item i) :
    ∃ c r, i = c :: r ∧ c ≠ ')' ∧
      ((c ≠ '(' ∧ Atom.isQuote c = false ∧ r = []) ∨
        (Atom.isQuote c = true ∧ ∃ t, Enclosed c t ∧ r = t ++ [c]) ∨
        (c = '(' ∧ ∃ n, Balanced n ∧ r = n ++ [')'])) := by
  cases h with
  | char ho hc hq => exact ⟨_, [], rfl, hc, .inl ⟨ho, hq, rfl⟩⟩
  | literal hq ht => exact ⟨_, _, rfl, (ne_parens_of_isQuote hq).2, .inr (.inl ⟨hq, _, ht, rfl⟩)⟩
  | nested hn => exact ⟨_, _, rfl, by decide, .inr (.inr ⟨rfl, _, hn, rfl⟩)⟩

/-- No item starts another one. -/
theorem Item.eq_of_append {i j x y : Text} (hi : Item i) (hj : Item j) (h : i ++ x = j ++ y) :
    i = j ∧ x = y := by
  have hij : i = j := by
    obtain ⟨c, r, rfl, -, hr⟩ := hi.exists_cons
    obtain ⟨d, s, rfl, -, hs⟩ := hj.exists_cons
    rw [List.cons_append, List.cons_append] at h
    obtain ⟨rfl, htail⟩ := List.cons.inj h
    rcases hr with ⟨ho, hq, rfl⟩ | ⟨hq, t, ht, rfl⟩ | ⟨rfl, n, hn, rfl⟩
    · rcases hs with ⟨-, -, rfl⟩ | ⟨hq', -⟩ | ⟨ho', -⟩
      · rfl
      · rw [hq] at hq'
        cases hq'
      · exact absurd ho' ho
    · rcases hs with ⟨-, hq', -⟩ | ⟨-, u, hu, rfl⟩ | ⟨rfl, -⟩
      · rw [hq] at hq'
        cases hq'
      · rw [List.append_assoc, List.append_assoc] at htail
        rw [ht.eq_of_append hu htail]
      · exact absurd hq (by decide)
    · rcases hs with ⟨ho', -⟩ | ⟨hq', -⟩ | ⟨-, n', hn', rfl⟩
      · exact absurd rfl ho'
      · exact absurd hq' (by decide)
      · rw [List.append_assoc, List.append_assoc] at htail
        rw [(hn.eq_of_append hn' htail).1]
  subst hij
  exact ⟨rfl, List.append_cancel_left h⟩

/-- No item starts a piece that nothing ends. -/
theorem Unended.ne_append {u i : Text} (hu : Unended u) (hi : Item i) (r : Text) : u ≠ i ++ r := by
  intro h
  obtain ⟨c, s, rfl, -, hs⟩ := hi.exists_cons
  rw [List.cons_append] at h
  cases hu with
  | @literal q t hq hnone =>
      obtain ⟨rfl, htail⟩ := List.cons.inj h
      rcases hs with ⟨-, hq', -⟩ | ⟨-, v, hv, rfl⟩ | ⟨rfl, -⟩
      · rw [hq] at hq'
        cases hq'
      · exact hnone v r hv (by rw [htail, List.append_assoc]; rfl)
      · exact absurd hq (by decide)
  | nested hnone =>
      obtain ⟨rfl, htail⟩ := List.cons.inj h
      rcases hs with ⟨ho, -⟩ | ⟨hq, -⟩ | ⟨-, n, hn, rfl⟩
      · exact absurd rfl ho
      · exact absurd hq (by decide)
      · exact hnone n r hn (by rw [htail, List.append_assoc]; rfl)

theorem Unended.exists_cons {u : Text} (h : Unended u) :
    ∃ c t, u = c :: t ∧ (Atom.isQuote c = true ∨ c = '(') := by
  cases h with
  | literal hq _ => exact ⟨_, _, rfl, .inl hq⟩
  | nested _ => exact ⟨_, _, rfl, .inr rfl⟩

/-! What stands first in a text decides how it is cut. -/

section

variable {r i u : Text} {pieces : List Text} {closed : Bool}

theorem Divided.eq_of_nil (h : Divided [] pieces closed) : pieces = [] ∧ closed = false := by
  generalize hs : ([] : Text) = s at h
  cases h with
  | closed => cases hs
  | finished => exact ⟨rfl, rfl⟩
  | unended hu =>
      obtain ⟨c, t, rfl, -⟩ := hu.exists_cons
      cases hs
  | cons hi _ =>
      obtain ⟨c, t, rfl, -⟩ := hi.exists_cons
      cases hs

theorem Divided.eq_of_close (h : Divided (')' :: r) pieces closed) :
    pieces = [] ∧ closed = true := by
  generalize hs : ')' :: r = s at h
  cases h with
  | closed => exact ⟨rfl, rfl⟩
  | finished => cases hs
  | unended hu =>
      obtain ⟨c, t, rfl, hc⟩ := hu.exists_cons
      obtain ⟨rfl, -⟩ := List.cons.inj hs
      exact absurd hc (by decide)
  | cons hi _ =>
      obtain ⟨c, t, rfl, hc, -⟩ := hi.exists_cons
      exact absurd (List.cons.inj hs).1.symm hc

theorem Divided.eq_of_unended (hu : Unended u) (h : Divided u pieces closed) :
    pieces = [u] ∧ closed = false := by
  cases h with
  | closed =>
      obtain ⟨c, t, heq, hc⟩ := hu.exists_cons
      obtain ⟨rfl, -⟩ := List.cons.inj heq
      exact absurd hc (by decide)
  | finished =>
      obtain ⟨c, t, heq, -⟩ := hu.exists_cons
      cases heq
  | unended _ => exact ⟨rfl, rfl⟩
  | cons hi _ => exact absurd rfl (hu.ne_append hi _)

theorem Divided.exists_of_item (hi : Item i) (h : Divided (i ++ r) pieces closed) :
    ∃ rest, pieces = i :: rest ∧ Divided r rest closed := by
  generalize hs : i ++ r = s at h
  cases h with
  | closed =>
      obtain ⟨c, t, rfl, hc, -⟩ := hi.exists_cons
      exact absurd (List.cons.inj hs).1 hc
  | finished =>
      obtain ⟨c, t, rfl, -⟩ := hi.exists_cons
      cases hs
  | unended hu => exact absurd hs.symm (hu.ne_append hi _)
  | cons hj hrest =>
      obtain ⟨rfl, rfl⟩ := hi.eq_of_append hj hs
      exact ⟨_, rfl, hrest⟩

/-- A text is cut into pieces in one way only. -/
theorem Divided.unique {pieces' : List Text} {closed' : Bool} (h : Divided r pieces closed)
    (h' : Divided r pieces' closed') : pieces' = pieces ∧ closed' = closed := by
  induction h generalizing pieces' closed' with
  | closed => exact h'.eq_of_close
  | finished => exact h'.eq_of_nil
  | unended hu => exact h'.eq_of_unended hu
  | cons hi _ ih =>
      obtain ⟨rest, rfl, hrest⟩ := h'.exists_of_item hi
      obtain ⟨rfl, rfl⟩ := ih hrest
      exact ⟨rfl, rfl⟩

end

/-- Every text is cut into pieces in some way. -/
theorem exists_divided (r : Text) : ∃ pieces closed, Divided r pieces closed := by
  induction hlen : r.length using Nat.strongRecOn generalizing r with
  | ind len ih =>
    subst hlen
    rcases r with _ | ⟨c, t⟩
    · exact ⟨[], false, .finished⟩
    -- what is left behind an item that starts the text is shorter
    have hitem : ∀ {i s : Text}, Item i → c :: t = i ++ s →
        ∃ pieces closed, Divided (c :: t) pieces closed := by
      intro i s hi heq
      have hpos : 0 < i.length := by
        obtain ⟨d, r, rfl, -⟩ := hi.exists_cons
        exact Nat.succ_pos _
      have hshort : s.length < (c :: t).length := by
        rw [heq, List.length_append]
        omega
      obtain ⟨pieces, closed, hs⟩ := ih s.length hshort s rfl
      exact ⟨i :: pieces, closed, heq ▸ .cons hi hs⟩
    by_cases hc : c = ')'
    · subst hc
      exact ⟨[], true, .closed⟩
    by_cases ho : c = '('
    · subst ho
      by_cases hends : ∃ n s, Balanced n ∧ t = n ++ ')' :: s
      · obtain ⟨n, s, hn, rfl⟩ := hends
        exact hitem (s := s) (.nested hn) (by simp)
      · exact ⟨_, false, .unended (.nested fun n s hn heq => hends ⟨n, s, hn, heq⟩)⟩
    by_cases hq : Atom.isQuote c = true
    · by_cases hends : ∃ u s, Enclosed c u ∧ t = u ++ c :: s
      · obtain ⟨u, s, hu, rfl⟩ := hends
        exact hitem (s := s) (.literal hq hu) (by simp)
      · exact ⟨_, false, .unended (.literal hq fun u s hu heq => hends ⟨u, s, hu, heq⟩)⟩
    · exact hitem (.char ho hc (by simpa using hq)) rfl

/-- A row of items is cut into them. -/
theorem Body.exists_pieces {b : Text} (h : Body b) :
    ∃ pieces : List Text, (∀ i ∈ pieces, Item i) ∧ b = pieces.flatten ∧
      ∀ r, Divided (b ++ ')' :: r) pieces true := by
  induction h with
  | nil => exact ⟨[], List.forall_mem_nil _, rfl, fun r => .closed⟩
  | cons hi _ ih =>
      obtain ⟨pieces, hpieces, rfl, hdivided⟩ := ih
      refine ⟨_ :: pieces, List.forall_mem_cons.mpr ⟨hi, hpieces⟩, rfl, fun r => ?_⟩
      rw [List.append_assoc]
      exact .cons hi (hdivided r)

/-! ### What the scan makes of a piece -/

/-- The tokens with one piece more in front. -/
def placed (i : Text) (tokens : List Text) : List Text :=
  if isBlankPiece i then tokens else if i = sign then [] :: tokens else tokens.modifyHead (i ++ ·)

/-- What holds of every token still holds with one piece more in front, where it
holds of no text and survives the pieces that are kept. -/
theorem forall_mem_placed {P : Text → Prop} {i : Text} {tokens : List Text} (hnil : P [])
    (hkeep : isBlankPiece i = false → i ≠ sign → ∀ t, P t → P (i ++ t))
    (h : ∀ token ∈ tokens, P token) : ∀ token ∈ placed i tokens, P token := by
  rw [placed]
  split
  · exact h
  · next hblank =>
      split
      · exact List.forall_mem_cons.mpr ⟨hnil, h⟩
      · next hsign =>
          rcases tokens with _ | ⟨first, others⟩
          · exact h
          · rw [List.forall_mem_cons] at h
            rw [List.modifyHead_cons, List.forall_mem_cons]
            exact ⟨hkeep (by simpa using hblank) hsign _ h.1, h.2⟩

theorem map_flatten_operands_cons (i : Text) (pieces : List Text) :
    (operands (i :: pieces)).map List.flatten = placed i ((operands pieces).map List.flatten) := by
  rw [operands, dense, List.filter_cons, placed]
  by_cases hblank : isBlankPiece i = true
  · simp only [hblank, Bool.not_true, Bool.false_eq_true, if_false, if_true]
    rfl
  · simp only [hblank, Bool.not_false, if_true, List.splitOn_cons_eq_if_modifyHead, beq_iff_eq,
      Bool.false_eq_true, if_false]
    by_cases hsign : i = sign
    · simp only [hsign, if_true, List.map_cons, List.flatten_nil]
      rfl
    · obtain ⟨row, rest, hrows⟩ := List.exists_cons_of_ne_nil (List.splitOn_ne_nil sign (dense pieces))
      have hoperands : operands pieces = row :: rest := hrows
      rw [dense] at hrows
      simp only [hsign, if_false, hrows, hoperands, List.modifyHead_cons, List.map_cons,
        List.flatten_cons]

/-- Between the outermost parentheses the character before counts for nothing. -/
theorem scanFrom_inside_previous (p p' : Option Char) (t : Text) :
    scanFrom (inside 0 p') t = scanFrom (inside 0 p) t :=
  scanFrom_withPrevious (s := inside 0 p) rfl p' t

/-- The scan of an item and what follows it. -/
theorem Item.scanFrom_append {i : Text} (hi : Item i) (p : Option Char) (t : Text) :
    scanFrom (inside 0 p) (i ++ t) = ⟨placed i (scanFrom (inside 0 p) t).tokens,
      (scanFrom (inside 0 p) t).valid, i.length + (scanFrom (inside 0 p) t).length⟩ := by
  -- only a single character can be a blank or a sign
  have hkept : ∀ {p'}, Passes (· = .keep) (inside 0 p) i (inside 0 p') →
      isBlankPiece i = false → i ≠ sign →
      scanFrom (inside 0 p) (i ++ t) = ⟨placed i (scanFrom (inside 0 p) t).tokens,
        (scanFrom (inside 0 p) t).valid, i.length + (scanFrom (inside 0 p) t).length⟩ := by
    intro p' hpass hblank hsign
    rw [scanFrom_append_of_keep hpass, scanFrom_inside_previous p p', placed, hblank,
      if_neg (by decide), if_neg hsign]
  cases hi with
  | @char c ho hc hq =>
      have hn : (inside 0 p).next c = inside 0 (some c) := next_inside_of_not_quote ho hc hq
      by_cases hb : Text.isBlank c = true
      · have hskip : Passes (· = .skip) (inside 0 p) [c] (inside 0 (some c)) :=
          Passes.single (effect_inside_blank hb) hn isClosed_inside
        rw [scanFrom_append_of_skip hskip, scanFrom_inside_previous p, placed, isBlankPiece,
          if_pos hb]
      by_cases hp : c = '+'
      · subst hp
        rw [List.singleton_append, scanFrom, hn, isClosed_inside, effect_inside_plus,
          if_neg (by decide), scanFrom_inside_previous p]
        exact Scan.ext rfl rfl (Nat.add_comm _ _)
      · have hplain : IsPlain c := ⟨ho, hc, hq, by simpa using hb, hp⟩
        obtain ⟨p', hpass⟩ := passes_plain (w := [c]) (by simpa using hplain) p
        exact hkept hpass (by simpa [isBlankPiece] using hb) (by simpa [sign] using hp)
  | @literal q u hq hu =>
      refine hkept (hu.passes hq p) ?_ ?_
      · rcases u with _ | ⟨c, u⟩ <;> rfl
      · rcases u with _ | ⟨c, u⟩ <;> simp [sign]
  | @nested n hn =>
      obtain ⟨p', hpass⟩ := hn.passes 0 (some '(')
      refine hkept (passes_parens hpass) ?_ (by simp [sign])
      rcases n with _ | ⟨c, n⟩ <;> rfl

/-- In a literal that nothing ends everything is kept. -/
theorem passes_unended_literal {q : Char} {t : Text} {p : Option Char}
    (h : ∀ u r, encloses q p u = true → t ≠ u ++ q :: r) :
    ∃ p', Passes (· = .keep) (quoted q p) t (quoted q p') := by
  induction t generalizing p with
  | nil => exact ⟨p, .nil _⟩
  | cons c r ih =>
      have hescaped : c = q → p = some '\\' := by
        rintro rfl
        refine Classical.byContradiction fun hp => ?_
        exact h [] r (by simpa [encloses] using hp) rfl
      have hn : (quoted q p).next c = quoted q (some c) := next_quoted hescaped
      have hrest : ∀ u s, encloses q (some c) u = true → r ≠ u ++ q :: s := by
        rintro u s hu rfl
        refine h (c :: u) s ?_ rfl
        rw [encloses, hu, Bool.and_true, Bool.or_eq_true, bne_iff_ne, beq_iff_eq]
        exact (Classical.em (c = q)).symm.imp_right hescaped
      obtain ⟨p', hpass⟩ := ih hrest
      refine ⟨p', .cons effect_quoted (by rw [hn, isClosed_quoted]) ?_⟩
      rw [hn]
      exact hpass

/-- Behind a parenthesis that nothing closes everything is kept.  The induction is
on the length, since behind nested parentheses the text goes on at the same
depth. -/
theorem passes_unended_nested {t : Text} (depth : Nat) (p : Option Char)
    (h : ∀ n r, Balanced n → t ≠ n ++ ')' :: r) :
    ∃ depth' p', Passes (· = .keep) (inside (depth + 1) p) t (inside depth' p') := by
  induction hlen : t.length using Nat.strongRecOn generalizing t depth p with
  | ind len ih =>
    subst hlen
    rcases t with _ | ⟨c, r⟩
    · exact ⟨_, p, .nil _⟩
    have hc : c ≠ ')' := by
      rintro rfl
      exact h [] r .nil rfl
    by_cases ho : c = '('
    · subst ho
      by_cases hends : ∃ n s, Balanced n ∧ r = n ++ ')' :: s
      · obtain ⟨n, s, hn, rfl⟩ := hends
        have hrest : ∀ n' s', Balanced n' → s ≠ n' ++ ')' :: s' := by
          rintro n' s' hn' rfl
          exact h _ s' (.nested hn hn') (by simp)
        obtain ⟨p₁, hnested⟩ := hn.passes (depth + 1) (some '(')
        obtain ⟨depth', p', hpass⟩ := ih s.length (by simp; omega) depth (some ')') hrest rfl
        refine ⟨depth', p', ?_⟩
        have hsplit : '(' :: (n ++ ')' :: s) = '(' :: n ++ [')'] ++ s := by simp
        rw [hsplit]
        exact (passes_parens hnested).append hpass
      · have hrest : ∀ n s, Balanced n → r ≠ n ++ ')' :: s := fun n s hn heq => hends ⟨n, s, hn, heq⟩
        obtain ⟨depth', p', hpass⟩ := ih r.length (by simp) (depth + 1) (some '(') hrest rfl
        exact ⟨depth', p', .cons effect_inside_open (by simp) (by rwa [next_inside_open])⟩
    · have hrest : ∀ n s, Balanced n → r ≠ n ++ ')' :: s := by
        rintro n s hn rfl
        exact h (c :: n) s (.char ho hc hn) rfl
      obtain ⟨depth', p', hpass⟩ := ih r.length (by simp) depth (some c) hrest rfl
      have hn : (inside (depth + 1) p).next c = inside (depth + 1) (some c) :=
        next_inside_succ ho hc
      exact ⟨depth', p', .cons effect_inside_succ (by rw [hn, isClosed_inside]) (by rwa [hn])⟩

/-- A piece that nothing ends is kept up to the end of the text. -/
theorem Unended.scanFrom_eq {u : Text} (hu : Unended u) (p : Option Char) :
    scanFrom (inside 0 p) u = ⟨[u], false, u.length + 1⟩ := by
  have hpass : ∃ s, s.isComplete = false ∧ Passes (· = .keep) (inside 0 p) u s := by
    cases hu with
    | @literal q t hq hnone =>
        have hends : ∀ v r, encloses q (some q) v = true → t ≠ v ++ q :: r := fun v r hv =>
          hnone v r ((enclosed_iff (ne_backslash_of_isQuote hq)).mpr hv)
        obtain ⟨p', hrest⟩ := passes_unended_literal hends
        refine ⟨quoted q p', isComplete_quoted, .cons (effect_inside_quote hq) ?_ ?_⟩
        · rw [next_inside_quote hq, isClosed_quoted]
        · rwa [next_inside_quote hq]
    | nested hnone =>
        obtain ⟨depth, p', hrest⟩ := passes_unended_nested 0 (some '(') hnone
        exact ⟨_, isComplete_inside, .cons effect_inside_open (by simp) (by rwa [next_inside_open])⟩
  obtain ⟨s, hcomplete, hs⟩ := hpass
  have hend : scanFrom s [] = ⟨[[]], false, 1⟩ := by rw [scanFrom, hcomplete]
  have hscan := scanFrom_append_of_keep hs []
  rw [List.append_nil, hend] at hscan
  rw [hscan, List.modifyHead_cons, List.append_nil]

theorem Unended.map_flatten_operands {u : Text} (hu : Unended u) :
    (operands [u]).map List.flatten = [u] := by
  obtain ⟨c, t, rfl, hc⟩ := hu.exists_cons
  have hblank : isBlankPiece (c :: t) = false := by
    rcases t with _ | ⟨d, t⟩
    · rcases hc with hq | rfl
      · exact isBlank_eq_false_of_isQuote hq
      · rfl
    · rfl
  have hsign : c :: t ≠ sign := by
    intro heq
    obtain ⟨rfl, -⟩ := List.cons.inj heq
    exact absurd hc (by decide)
  rw [map_flatten_operands_cons, placed, hblank, if_neg (by decide), if_neg hsign]
  simp [operands, dense]

/-- The scan of a text in pieces: its tokens are the operands. -/
theorem Divided.scanFrom_eq {r : Text} {pieces : List Text} {closed : Bool}
    (h : Divided r pieces closed) (p : Option Char) :
    scanFrom (inside 0 p) r =
      ⟨(operands pieces).map List.flatten, closed, pieces.flatten.length + 1⟩ := by
  induction h with
  | closed => exact scanFrom_inside_close p _
  | finished =>
      rw [scanFrom, isComplete_inside]
      rfl
  | unended hu =>
      rw [hu.scanFrom_eq, hu.map_flatten_operands]
      simp
  | cons hi _ ih =>
      rw [hi.scanFrom_append, ih, map_flatten_operands_cons, List.flatten_cons,
        List.length_append, Nat.add_assoc]

theorem Divided.scan_eq {r : Text} {pieces : List Text} {closed : Bool}
    (h : Divided r pieces closed) :
    scan ('(' :: r) =
      ⟨(operands pieces).map List.flatten, closed, pieces.flatten.length + 2⟩ := by
  have hopen : scan ('(' :: r) = (scanFrom (inside 0 (some '(')) r).after .skip '(' := rfl
  rw [hopen, h.scanFrom_eq]
  rfl

/-! ### Blanks and signs -/

/-- Joining the operands again gives the pieces back. -/
theorem joinWith_operands (pieces : List Text) :
    Text.joinWith sign ((operands pieces).map List.flatten) = (dense pieces).flatten := by
  have hjoin : ∀ rows : List (List Text),
      Text.joinWith sign (rows.map List.flatten) = ([sign].intercalate rows).flatten := by
    intro rows
    induction rows with
    | nil => rfl
    | cons row rows ih =>
        rcases rows with _ | ⟨row', rows⟩
        · simp [Text.joinWith]
        · rw [List.intercalate_cons_cons, List.flatten_append, List.flatten_append, ← ih]
          simp [Text.joinWith]
  rw [hjoin, operands, List.intercalate_splitOn]

theorem length_splitOn {α : Type} [BEq α] [LawfulBEq α] (a : α) (l : List α) :
    (l.splitOn a).length = l.count a + 1 := by
  induction l with
  | nil => simp
  | cons b l ih =>
      rw [List.splitOn_cons_eq_if_modifyHead, List.count_cons]
      by_cases h : b == a
      · rw [if_pos h, if_pos h, List.length_cons, ih]
      · rw [if_neg h, if_neg h, List.length_modifyHead, ih, Nat.add_zero]

theorem mem_of_mem_splitOn {α : Type} [BEq α] {a x : α} {l row : List α}
    (hrow : row ∈ l.splitOn a) (hx : x ∈ row) : x ∈ l := by
  induction l generalizing row with
  | nil =>
      rw [List.splitOn_nil, List.mem_singleton] at hrow
      rwa [hrow] at hx
  | cons b l ih =>
      rw [List.splitOn_cons_eq_if_modifyHead] at hrow
      split at hrow
      · rcases List.mem_cons.mp hrow with rfl | hrow
        · cases hx
        · exact List.mem_cons_of_mem b (ih hrow hx)
      · obtain ⟨first, others, hrows⟩ := List.exists_cons_of_ne_nil (List.splitOn_ne_nil a l)
        rw [hrows, List.modifyHead_cons, List.mem_cons] at hrow
        rw [hrows] at ih
        rcases hrow with rfl | hrow
        · rcases List.mem_cons.mp hx with rfl | hx
          · exact List.mem_cons_self
          · exact List.mem_cons_of_mem b (ih List.mem_cons_self hx)
        · exact List.mem_cons_of_mem b (ih (List.mem_cons_of_mem first hrow) hx)

/-- The pieces of an operand are pieces. -/
theorem mem_of_mem_operands {pieces operand : List Text} {i : Text} (ho : operand ∈ operands pieces)
    (hi : i ∈ operand) : i ∈ pieces :=
  (List.mem_filter.mp (mem_of_mem_splitOn ho hi)).1

/-- There is one operand more than there are signs. -/
theorem length_operands (pieces : List Text) :
    (operands pieces).length = pieces.count sign + 1 := by
  rw [operands, length_splitOn, dense, List.count_filter rfl]

/-- Outside of its literals and its nested parentheses a text holds no sign. -/
def SignFree (t : Text) : Prop := ∀ a b, t = a ++ '+' :: b → ¬ Body a

theorem signFree_nil : SignFree [] := by
  intro a b h
  simp at h

theorem Item.signFree_append {i t : Text} (hi : Item i) (hne : i ≠ sign) (ht : SignFree t) :
    SignFree (i ++ t) := by
  rintro a b h (_ | ⟨hj, ha⟩)
  · -- the sign would be the item
    have hsign : Item sign := .char (by decide) (by decide) (by decide)
    exact hne (hi.eq_of_append hsign (y := b) h).1
  · rw [List.append_assoc] at h
    obtain ⟨-, rfl⟩ := hi.eq_of_append hj h
    exact ht _ b rfl ha

theorem Unended.signFree {u : Text} (hu : Unended u) : SignFree u := by
  rintro a b h (_ | ⟨hj, -⟩)
  · obtain ⟨c, t, rfl, hc⟩ := hu.exists_cons
    obtain ⟨rfl, -⟩ := List.cons.inj h
    exact absurd hc (by decide)
  · rw [List.append_assoc] at h
    exact hu.ne_append hj _ h

/-- No operand holds a sign outside of its literals and nested parentheses. -/
theorem Divided.signFree_of_mem {r : Text} {pieces : List Text} {closed : Bool}
    (h : Divided r pieces closed) :
    ∀ token ∈ (operands pieces).map List.flatten, SignFree token := by
  induction h with
  | closed => simpa [operands, dense] using signFree_nil
  | finished => simpa [operands, dense] using signFree_nil
  | unended hu => simpa [hu.map_flatten_operands] using hu.signFree
  | cons hi _ ih =>
      rw [map_flatten_operands_cons]
      exact forall_mem_placed signFree_nil (fun _ hne t ht => hi.signFree_append hne ht) ih

/-! ### The tokens and their text -/

/-- **Tokens lose nothing but blanks.**  What follows a first parenthesis falls
into pieces in one way, up to the parenthesis that closes it or to the end of the
text.  Joined by signs, the tokens are these pieces without the blanks among them.  There
is one token more than there are signs among the pieces, no token holds a sign
outside of its literals and nested parentheses, and the atoms are those of the
tokens, in order. -/
theorem tokens_lose_blanks_only (r : Text) :
    ∃ pieces, Divided r pieces (scan ('(' :: r)).valid ∧
      (∀ other closed, Divided r other closed → other = pieces) ∧
      (if (scan ('(' :: r)).valid then ∃ s, r = pieces.flatten ++ ')' :: s
        else r = pieces.flatten) ∧
      (scan ('(' :: r)).length = pieces.flatten.length + 2 ∧
      Text.joinWith ['+'] (scan ('(' :: r)).tokens =
        (pieces.filter fun i => !isBlankPiece i).flatten ∧
      (scan ('(' :: r)).tokens.length = pieces.count ['+'] + 1 ∧
      (∀ token ∈ (scan ('(' :: r)).tokens, SignFree token) ∧
      (read ('(' :: r)).result = ((scan ('(' :: r)).tokens.mapM Atom.ofToken).map
        fun atoms => ⟨atoms, (scan ('(' :: r)).valid, (scan ('(' :: r)).length⟩ := by
  obtain ⟨pieces, closed, h⟩ := exists_divided r
  have hscan := h.scan_eq
  have htokens : (scan ('(' :: r)).tokens = (operands pieces).map List.flatten := by rw [hscan]
  have hvalid : (scan ('(' :: r)).valid = closed := by rw [hscan]
  refine ⟨pieces, ?_, fun other closed' h' => (h.unique h').1, ?_, ?_, ?_, ?_, ?_, result_read _⟩
  · rw [hvalid]
    exact h
  · rw [hvalid]
    exact h.text_eq
  · rw [hscan]
  · rw [htokens]
    exact joinWith_operands pieces
  · rw [htokens, List.length_map]
    exact length_operands pieces
  · rw [htokens]
    exact h.signFree_of_mem

-- blanks and signs count outside of literals and of nested parentheses only
example : scan "(\"a + b\" + f(x + 1) )".toList =
    ⟨["\"a + b\"".toList, "f(x + 1)".toList], true, 21⟩ := by rfl

end LogCalls.Argument
