/-
LogCalls/Proofs/Argument/Printing.lean

Reading undoes printing.  A concatenation is printed with its operands joined
by `+`, with any blanks around them, between parentheses; reading it back gives
the atoms of its operands in order, whatever follows (`read_printed`).

An operand carries the proofs that it is one: a literal has no end inside, an
integer can be read, and the source of any other expression is undivided, with
all that could end a token inside of its own parentheses.  From this a scan
keeps the whole source of an operand as one token (`Operand.passes`,
`scanFrom_summed`), and the token is classified as what was printed
(`ofToken_source`).
-/
import LogCalls.Proofs.Argument.Layout

namespace LogCalls.Argument

open State

/-! ### Printed concatenations -/

/-- Source text of which no part outside of its own parentheses could end a
token, open a literal or be left out. -/
inductive Undivided : Text → Prop
  | nil : Undivided []
  | char {c : Char} {r : Text} : IsPlain c → Undivided r → Undivided (c :: r)
  | nested {n r : Text} : Balanced n → Undivided r → Undivided ('(' :: n ++ ')' :: r)

/-- An operand as it is printed. -/
inductive Operand where
  | literal (quote : Char) (text : Text) (isQuote : Atom.isQuote quote = true)
      (enclosed : Enclosed quote text)
  | integer (digits : Text) (ne_nil : digits ≠ []) (ascii : ∀ c ∈ digits, c.isDigit = true)
      (length_le : digits.length ≤ Fault.digitLimit)
  | expression (text : Text) (undivided : Undivided text)
      (not_digit : ∀ c ∈ text.head?, Text.isDigit c = false)

namespace Operand

/-- The source text of an operand. -/
def source : Operand → Text
  | .literal q t _ _ => q :: t ++ [q]
  | .integer digits _ _ _ => digits
  | .expression t _ _ => t

/-- What an operand is read as. -/
def atom : Operand → Atom
  | .literal _ t _ _ => .literal t
  | .integer digits _ _ _ => .numeral (.whole (Nat.ofDigitChars 10 digits 0))
  | .expression t _ _ => .expression t

end Operand

/-- An operand with the blanks around it. -/
structure Spaced where
  before : Text
  operand : Operand
  after : Text
  before_blank : ∀ c ∈ before, Text.isBlank c = true
  after_blank : ∀ c ∈ after, Text.isBlank c = true

/-- The text of an operand and its blanks. -/
def Spaced.text (o : Spaced) : Text := o.before ++ o.operand.source ++ o.after

/-- The text between the parentheses of a concatenation. -/
def summed (operands : List Spaced) : Text := Text.joinWith ['+'] (operands.map Spaced.text)

/-- The text of a concatenation. -/
def printed (operands : List Spaced) : Text := '(' :: summed operands ++ [')']

/-! ### What the scan makes of them -/

/-- An undivided text is a row of kept items without literals. -/
theorem Undivided.kept {t : Text} (h : Undivided t) : Kept t := by
  induction h with
  | nil => exact .nil
  | char hc _ ih => exact .char hc ih
  | @nested n r hn _ ih =>
      rw [List.append_cons]
      exact .nested hn ih

theorem isPlain_of_isDigit {c : Char} (h : c.isDigit = true) : IsPlain c := by
  have hlow : 48 ≤ c.toNat ∧ c.toNat ≤ 57 := Char.isDigit_iff_toNat.mp h
  have hne : ∀ d : Char, (d.toNat < 48 ∨ 57 < d.toNat) → c ≠ d := by
    rintro d hd rfl
    omega
  refine ⟨hne _ (by decide), hne _ (by decide), ?_, ?_, hne _ (by decide)⟩
  · simp [Atom.isQuote, hne '"' (by decide), hne '\'' (by decide)]
  · simp only [Text.isBlank, Bool.or_eq_false_iff, Bool.and_eq_false_iff, decide_eq_false_iff_not,
      beq_eq_false_iff_ne]
    omega

/-- An operand is kept as a whole. -/
theorem Operand.passes (o : Operand) (p : Option Char) :
    ∃ p', Passes (· = .keep) (inside 0 p) o.source (inside 0 p') := by
  cases o with
  | literal q t hq ht => exact ⟨_, ht.passes hq p⟩
  | integer digits _ hascii _ =>
      exact passes_plain (fun c hc => isPlain_of_isDigit (hascii c hc)) p
  | expression t ht _ => exact ht.kept.passes p

/-- The scan of an operand and its blanks, where what follows starts no new
token: the source of the operand is the first token. -/
theorem scanFrom_spaced (o : Spaced) {r : Text} {tokens : List Text} {valid : Bool} {length : Nat}
    (hr : ∀ p, scanFrom (inside 0 p) r = ⟨[] :: tokens, valid, length⟩) (p : Option Char) :
    scanFrom (inside 0 p) (o.text ++ r)
      = ⟨o.operand.source :: tokens, valid, o.text.length + length⟩ := by
  obtain ⟨p', hp⟩ := o.operand.passes p
  rw [Spaced.text, List.append_assoc, List.append_assoc,
    scanFrom_blanks (isBetween_inside p) o.before_blank, scanFrom_append_of_keep hp,
    scanFrom_blanks (isBetween_inside p') o.after_blank, hr]
  simp [Nat.add_assoc]

/-- The tokens of a printed concatenation are the sources of its operands. -/
theorem scanFrom_summed {operands : List Spaced} (hne : operands ≠ []) (s : Text)
    (p : Option Char) :
    scanFrom (inside 0 p) (summed operands ++ ')' :: s)
      = ⟨operands.map (·.operand.source), true, (summed operands).length + 1⟩ := by
  induction operands generalizing p with
  | nil => exact absurd rfl hne
  | cons o rest ih =>
      cases rest with
      | nil =>
          exact scanFrom_spaced o (fun p' => scanFrom_inside_close p' s) p
      | cons o' rest =>
          have hsplit : summed (o :: o' :: rest) = o.text ++ '+' :: summed (o' :: rest) := by
            simp [summed, Text.joinWith]
          have hplus : ∀ p', scanFrom (inside 0 p') ('+' :: summed (o' :: rest) ++ ')' :: s)
              = ⟨[] :: (o' :: rest).map (·.operand.source), true,
                  (summed (o' :: rest)).length + 1 + 1⟩ := by
            intro p'
            have hn : (inside 0 p').next '+' = inside 0 (some '+') := rfl
            rw [List.cons_append, scanFrom, hn, isClosed_inside, ih (by simp) (some '+')]
            rfl
          rw [hsplit, List.append_assoc, scanFrom_spaced o hplus p]
          simp
          omega

/-! ### How the sources are classified -/

theorem isDigit_of_ascii {c : Char} (h : c.isDigit = true) : Text.isDigit c = true := by
  have hlow : c.toNat ≤ 57 := (Char.isDigit_iff_toNat.mp h).2
  rw [Text.isDigit, Text.digitValue?_of_isDigit (by omega) h]
  rfl

theorem isDigit_of_mem_numeral {n : Nat} {c : Char} (h : c ∈ Text.numeral n) : c.isDigit = true :=
  Nat.isDigit_of_mem_toDigits (by decide) (by decide) h

/-- The number of a word of digits is read in the usual way. -/
theorem digitsValue_eq_ofDigitChars {digits : Text} (h : ∀ c ∈ digits, c.isDigit = true) :
    Text.digitsValue digits = Nat.ofDigitChars 10 digits 0 := by
  have hfrom : ∀ v, digits.foldl (fun v c => 10 * v + (Text.digitValue? c).getD 0) v
      = Nat.ofDigitChars 10 digits v := by
    induction digits with
    | nil =>
        intro v
        rw [Nat.ofDigitChars_nil, List.foldl_nil]
    | cons c r ih =>
        intro v
        rw [List.forall_mem_cons] at h
        have hlow : c.toNat ≤ 57 := (Char.isDigit_iff_toNat.mp h.1).2
        rw [List.foldl_cons, ih h.2, Nat.ofDigitChars_cons,
          Text.digitValue?_of_isDigit (by omega) h.1]
        rfl
  exact hfrom 0

theorem hexDigits?_of_digits {digits : Text} (h : ∀ c ∈ digits, c.isDigit = true)
    (htrim : Text.trimStart digits = digits) : Number.hexDigits? digits = none := by
  rw [Number.hexDigits?, htrim]
  split
  · next x r =>
      have hx : x.isDigit = true := h x (by simp)
      have hne : ¬ (x = 'x' ∨ x = 'X') := by
        rintro (rfl | rfl) <;> exact absurd hx (by decide)
      simp [hne]
  · rfl

theorem hasRealMark_of_digits {digits : Text} (h : ∀ c ∈ digits, c.isDigit = true) :
    Number.hasRealMark digits = false := by
  rw [Number.hasRealMark, List.any_eq_false]
  intro c hc
  have hd := h c hc
  have hne : ∀ d : Char, d.isDigit = false → c ≠ d := by
    rintro d hdd rfl
    rw [hd] at hdd
    cases hdd
  simp [hne '\\' rfl, hne '.' rfl, hne 'e' rfl, hne 'E' rfl]

/-- A word of digits that can be read is a numeral. -/
theorem ofToken_digits {digits : Text} (hne : digits ≠ [])
    (hascii : ∀ c ∈ digits, c.isDigit = true) (hle : digits.length ≤ Fault.digitLimit) :
    Atom.ofToken digits = .ok (.numeral (.whole (Nat.ofDigitChars 10 digits 0))) := by
  rcases digits with _ | ⟨c, r⟩
  · exact absurd rfl hne
  have hc : c.isDigit = true := hascii c List.mem_cons_self
  have hplain := isPlain_of_isDigit hc
  have htrim : Text.trimStart (c :: r) = c :: r := by
    rw [Text.trimStart, List.dropWhile_cons_of_neg (by simp [hplain.2.2.2.1])]
  have hall : (c :: r).takeWhile Text.isDigit = c :: r := by
    rw [← List.append_nil (c :: r), List.takeWhile_append_of_pos, List.takeWhile_nil]
    exact fun d hd => isDigit_of_ascii (hascii d hd)
  have hread := Atom.read_of_isDigit htrim (isDigit_of_ascii hc)
    (hexDigits?_of_digits hascii htrim) (hasRealMark_of_digits hascii)
  rw [hall, Number.readDigits, if_neg (by omega), digitsValue_eq_ofDigitChars hascii] at hread
  rw [Atom.ofToken_of_isDigit htrim (isDigit_of_ascii hc), hread]
  rfl

theorem ofToken_literal {q : Char} {t : Text} (hq : Atom.isQuote q = true) :
    Atom.ofToken (q :: t ++ [q]) = .ok (.literal t) := by
  have hb : Text.isBlank q = false := isBlank_eq_false_of_isQuote hq
  have htrim : Text.trimStart (q :: t ++ [q]) = q :: (t ++ [q]) := by
    rw [List.cons_append, Text.trimStart, List.dropWhile_cons_of_neg (by simp [hb])]
  simp only [Atom.ofToken, htrim, hq, if_true]
  simp [Atom.unquoted]

/-- An undivided text starts with no quote. -/
theorem Undivided.isQuote_of_mem_head? {t : Text} (h : Undivided t) {c : Char}
    (hc : c ∈ t.head?) : Atom.isQuote c = false := by
  cases h with
  | nil => cases hc
  | char hp _ =>
      obtain rfl : _ = c := Option.some.inj hc
      exact hp.2.2.1
  | nested _ _ =>
      obtain rfl : '(' = c := Option.some.inj hc
      decide

/-- A text without blanks at its ends is not trimmed. -/
theorem trim_eq_self {t : Text} (hhead : ∀ c ∈ t.head?, Text.isBlank c = false)
    (hlast : ∀ c ∈ t.getLast?, Text.isBlank c = false) :
    Text.trimStart t = t ∧ Text.trim t = t := by
  have hdrop : ∀ u : Text, (∀ c ∈ u.head?, Text.isBlank c = false) →
      u.dropWhile Text.isBlank = u := by
    rintro (_ | ⟨c, r⟩) hu
    · rfl
    · exact List.dropWhile_cons_of_neg (by simp [hu c rfl])
  have hstart : Text.trimStart t = t := hdrop t hhead
  refine ⟨hstart, ?_⟩
  rw [Text.trim, hstart, Text.trimEnd, hdrop t.reverse (by rwa [List.head?_reverse]),
    List.reverse_reverse]

theorem Kept.trim_eq_self {t : Text} (h : Kept t) : Text.trimStart t = t ∧ Text.trim t = t :=
  Argument.trim_eq_self (fun _ hc => h.isBlank_of_mem_head? hc)
    fun _ hc => h.isBlank_of_mem_getLast? hc

theorem ofToken_expression {t : Text} (h : Undivided t)
    (hd : ∀ c ∈ t.head?, Text.isDigit c = false) : Atom.ofToken t = .ok (.expression t) := by
  obtain ⟨hstart, htrim⟩ := h.kept.trim_eq_self
  rw [Atom.ofToken, hstart, htrim]
  rcases t with _ | ⟨c, r⟩
  · rfl
  · have hq := h.isQuote_of_mem_head? (c := c) rfl
    simp [hq, hd c rfl]

/-- The source of an operand is classified as what was printed. -/
theorem ofToken_source (o : Operand) : Atom.ofToken o.source = .ok o.atom := by
  cases o with
  | literal q t hq _ => exact ofToken_literal hq
  | integer digits hne hascii hle => exact ofToken_digits hne hascii hle
  | expression t ht hd => exact ofToken_expression ht hd

/-! ### The round trip -/

/-- **Reading undoes printing.**  A printed concatenation is read as a complete
argument of its own length, and its atoms are those of the operands, in order,
whatever the blanks around the operands and whatever follows. -/
theorem read_printed {operands : List Spaced} (hne : operands ≠ []) (s : Text) :
    (read (printed operands ++ s)).result
      = .ok ⟨operands.map (·.operand.atom), true, (printed operands).length⟩ := by
  have hscan : scan (printed operands ++ s)
      = ⟨operands.map (·.operand.source), true, (printed operands).length⟩ := by
    have hopen : scan (printed operands ++ s)
        = (scanFrom (inside 0 (some '(')) (summed operands ++ ')' :: s)).after .skip '(' := by
      rw [printed, List.append_assoc]
      rfl
    rw [hopen, scanFrom_summed hne s]
    simp [Scan.after, printed]
  rw [result_read, hscan, mapM_map_eq_ok fun o _ => ofToken_source o.operand]
  rfl

/-- A text without parentheses is balanced. -/
theorem balanced_of_not_mem {n : Text} (ho : '(' ∉ n) (hc : ')' ∉ n) : Balanced n := by
  induction n with
  | nil => exact .nil
  | cons c r ih =>
      rw [List.mem_cons, not_or] at ho hc
      exact .char (Ne.symm ho.1) (Ne.symm hc.1) (ih ho.2 hc.2)

/-- A literal that holds an escaped quote, a sign and a parenthesis. -/
def quotedOperand : Operand :=
  .literal '"' ['a', '+', '\\', '"', ')'] rfl ((enclosed_iff (by decide)).mpr rfl)

/-- A number with a leading zero. -/
def numberOperand : Operand :=
  .integer ['0', '4', '2'] (by decide) (List.all_eq_true.mp rfl) (by decide)

/-- A call with blanks, a sign and quotes inside of its parentheses. -/
def callOperand : Operand :=
  .expression ('f' :: '(' :: ['x', ' ', '+', '"'] ++ [')'])
    (.char ⟨by decide, by decide, by decide, by decide, by decide⟩
      (.nested (balanced_of_not_mem (by decide) (by decide)) .nil))
    (by rintro _ ⟨⟩; decide)

/-- The text `("a+\")" \n+042+ f(x +") )` and what follows it. -/
theorem read_printed_three :
    (read "(\"a+\\\")\" \n+042+ f(x +\") );\n".toList).result
      = .ok ⟨[.literal ['a', '+', '\\', '"', ')'], .numeral (.whole 42),
          .expression ['f', '(', 'x', ' ', '+', '"', ')']], true, 25⟩ := by
  have hnone : ∀ c ∈ ([] : Text), Text.isBlank c = true := List.forall_mem_nil _
  have hone : ∀ c ∈ [' '], Text.isBlank c = true := List.all_eq_true.mp rfl
  have htwo : ∀ c ∈ [' ', '\n'], Text.isBlank c = true := List.all_eq_true.mp rfl
  have hne : [Spaced.mk [] quotedOperand [' ', '\n'] hnone htwo,
      Spaced.mk [] numberOperand [] hnone hnone,
      Spaced.mk [' '] callOperand [' '] hone hone] ≠ [] := by simp
  exact read_printed hne [';', '\n']

end LogCalls.Argument
