/-
LogCalls/Proofs/Message/Filling.lean

What a message says.  Between the arguments of a concatenation stand rows of
adjacent literals; the message is the texts of these rows with a placeholder
between each two (`text_eq_joinWith_rows`).

A placeholder shares no character with an occurrence of it that starts before,
so none arises and none is lost where a row meets a placeholder
(`occurrences_append_placeholder`).  Hence a message has the placeholders of its
arguments and those that its rows hold; and where the rows hold none, filling
the message from left to right gives back the whole concatenation.

Main result: `message_says_concatenation`.
-/
import Mathlib.Algebra.Ring.Nat
import LogCalls.Message
import LogCalls.Proofs.Outcome
import LogCalls.Proofs.Text.Occurrences

namespace LogCalls.Message

open Text

/-! ### Filling a message -/

/-- A message with its placeholders replaced by arguments, in one pass from left
to right; what has been put in is not looked at again.  There is none where a
placeholder or an argument is left over. -/
def filled? : (message : Text) → (args : List Text) → Option Text
  | t, [] => if (breakAt? placeholder t).isNone then some t else none
  | t, a :: args =>
    match breakAt? placeholder t with
    | some (before, behind) => (filled? behind args).map (before ++ a ++ ·)
    | none => none

/-- Texts with arguments between them. -/
def woven : (texts args : List Text) → Text
  | t :: texts, a :: args => t ++ a ++ woven texts args
  | t :: _, [] => t
  | [], _ => []

/-! ### Placeholders and what stands around them -/

theorem placeholder_ne_nil : placeholder ≠ [] := by decide

/-- Before a placeholder the first occurrence is the one that was there without
it, or the placeholder itself. -/
theorem breakAt?_append_placeholder {u : Text} (h : breakAt? placeholder u = none) (v : Text) :
    breakAt? placeholder (u ++ placeholder ++ v) = some (u, v) := by
  induction u with
  | nil => rfl
  | cons c r ih =>
      rw [breakAt?] at h
      split at h
      · cases h
      · next hfirst =>
          rw [Option.map_eq_none_iff] at h
          -- a placeholder that starts with the last character of `u` would go on with a brace
          -- that opens
          have hlong : ¬ placeholder.isPrefixOf (c :: (r ++ placeholder ++ v)) = true := by
            rcases r with _ | ⟨d, r⟩
            · simp [placeholder, List.isPrefixOf]
            · simpa [placeholder, List.isPrefixOf] using hfirst
          rw [List.cons_append, List.cons_append, breakAt?, if_neg hlong, ih h, Option.map_some]

/-- A placeholder counts once, and the counts before and behind it are their
own. -/
theorem occurrences_append_placeholder (u v : Text) :
    occurrences placeholder (u ++ placeholder ++ v) =
      occurrences placeholder u + 1 + occurrences placeholder v := by
  induction hlen : u.length using Nat.strongRecOn generalizing u with
  | ind len ih =>
    subst hlen
    rcases hu : breakAt? placeholder u with _ | ⟨before, behind⟩
    · rw [occurrences_of_breakAt?_eq_some placeholder_ne_nil (breakAt?_append_placeholder hu v),
        occurrences_of_breakAt?_eq_none placeholder_ne_nil hu]
      omega
    · have hlong := breakAt?_append placeholder_ne_nil hu (placeholder ++ v)
      have hshort : behind.length < u.length := by
        have hle := length_le_of_breakAt?_eq_some hu
        have hpos : 0 < placeholder.length := by decide
        omega
      rw [← List.append_assoc, ← List.append_assoc] at hlong
      rw [occurrences_of_breakAt?_eq_some placeholder_ne_nil hlong,
        occurrences_of_breakAt?_eq_some placeholder_ne_nil hu, ih _ hshort behind rfl]
      omega

/-- Texts with placeholders between them hold these placeholders and their own. -/
theorem occurrences_joinWith {texts : List Text} (hne : texts ≠ []) :
    occurrences placeholder (joinWith placeholder texts) + 1 =
      texts.length + (texts.map (occurrences placeholder)).sum := by
  induction texts with
  | nil => exact absurd rfl hne
  | cons t texts ih =>
      cases texts with
      | nil =>
          simp [joinWith]
          omega
      | cons u texts =>
          have hrest := ih (by simp)
          rw [joinWith, occurrences_append_placeholder, List.length_cons, List.map_cons,
            List.sum_cons]
          omega

/-- Texts without placeholders, with placeholders between them, are filled with
as many arguments as stand between them. -/
theorem filled?_joinWith {texts args : List Text} (hlen : texts.length = args.length + 1)
    (hfree : ∀ t ∈ texts, occurrences placeholder t = 0) :
    filled? (joinWith placeholder texts) args = some (woven texts args) := by
  induction args generalizing texts with
  | nil =>
      obtain ⟨t, rfl⟩ := List.length_eq_one_iff.mp hlen
      have ht := (occurrences_eq_zero_iff placeholder_ne_nil).mp (hfree t List.mem_cons_self)
      simp [filled?, joinWith, woven, ht]
  | cons a args ih =>
      rcases texts with _ | ⟨t, _ | ⟨u, texts⟩⟩
      · cases hlen
      · cases hlen
      · obtain ⟨ht, hrest⟩ := List.forall_mem_cons.mp hfree
        have hbreak := breakAt?_append_placeholder
          ((occurrences_eq_zero_iff placeholder_ne_nil).mp ht) (joinWith placeholder (u :: texts))
        rw [joinWith, filled?, hbreak]
        dsimp only
        rw [ih (Nat.succ.inj hlen) hrest, Option.map_some, woven]

/-! ### Rows of literals -/

/-- The texts of the rows of adjacent literals before, between and behind the
other atoms, where each atom stands with its rendering.  A row may be empty. -/
def rows (atoms : List (Atom × Text)) : List Text :=
  (atoms.splitOnP fun a => !a.1.isLiteral).map fun row => row.flatMap Prod.snd

variable {a : Atom × Text} {atoms : List (Atom × Text)}

theorem rows_ne_nil (atoms : List (Atom × Text)) : rows atoms ≠ [] := by
  rw [rows, ne_eq, List.map_eq_nil_iff]
  exact List.splitOnP_ne_nil _ _

theorem rows_cons_literal (ha : a.1.isLiteral = true) (atoms : List (Atom × Text)) :
    ∃ row rest, rows atoms = row :: rest ∧ rows (a :: atoms) = (a.2 ++ row) :: rest := by
  obtain ⟨row, rest, h⟩ := List.exists_cons_of_ne_nil
    (List.splitOnP_ne_nil (fun a : Atom × Text => !a.1.isLiteral) atoms)
  refine ⟨row.flatMap Prod.snd, rest.map fun row => row.flatMap Prod.snd, ?_, ?_⟩
  · rw [rows, h, List.map_cons]
  · rw [rows, List.splitOnP_cons_eq_if_modifyHead, ha, h]
    rfl

theorem rows_cons_argument (ha : a.1.isLiteral = false) : rows (a :: atoms) = [] :: rows atoms := by
  rw [rows, List.splitOnP_cons_eq_if_modifyHead, ha]
  rfl

/-- What an atom leaves in the message, given its rendering. -/
def said (a : Atom × Text) : Text := if a.1.isLiteral then a.2 else placeholder

/-- The renderings of the atoms that are no literals. -/
def given (atoms : List (Atom × Text)) : List Text :=
  (atoms.filter fun a => !a.1.isLiteral).map Prod.snd

/-- The message is the rows with placeholders between them. -/
theorem flatMap_said (atoms : List (Atom × Text)) :
    atoms.flatMap said = joinWith placeholder (rows atoms) := by
  induction atoms with
  | nil => rfl
  | cons a atoms ih =>
      rw [List.flatMap_cons, ih, said]
      by_cases ha : a.1.isLiteral = true
      · obtain ⟨row, rest, hrows, hcons⟩ := rows_cons_literal ha atoms
        rw [hrows, hcons, if_pos ha]
        cases rest <;> simp [joinWith]
      · obtain ⟨row, rest, hrows⟩ := List.exists_cons_of_ne_nil (rows_ne_nil atoms)
        rw [rows_cons_argument (by simpa using ha), if_neg ha, hrows, joinWith, List.nil_append]

theorem length_rows (atoms : List (Atom × Text)) :
    (rows atoms).length = (given atoms).length + 1 := by
  induction atoms with
  | nil => rfl
  | cons a atoms ih =>
      by_cases ha : a.1.isLiteral = true
      · obtain ⟨row, rest, hrows, hcons⟩ := rows_cons_literal ha atoms
        rw [hrows, List.length_cons] at ih
        simp [hcons, given, ha, ih]
      · have ha : a.1.isLiteral = false := by simpa using ha
        rw [rows_cons_argument ha, List.length_cons, ih]
        simp [given, ha]

/-- The rows with the other atoms between them are the whole concatenation. -/
theorem woven_rows (atoms : List (Atom × Text)) :
    woven (rows atoms) (given atoms) = atoms.flatMap Prod.snd := by
  induction atoms with
  | nil => rfl
  | cons a atoms ih =>
      rw [List.flatMap_cons, ← ih]
      by_cases ha : a.1.isLiteral = true
      · obtain ⟨row, rest, hrows, hcons⟩ := rows_cons_literal ha atoms
        have hgiven : given (a :: atoms) = given atoms := by simp [given, ha]
        rw [hrows, hcons, hgiven]
        cases given atoms <;> simp [woven]
      · have ha : a.1.isLiteral = false := by simpa using ha
        have hgiven : given (a :: atoms) = a.2 :: given atoms := by simp [given, ha]
        rw [rows_cons_argument ha, hgiven, woven, List.nil_append]

/-! ### Messages and their arguments -/

theorem part_eq_ok_said (ha : a.1.render = .ok a.2) : part a.1 = .ok (said a) := by
  by_cases h : a.1.isLiteral = true
  · simp [part, said, h, ha]
  · simp [part, said, h]

section

variable (hatoms : ∀ a ∈ atoms, a.1.render = .ok a.2)
include hatoms

/-- The message of a concatenation is its rows with placeholders between them. -/
theorem text_eq_joinWith_rows :
    text (atoms.map Prod.fst) = .ok (joinWith placeholder (rows atoms)) := by
  have hparts : (atoms.map Prod.fst).mapM part = .ok (atoms.map said) :=
    mapM_map_eq_ok fun a ha => part_eq_ok_said (hatoms a ha)
  rw [text, hparts, ok_bind, ← flatMap_said, List.flatMap_def]
  rfl

theorem mapM_render_filter :
    ((atoms.map Prod.fst).filter fun a => !a.isLiteral).mapM Atom.render = .ok (given atoms) := by
  rw [List.filter_map, given]
  exact mapM_map_eq_ok fun a ha => hatoms a ((List.mem_filter.mp ha).1)

end

theorem joinWith_cons (separator t : Text) (texts : List Text) :
    joinWith separator (t :: texts) = t ++ texts.flatMap fun u => separator ++ u := by
  induction texts generalizing t with
  | nil => simp [joinWith]
  | cons u texts ih =>
      rw [joinWith, ih u, List.flatMap_cons]
      simp

/-- **A message says what its concatenation says.**  Where all atoms can be
written, the message has a placeholder for each atom that is no literal and
those that its rows of literals hold.  Where the rows hold none, filling the
message with the other atoms, in order, takes each of them once and gives the
whole concatenation.  The replacement is the quoted message and these atoms. -/
theorem message_says_concatenation {atoms : List Atom} {texts : List Text}
    (h : atoms.mapM Atom.render = .ok texts) :
    ∃ message args, text atoms = .ok message ∧
      (atoms.filter fun a => !a.isLiteral).mapM Atom.render = .ok args ∧
      occurrences placeholder message = atoms.countP (fun a => !a.isLiteral) +
        ((rows (atoms.zip texts)).map (occurrences placeholder)).sum ∧
      ((∀ row ∈ rows (atoms.zip texts), occurrences placeholder row = 0) →
        filled? message args = some texts.flatten) ∧
      replacement atoms =
        .ok ('"' :: message ++ '"' :: args.flatMap fun arg => ',' :: ' ' :: arg) := by
  obtain ⟨hlen, hrender⟩ := zip_of_mapM_eq_ok h
  have hatoms : (atoms.zip texts).map Prod.fst = atoms := List.map_fst_zip (Nat.le_of_eq hlen)
  have htexts : (atoms.zip texts).map Prod.snd = texts := List.map_snd_zip (Nat.le_of_eq hlen.symm)
  have htext := text_eq_joinWith_rows hrender
  have hargs := mapM_render_filter hrender
  rw [hatoms] at htext hargs
  refine ⟨_, given (atoms.zip texts), htext, hargs, ?_, ?_, ?_⟩
  · have hcount : (given (atoms.zip texts)).length = atoms.countP fun a => !a.isLiteral := by
      rw [← hatoms, List.countP_map, given, List.length_map, ← List.countP_eq_length_filter, hatoms]
      rfl
    have hjoin := occurrences_joinWith (rows_ne_nil (atoms.zip texts))
    rw [length_rows, hcount] at hjoin
    omega
  · intro hfree
    rw [filled?_joinWith (length_rows _) hfree, woven_rows, List.flatMap_def, htexts]
  · rw [replacement, htext, ok_bind, arguments, hargs, ok_bind, joinWith_cons]
    simp [separator]

/-- Literals with braces on both sides of a variable, and a number. -/
def braces : List Atom :=
  [.literal ['{'], .expression ['x'], .literal ['}'], .literal ['=', '{'], .numeral (.whole 42)]

theorem message_says_concatenation_braces :
    ∃ texts message args, braces.mapM Atom.render = .ok texts ∧ text braces = .ok message ∧
      message = "\x7b\x7b\x7d\x7d=\x7b\x7b\x7d".toList ∧ occurrences placeholder message = 2 ∧
      filled? message args = some "\x7bx\x7d=\x7b42".toList ∧
      replacement braces = .ok "\"\x7b\x7b\x7d\x7d=\x7b\x7b\x7d\", x, 42".toList := by
  have hnumber : Number.writeWhole 42 = .ok ['4', '2'] := by
    rw [Number.writeWhole, if_pos (by decide +kernel)]
    rfl
  have hrender : braces.mapM Atom.render =
      .ok [['{'], ['x'], ['}'], ['=', '{'], ['4', '2']] := by
    simp [braces, List.mapM_cons, hnumber]
  have hbraces : (braces.filter fun a => !a.isLiteral).mapM Atom.render =
      .ok [['x'], ['4', '2']] := by
    simp [braces, List.mapM_cons, hnumber]
  obtain ⟨message, args, htext, hargs, hcount, hfilled, hreplacement⟩ :=
    message_says_concatenation hrender
  have hmessage : message = "\x7b\x7b\x7d\x7d=\x7b\x7b\x7d".toList :=
    Except.ok.inj (htext.symm.trans rfl)
  have hgiven : args = [['x'], ['4', '2']] := Except.ok.inj (hargs.symm.trans hbraces)
  refine ⟨_, message, args, hrender, htext, hmessage, hcount, hfilled (by decide), ?_⟩
  rw [hreplacement, hmessage, hgiven]
  rfl

end LogCalls.Message
