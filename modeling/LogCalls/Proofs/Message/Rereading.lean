/-
LogCalls/Proofs/Message/Rereading.lean

The arguments of a logger call, read again.  An argument is an expression that
stood between two cuts, an integer, or a real; the scan keeps it as it is, but
for a real with a positive exponent, which it cuts at the sign
(`rereadable_of_render`).  What follows such a cut starts with the few digits of
the exponent, so no token is overlong (`exists_tokens_arguments`).

The message is not as safe: it is put between double quotes without another
look at it.  Where every literal could have stood between double quotes itself,
the whole message can (`Message.exists_written_of_replacement`).

Main result: a message that can stand between double quotes and arguments that
can be read again are read as an argument that ends with its parentheses
(`read_written`).
-/
import LogCalls.Proofs.Argument.Printing
import LogCalls.Proofs.CallSite.Shape
import LogCalls.Proofs.Decimal.Magnitude
import LogCalls.Proofs.Message.Filling

namespace LogCalls.Argument

open State

/-! ### Texts between quotes -/

theorem Enclosed.append {q : Char} {t u : Text} (ht : Enclosed q t) (hu : Enclosed q u) :
    Enclosed q (t ++ u) := by
  refine ⟨fun a b h => ?_, ?_⟩
  -- the quote stands in `u`, or in `t`, where it may be the first character of `u`
  · rcases List.append_eq_append_iff.mp h with ⟨a', rfl, hsplit⟩ | ⟨c', rfl, hsplit⟩
    · rw [List.getLast?_append, hu.escaped a' b hsplit]
      rfl
    · rcases c' with _ | ⟨d, c'⟩
      · cases hu.escaped [] b hsplit.symm
      · obtain ⟨rfl, -⟩ := List.cons.inj hsplit
        exact ht.escaped a c' rfl
  · rw [List.getLast?_append]
    rcases hlast : u.getLast? with _ | c
    · exact ht.last_ne
    · rw [← hlast, Option.or_eq_some_iff.mpr (.inl hlast)]
      rw [← hlast]
      exact hu.last_ne

theorem Enclosed.flatten {q : Char} (hq : q ≠ '\\') {texts : List Text}
    (h : ∀ t ∈ texts, Enclosed q t) : Enclosed q texts.flatten := by
  induction texts with
  | nil => exact (enclosed_iff hq).mpr (by simpa [encloses] using hq)
  | cons t texts ih =>
      obtain ⟨ht, htexts⟩ := List.forall_mem_cons.mp h
      exact ht.append (ih htexts)

/-! ### Arguments that are read again -/

/-- An argument that can be read again: a row of kept items, or one that is cut
at a sign with few digits behind it. -/
inductive Rereadable : Text → Prop
  | kept {t : Text} : Kept t → Rereadable t
  | cut {t digits : Text} : Kept t → (∀ c ∈ digits, c.isDigit = true) →
      digits.length ≤ Fault.digitLimit → Rereadable (t ++ '+' :: digits)

theorem Rereadable.cons {c : Char} {t : Text} (hc : IsPlain c) (h : Rereadable t) :
    Rereadable (c :: t) := by
  cases h with
  | kept ht => exact .kept (.char hc ht)
  | cut ht hdigits hlength => exact .cut (.char hc ht) hdigits hlength

theorem Body.append {t u : Text} (ht : Body t) (hu : Body u) : Body (t ++ u) := by
  induction ht with
  | nil => exact hu
  | cons hi _ ih =>
      rw [List.append_assoc]
      exact .cons hi ih

theorem kept_of_digits {digits : Text} (h : ∀ c ∈ digits, c.isDigit = true) : Kept digits :=
  kept_of_plain fun c hc => isPlain_of_isDigit (h c hc)

theorem Rereadable.body {t : Text} (h : Rereadable t) : Body t := by
  have hplus : Item ['+'] := .char (by decide) (by decide) (by decide)
  cases h with
  | kept ht => exact ht.body
  | cut ht hdigits _ => exact ht.body.append (.cons hplus (kept_of_digits hdigits).body)

/-! ### Numbers -/

theorem kept_signedNumeral (n : Int) : Kept (Text.signedNumeral n) := by
  have hkept : Kept (Text.numeral n.natAbs) := kept_of_digits fun _ => isDigit_of_mem_numeral
  rw [Text.signedNumeral]
  split
  · exact .char (by decide) hkept
  · exact hkept

theorem isPlain_of_pointed {c : Char} (h : c.isDigit = true ∨ c = '.') : IsPlain c := by
  rcases h with hdigit | rfl
  · exact isPlain_of_isDigit hdigit
  · decide

theorem kept_positional {d : Decimal.Digits} (h : ∀ c ∈ d.digits, c.isDigit = true) :
    Kept (Decimal.positional d) := by
  refine kept_of_plain fun c hc => isPlain_of_pointed ?_
  have hzero : ∀ {n : Nat}, c ∈ List.replicate n '0' → c.isDigit = true := by
    intro n hmem
    rw [List.eq_of_mem_replicate hmem]
    rfl
  simp only [Decimal.positional] at hc
  split at hc
  · simp only [List.mem_cons, List.mem_append] at hc
    rcases hc with (rfl | rfl | hmem) | hmem
    · exact .inl rfl
    · exact .inr rfl
    · exact .inl (hzero hmem)
    · exact .inl (h c hmem)
  split at hc
  · simp only [List.mem_cons, List.mem_append, List.not_mem_nil, or_false] at hc
    rcases hc with (hmem | hmem) | rfl | rfl
    · exact .inl (h c hmem)
    · exact .inl (hzero hmem)
    · exact .inr rfl
    · exact .inl rfl
  · simp only [List.mem_cons, List.mem_append] at hc
    rcases hc with hmem | rfl | hmem
    · exact .inl (h c (List.mem_of_mem_take hmem))
    · exact .inr rfl
    · exact .inl (h c (List.mem_of_mem_drop hmem))

/-- A numeral with an exponent is cut at the sign of a positive one. -/
theorem rereadable_exponent {mantissa digits : Text} {negative : Prop} [Decidable negative]
    (hmantissa : ∀ c ∈ mantissa, c.isDigit = true ∨ c = '.')
    (hdigits : ∀ c ∈ digits, c.isDigit = true)
    (hlength : ¬ negative → digits.length ≤ Fault.digitLimit) :
    Rereadable (mantissa ++ 'e' :: (if negative then '-' else '+') :: digits) := by
  have hmarked : ∀ c ∈ mantissa ++ ['e'], IsPlain c := by
    intro c hc
    rcases List.mem_append.mp hc with hmem | hmem
    · exact isPlain_of_pointed (hmantissa c hmem)
    · rw [List.mem_singleton.mp hmem]
      decide
  rw [List.append_cons]
  split
  · refine .kept (kept_of_plain fun c hc => ?_)
    rcases List.mem_append.mp hc with hmem | hmem
    · exact hmarked c hmem
    rcases List.mem_cons.mp hmem with rfl | hmem
    · decide
    · exact isPlain_of_isDigit (hdigits c hmem)
  · next hpositive => exact .cut (kept_of_plain hmarked) hdigits (hlength hpositive)

theorem rereadable_scientific {width : Nat} {d : Decimal.Digits}
    (h : ∀ c ∈ d.digits, c.isDigit = true) (hexponent : d.exponent < 100000)
    (hwidth : width ≤ Fault.digitLimit) : Rereadable (Decimal.scientific width d) := by
  have hdigits : ∀ c ∈ List.replicate (width - (Text.numeral d.exponent.natAbs).length) '0' ++
      Text.numeral d.exponent.natAbs, c.isDigit = true := by
    intro c hc
    rcases List.mem_append.mp hc with hmem | hmem
    · rw [List.eq_of_mem_replicate hmem]
      rfl
    · exact isDigit_of_mem_numeral hmem
  have hlength : ¬ d.exponent < 0 →
      (List.replicate (width - (Text.numeral d.exponent.natAbs).length) '0' ++
        Text.numeral d.exponent.natAbs).length ≤ Fault.digitLimit := by
    intro hpositive
    have hfew : (Text.numeral d.exponent.natAbs).length ≤ 5 :=
      (Nat.length_toDigits_le_iff (by decide) (by decide)).mpr (by omega)
    have hlimit : Fault.digitLimit = 4300 := rfl
    rw [List.length_append, List.length_replicate]
    omega
  rcases hd : d.digits with _ | ⟨c, _ | ⟨c', r⟩⟩
  · simp only [Decimal.scientific, hd]
    exact rereadable_exponent (by simp) hdigits hlength
  · rw [hd] at h
    simp only [Decimal.scientific, hd]
    exact rereadable_exponent (fun e he => .inl (h e he)) hdigits hlength
  · rw [hd, List.forall_mem_cons] at h
    simp only [Decimal.scientific, hd]
    refine rereadable_exponent ?_ hdigits hlength
    intro e he
    rcases List.mem_cons.mp he with rfl | he
    · exact .inl h.1
    rcases List.mem_cons.mp he with rfl | he
    · exact .inr rfl
    · exact .inl (h.2 e he)

theorem rereadable_write {x : Binary64} (h : x.Moderate) :
    Rereadable (Decimal.sourceLayout.write x) := by
  have hsigned : ∀ {t : Text} {negative : Bool}, Rereadable t →
      Rereadable (if negative then '-' :: t else t) := by
    intro t negative ht
    cases negative with
    | false => exact ht
    | true => exact ht.cons (by decide)
  -- only the scientific form is cut; its exponent is bounded as `x` is
  cases x with
  | nan => exact .kept (kept_of_all (by decide))
  | infinite negative => exact hsigned (.kept (kept_of_all (by decide)))
  | finite negative m e =>
      have hdigits := fun c => Decimal.isDigit_of_mem_shortest (m := m) (e := e) (c := c)
      have hscientific : Rereadable (Decimal.scientific 1 (Decimal.shortest m e)) :=
        rereadable_scientific hdigits (Decimal.exponent_shortest_lt h.1 h.2) (by decide)
      simp only [Decimal.Layout.write]
      split
      · split
        · exact .kept (kept_signedNumeral _)
        · exact hsigned hscientific
      · refine hsigned ?_
        split
        · exact .kept (kept_positional hdigits)
        · exact hscientific

/-! ### The arguments of a logger call -/

/-- What a token is written as, where it is no literal, can be read again. -/
theorem rereadable_of_render {token u : Text} {a : Atom} (hkept : Kept (Text.trimStart token))
    (hof : Atom.ofToken token = .ok a) (hliteral : a.isLiteral = false)
    (hrender : a.render = .ok u) : Rereadable u := by
  have htrim : Kept (Text.trim token) := by
    obtain ⟨hstart, hself⟩ := hkept.trim_eq_self
    rw [Text.trim, hstart] at hself
    rwa [Text.trim, hself]
  rcases Atom.ofToken_cases hof with ⟨-, rfl⟩ | ⟨n, -, hn, rfl⟩ | ⟨-, rfl⟩
  · cases hliteral
  · cases n with
    | whole n =>
        rw [Atom.render_numeral_whole, Number.writeWhole] at hrender
        split at hrender
        · rw [← Except.ok.inj hrender]
          exact .kept (kept_signedNumeral n)
        · cases hrender
    | real x =>
        rw [← Except.ok.inj hrender]
        exact rereadable_write (Number.moderate_of_read hn)
  · rw [← Except.ok.inj hrender]
    exact .kept htrim

/-- Few digits in front of a comma, or of nothing, are not overlong. -/
theorem not_overlong_of_digits {digits first : Text} (hdigits : ∀ c ∈ digits, c.isDigit = true)
    (hlength : digits.length ≤ Fault.digitLimit) (hfirst : ∀ c ∈ first.head?, c = ',') :
    ¬ Atom.Overlong (digits ++ first) := by
  have hnone : first.takeWhile Text.isDigit = [] := by
    rcases first with _ | ⟨c, r⟩
    · rfl
    · rw [hfirst c rfl, List.takeWhile_cons_of_neg (by decide)]
  have htrim : (Text.trimStart (digits ++ first)).takeWhile Text.isDigit = digits := by
    have hself : Text.trimStart (digits ++ first) = digits ++ first := by
      rcases digits with _ | ⟨c, r⟩
      · rcases first with _ | ⟨c, r⟩
        · rfl
        · rw [hfirst c rfl]
          exact List.dropWhile_cons_of_neg (by decide)
      · have hplain := isPlain_of_isDigit (hdigits c List.mem_cons_self)
        exact List.dropWhile_cons_of_neg (by simp [hplain.2.2.2.1])
    rw [hself, List.takeWhile_append_of_pos fun c hc => isDigit_of_ascii (hdigits c hc), hnone,
      List.append_nil]
  rintro ⟨-, -, hlong⟩
  rw [htrim] at hlong
  omega

theorem tokens_separator {x first : Text} {others : List Text} (p : Option Char)
    (h : (scanFrom (inside 0 (some ' ')) x).tokens = first :: others) :
    (scanFrom (inside 0 p) (Message.separator ++ x)).tokens = (',' :: first) :: others := by
  have hcomma : Passes (· = .keep) (inside 0 p) [','] (inside 0 (some ',')) :=
    Passes.single (effect_inside_char (by decide) (by decide) (by decide) (by decide))
      (next_inside_of_not_quote (by decide) (by decide) (by decide)) isClosed_inside
  have hblank : Passes (· = .skip) (inside 0 (some ',')) [' '] (inside 0 (some ' ')) :=
    Passes.single (effect_inside_blank (by decide))
      (next_inside_of_not_quote (by decide) (by decide) (by decide)) isClosed_inside
  have hsplit : Message.separator ++ x = [','] ++ ([' '] ++ x) := rfl
  rw [hsplit, scanFrom_append_of_keep hcomma, scanFrom_append_of_skip hblank, h]
  rfl

/-- The scan of arguments that can be read again: the first token goes on with a
comma, and no other one is overlong. -/
theorem exists_tokens_arguments {args : List Text} (h : ∀ arg ∈ args, Rereadable arg) (r : Text)
    (p : Option Char) :
    ∃ first others, (scanFrom (inside 0 p)
        (args.flatMap (fun arg => Message.separator ++ arg) ++ ')' :: r)).tokens = first :: others ∧
      (∀ c ∈ first.head?, c = ',') ∧ ∀ token ∈ others, ¬ Atom.Overlong token := by
  induction args generalizing p with
  | nil =>
      refine ⟨[], [], ?_, by simp, by simp⟩
      rw [List.flatMap_nil, List.nil_append, scanFrom_inside_close]
  | cons arg args ih =>
      obtain ⟨harg, hargs⟩ := List.forall_mem_cons.mp h
      rw [List.flatMap_cons, List.append_assoc, List.append_assoc]
      cases harg with
      | kept ht =>
          obtain ⟨p', hpass⟩ := ht.passes (some ' ')
          obtain ⟨first, others, htokens, -, hothers⟩ := ih hargs p'
          have hfront := tokens_scanFrom_of_keep hpass htokens
          exact ⟨_, _, tokens_separator p hfront, by simp, hothers⟩
      | @cut t digits ht hdigits hlength =>
          -- the sign ends the first token, and the digits start the next one
          obtain ⟨p', hpass⟩ := ht.passes (some ' ')
          obtain ⟨p'', hpass'⟩ := (kept_of_digits hdigits).passes (some '+')
          obtain ⟨first, others, htokens, hfirst, hothers⟩ := ih hargs p''
          have hback := tokens_scanFrom_of_keep hpass' htokens
          have hcut : (scanFrom (inside 0 p') ('+' :: (digits ++
              (args.flatMap (fun arg => Message.separator ++ arg) ++ ')' :: r)))).tokens =
              [] :: (digits ++ first) :: others := by
            have hn : (inside 0 p').next '+' = inside 0 (some '+') := rfl
            rw [scanFrom, hn, isClosed_inside]
            simp only [Bool.false_eq_true, if_false, Scan.after, effect_inside_plus, hback]
          have hfront := tokens_scanFrom_of_keep hpass hcut
          rw [List.append_assoc, List.cons_append]
          refine ⟨_, _, tokens_separator p hfront, by simp, ?_⟩
          rw [List.forall_mem_cons]
          exact ⟨not_overlong_of_digits hdigits hlength hfirst, hothers⟩

/-! ### A logger call, read again -/

/-- A quoted message and arguments, as they stand between the parentheses of a
logger call. -/
def written (message : Text) (args : List Text) : Text :=
  '"' :: message ++ ['"'] ++ args.flatMap fun arg => Message.separator ++ arg

variable {message : Text} {args : List Text}

theorem body_written (hmessage : Enclosed '"' message) (hargs : ∀ arg ∈ args, Rereadable arg) :
    Body (written message args) := by
  refine .cons (.literal rfl hmessage) ?_
  induction args with
  | nil => exact .nil
  | cons arg args ih =>
      obtain ⟨harg, hrest⟩ := List.forall_mem_cons.mp hargs
      have hseparator : Body Message.separator :=
        .cons (i := [',']) (.char (by decide) (by decide) (by decide))
          (.cons (i := [' ']) (.char (by decide) (by decide) (by decide)) .nil)
      exact (hseparator.append harg.body).append (ih hrest)

/-- A token that starts with a quote is not overlong. -/
theorem not_overlong_of_quote {lead : Text} (hlead : ∀ c ∈ lead, Text.isBlank c = true) (u : Text) :
    ¬ Atom.Overlong (lead ++ '"' :: u) := by
  have htrim : Text.trimStart (lead ++ '"' :: u) = '"' :: u := by
    rw [Text.trimStart_append_of_blank hlead]
    exact List.dropWhile_cons_of_neg (by decide)
  rintro ⟨-, -, hlong⟩
  rw [htrim, List.takeWhile_cons_of_neg (by decide)] at hlong
  exact absurd hlong (by decide)

theorem not_overlong_of_mem_tokens {lead : Text} (hlead : ∀ c ∈ lead, Text.isBlank c = true)
    (hmessage : Enclosed '"' message) (hargs : ∀ arg ∈ args, Rereadable arg) (r : Text) :
    ∀ token ∈ (scan (lead ++ '(' :: written message args ++ [')'] ++ r)).tokens,
      ¬ Atom.Overlong token := by
  obtain ⟨ho, hc⟩ := Text.not_mem_of_isBlank hlead
  obtain ⟨next, rest, hnext, -, hrest⟩ := exists_tokens_arguments hargs r (some '"')
  have hquoted : (scan ('(' :: (written message args ++ ')' :: r))).tokens =
      ('"' :: message ++ ['"'] ++ next) :: rest := by
    have hopen : (scan ('(' :: (written message args ++ ')' :: r))).tokens =
        (scanFrom (inside 0 (some '(')) (written message args ++ ')' :: r)).tokens := rfl
    rw [hopen, written, List.append_assoc]
    exact tokens_scanFrom_of_keep (hmessage.passes rfl (some '(')) hnext
  have hsplit : lead ++ '(' :: written message args ++ [')'] ++ r =
      lead ++ '(' :: (written message args ++ ')' :: r) := by simp
  rw [hsplit, scan_append_open ho hc, hquoted, List.modifyHead_cons, List.forall_mem_cons]
  exact ⟨not_overlong_of_quote hlead _, hrest⟩

/-- A quoted message with arguments between parentheses is read as an argument
that ends with them. -/
theorem read_written {lead : Text} (hlead : ∀ c ∈ lead, Text.isBlank c = true)
    (hmessage : Enclosed '"' message) (hargs : ∀ arg ∈ args, Rereadable arg) (r : Text) :
    ∃ a, (read (lead ++ '(' :: written message args ++ [')'] ++ r)).result = .ok a ∧
      a.valid = true ∧ a.length = (lead ++ '(' :: written message args ++ [')']).length := by
  obtain ⟨ho, hc⟩ := Text.not_mem_of_isBlank hlead
  obtain ⟨a, ha⟩ :=
    exists_read_eq_ok_iff.mpr (not_overlong_of_mem_tokens hlead hmessage hargs r)
  obtain ⟨-, hvalid, hlength⟩ := read_eq_ok_iff.mp ha
  refine ⟨a, ha, ?_⟩
  rw [← hvalid, ← hlength]
  exact (scan_ends_iff ho hc _ r).mpr (body_written hmessage hargs)

end LogCalls.Argument

namespace LogCalls.Message

open Argument

/-- The atoms are written without a fault, and what is written for each can be
read again: a literal between double quotes, and any other atom as an argument. -/
def AllRereadable (atoms : List Atom) : Prop :=
  ∀ a ∈ atoms, ∀ u, a.render = .ok u → if a.isLiteral then Enclosed '"' u else Rereadable u

theorem exists_written_of_replacement {atoms : List Atom} {w : Text}
    (h : replacement atoms = .ok w) (hatoms : AllRereadable atoms) :
    ∃ message args, w = written message args ∧ Enclosed '"' message ∧
      ∀ arg ∈ args, Rereadable arg := by
  obtain ⟨message, hmessage, h⟩ := bind_eq_ok_iff.mp h
  obtain ⟨args, hargs, hw⟩ := bind_eq_ok_iff.mp h
  obtain ⟨parts, hparts, hflatten⟩ := bind_eq_ok_iff.mp hmessage
  refine ⟨message, args, ?_, ?_, ?_⟩
  · rw [← Except.ok.inj hw, joinWith_cons, written]
  · rw [← Except.ok.inj hflatten]
    refine Enclosed.flatten (by decide) fun t ht => ?_
    obtain ⟨a, ha, hpart⟩ := (mem_iff_of_mapM_eq_ok hparts).mp ht
    rw [part] at hpart
    split at hpart
    · next hliteral => simpa [hliteral] using hatoms a ha t hpart
    · rw [← Except.ok.inj hpart]
      exact (enclosed_iff (by decide)).mpr rfl
  · intro arg harg
    obtain ⟨a, ha, hrender⟩ := (mem_iff_of_mapM_eq_ok hargs).mp harg
    obtain ⟨hmem, hliteral⟩ := List.mem_filter.mp ha
    have hliteral : a.isLiteral = false := by simpa using hliteral
    simpa [hliteral] using hatoms a hmem arg hrender

end LogCalls.Message
