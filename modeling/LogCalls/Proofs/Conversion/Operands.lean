/-
LogCalls/Proofs/Conversion/Operands.lean

The arguments that a converted call gives to the logger.  There is one for every
operand that is no literal, and a placeholder for it in the message.  A number is
never written as nothing (`Number.write_ne_nil`), and an expression only where its
token has nothing but blanks (`Atom.render_eq_nil_iff`).

So an argument is empty exactly where an operand is: where nothing stands between
the parentheses, between two signs, or between a sign and a parenthesis
(`convert_arguments_of_operands`).  Such a call is converted all the same, to one
that no compiler accepts (`convert_emptyPrint`).
-/
import LogCalls.Proofs.Conversion.Complete

namespace LogCalls

open Argument

/-! ### What is written for an operand -/

theorem Text.signedNumeral_ne_nil (n : Int) : signedNumeral n ≠ [] := by
  rw [signedNumeral]
  split
  · exact List.cons_ne_nil _ _
  · exact Nat.toDigits_ne_nil

theorem Decimal.positional_ne_nil (d : Digits) : positional d ≠ [] := by
  simp only [positional]
  split
  · simp
  split <;> simp

theorem Decimal.write_sourceLayout_ne_nil (x : Binary64) : sourceLayout.write x ≠ [] := by
  have hsigned : ∀ {t : Text} {negative : Bool}, t ≠ [] →
      (if negative then '-' :: t else t) ≠ [] := by
    intro t negative ht
    cases negative with
    | false => exact ht
    | true => exact List.cons_ne_nil _ _
  have hscientific : ∀ d : Digits, scientific 1 d ≠ [] := by
    intro d
    simp [scientific]
  cases x with
  | nan => decide
  | infinite negative => exact hsigned (by decide)
  | finite negative m e =>
      simp only [Layout.write]
      split
      · split
        · exact Text.signedNumeral_ne_nil _
        · exact hsigned (hscientific _)
      · refine hsigned ?_
        split
        · exact positional_ne_nil _
        · exact hscientific _

/-- A number is never written as nothing. -/
theorem Number.write_ne_nil {n : Number} {u : Text} (h : n.write Decimal.sourceLayout = .ok u) :
    u ≠ [] := by
  cases n with
  | whole n =>
      rw [write, writeWhole] at h
      split at h
      · rw [← Except.ok.inj h]
        exact Text.signedNumeral_ne_nil n
      · cases h
  | real x =>
      rw [← Except.ok.inj h]
      exact Decimal.write_sourceLayout_ne_nil x

namespace Atom

theorem ofToken_of_blank {token : Text} (h : Text.trimStart token = []) :
    ofToken token = .ok (expression []) := by
  have htrim : Text.trim token = [] := by
    rw [Text.trim, h]
    rfl
  rw [ofToken, h, htrim]

/-- An atom that is no literal is written as nothing where its token has nothing
but blanks. -/
theorem render_eq_nil_iff {token u : Text} {a : Atom} (hof : ofToken token = .ok a)
    (hliteral : a.isLiteral = false) (hrender : a.render = .ok u) :
    u = [] ↔ Text.trimStart token = [] := by
  constructor
  · rintro rfl
    rcases ofToken_cases hof with ⟨-, rfl⟩ | ⟨n, -, -, rfl⟩ | ⟨-, rfl⟩
    · cases hliteral
    · exact absurd rfl (Number.write_ne_nil hrender)
    · have htrim : Text.trim token = [] := Except.ok.inj hrender
      exact List.dropWhile_eq_nil_iff.mpr (Text.trim_eq_nil_iff.mp htrim)
  · intro hblank
    rw [ofToken_of_blank hblank] at hof
    obtain rfl := Except.ok.inj hof
    exact (Except.ok.inj hrender).symm

end Atom

/-- An argument is empty where a token has nothing but blanks. -/
theorem Message.nil_mem_arguments_iff {tokens args : List Text} {atoms : List Atom}
    (hatoms : tokens.mapM Atom.ofToken = .ok atoms) (hargs : arguments atoms = .ok args) :
    [] ∈ args ↔ ∃ token ∈ tokens, Text.trimStart token = [] := by
  rw [mem_iff_of_mapM_eq_ok hargs]
  constructor
  · rintro ⟨a, ha, hrender⟩
    obtain ⟨hmem, hliteral⟩ := List.mem_filter.mp ha
    obtain ⟨token, htoken, hof⟩ := (mem_iff_of_mapM_eq_ok hatoms).mp hmem
    exact ⟨token, htoken,
      (Atom.render_eq_nil_iff hof (by simpa using hliteral) hrender).mp rfl⟩
  · rintro ⟨token, htoken, hblank⟩
    have hof := Atom.ofToken_of_blank hblank
    have hmem := (mem_iff_of_mapM_eq_ok hatoms).mpr ⟨token, htoken, hof⟩
    exact ⟨.expression [], List.mem_filter.mpr ⟨hmem, rfl⟩, rfl⟩

/-- There is one argument for every atom that is no literal. -/
theorem Message.length_arguments {args : List Text} {atoms : List Atom}
    (h : arguments atoms = .ok args) : args.length = atoms.countP fun a => !a.isLiteral := by
  rw [List.countP_eq_length_filter]
  exact (zip_of_mapM_eq_ok h).1.symm

/-! ### Operands without text -/

/-- An operand of items has no text where it has no items. -/
theorem Argument.flatten_eq_nil_iff {pieces operand : List Text} (h : ∀ i ∈ pieces, Item i)
    (ho : operand ∈ operands pieces) : operand.flatten = [] ↔ operand = [] := by
  constructor
  · intro hflatten
    rcases operand with _ | ⟨i, rest⟩
    · rfl
    · obtain ⟨c, r, rfl, -⟩ := (h i (mem_of_mem_operands ho List.mem_cons_self)).exists_cons
      cases hflatten
  · rintro rfl
    rfl

/-- An argument of a call is empty where an operand is. -/
theorem CallSite.Stands.nil_mem_arguments_iff {site : CallSite} {x blanks argument r t : Text}
    (h : Stands site x blanks argument r t) {args : List Text}
    (hargs : Message.arguments site.atoms = .ok args) :
    ∃ pieces, (∀ i ∈ pieces, Item i) ∧ argument = pieces.flatten ∧
      ([] ∈ args ↔ [] ∈ operands pieces) := by
  obtain ⟨pieces, first, others, hpieces, hflatten, htokens, hkept, hatoms⟩ := h.exists_operands
  refine ⟨pieces, hpieces, hflatten, ?_⟩
  -- no token has a blank at its start, but for those in front of the first one
  have hblank : (∃ token ∈ (blanks ++ first) :: others, Text.trimStart token = []) ↔
      [] ∈ first :: others := by
    have hself : ∀ token ∈ first :: others, Text.trimStart token = token :=
      fun token htoken => (hkept token htoken).trim_eq_self.1
    rw [List.exists_mem_cons_iff, Text.trimStart_append_of_blank h.blank,
      ← List.exists_mem_cons_iff (p := fun token => Text.trimStart token = [])]
    constructor
    · rintro ⟨token, htoken, hnil⟩
      rw [hself token htoken] at hnil
      rwa [← hnil]
    · intro hnil
      exact ⟨[], hnil, rfl⟩
  rw [Message.nil_mem_arguments_iff hatoms hargs, hblank, ← htokens, List.mem_map]
  constructor
  · rintro ⟨operand, ho, hnil⟩
    rwa [← (flatten_eq_nil_iff hpieces ho).mp hnil]
  · intro hnil
    exact ⟨[], hnil, rfl⟩

namespace Conversion

variable {style : Style} {forced : Option String} {t : Text}

/-- **Arguments of converted calls.**  A converted call gives the logger one
argument for every atom that is no literal, behind the message.  No argument is
empty exactly where every operand of the call has something but blanks. -/
theorem convert_arguments_of_operands {conversion : Conversion}
    (h : (convert style forced t).result = .ok conversion) :
    ∃ cs r, t = cs.flatMap Change.old ++ r ∧ conversion.text = cs.flatMap Change.new ++ r ∧
      Row style forced t [] cs ∧ cs.map Change.site = sites t ∧
      ∀ c ∈ cs, ∃ message args pieces,
        Message.text c.site.atoms = .ok message ∧ Message.arguments c.site.atoms = .ok args ∧
        c.replacement = written message args ∧
        args.length = c.site.atoms.countP (fun a => !a.isLiteral) ∧
        (∀ i ∈ pieces, Item i) ∧ c.argument = pieces.flatten ∧
        ((∀ arg ∈ args, arg ≠ []) ↔ ∀ operand ∈ operands pieces, operand ≠ []) := by
  obtain ⟨cs, r, htext, hnew, hrow, hsites, -⟩ := exists_row_of_convert h
  refine ⟨cs, r, htext, hnew, hrow, hsites, fun c hc => ?_⟩
  obtain ⟨ds, es, rfl⟩ := List.append_of_mem hc
  have hholds := (row_append.mp hrow).2.1
  obtain ⟨r', hstands⟩ := hholds.stands
  obtain ⟨message, hmessage, hrest⟩ := bind_eq_ok_iff.mp hholds.replacement
  obtain ⟨args, hargs, hjoined⟩ := bind_eq_ok_iff.mp hrest
  obtain ⟨pieces, hpieces, hflatten, hnil⟩ := hstands.nil_mem_arguments_iff hargs
  refine ⟨message, args, pieces, hmessage, hargs, ?_, Message.length_arguments hargs, hpieces,
    hflatten, ?_⟩
  · rw [← Except.ok.inj hjoined, Message.joinWith_cons, written]
  · simp only [ne_eq, List.forall_mem_ne']
    exact not_congr hnil

/-- The second call of the notice has an operand for its placeholder. -/
theorem convert_arguments_of_operands_notice :
    ∃ (conversion : Conversion) (before after : Text) (c : Change) (pieces : List Text),
      (convert bare none notice).result = .ok conversion ∧ c.site.mention.start = 21 ∧
      conversion.text = before ++ c.new ++ after ∧
      c.replacement = written "n = \x7b\x7d".toList [['n']] ∧ c.argument = pieces.flatten ∧
      ∀ operand ∈ operands pieces, operand ≠ [] := by
  obtain ⟨conversion, h⟩ := exists_convert_eq_ok convertible_notice
  obtain ⟨cs, r, -, hnew, -, hsites, hall⟩ := convert_arguments_of_operands h
  rw [sites_notice, noticeSites] at hsites
  obtain ⟨c₁, cs, rfl, -, hsites⟩ := List.map_eq_cons_iff.mp hsites
  obtain ⟨c₂, cs, rfl, hsite, -⟩ := List.map_eq_cons_iff.mp hsites
  obtain ⟨message, args, pieces, hmessage, hargs, hreplacement, -, -, hflatten, hiff⟩ :=
    hall c₂ (by simp)
  rw [hsite] at hmessage hargs
  obtain rfl : "n = \x7b\x7d".toList = message := Except.ok.inj hmessage
  obtain rfl : [['n']] = args := Except.ok.inj hargs
  refine ⟨conversion, c₁.new, cs.flatMap Change.new ++ r, c₂, pieces, h, by rw [hsite], ?_,
    hreplacement, hflatten, hiff.mp (by simp)⟩
  rw [hnew]
  simp

/-- A call with nothing between its parentheses. -/
def emptyPrint : Text := "System.out.println();".toList

/-- The only operand has no text, and neither has the argument that is written
for it behind the comma. -/
theorem convert_emptyPrint :
    (convert Style.default none emptyPrint).result =
        .ok ⟨"logger.debug(\"\x7b\x7d\", );".toList, 1, 0⟩ ∧
      (sites emptyPrint).map CallSite.atoms = [[.expression []]] ∧
      Message.arguments [.expression []] = .ok [[]] := by
  have hmentions : Mention.all emptyPrint = [CallSite.firstMention] := by decide +kernel
  have htakes : Takes emptyPrint 0 CallSite.firstMention
      ⟨CallSite.firstMention, 18, 20, [.expression []]⟩ := ⟨by decide, rfl⟩
  have hlombok : Style.default.usesLombok (Text.upTo emptyPrint 0) = .ok false :=
    Style.usesLombok_eq_ok_iff.mpr ⟨_, Style.read_lombokPattern_default, rfl⟩
  refine ⟨?_, ?_, rfl⟩
  · rw [result_convert_of_single hmentions htakes hlombok
      (Action.create_eq_ok_iff.mpr ⟨_, _, Style.titleFor_default _ _ _, rfl, rfl⟩)]
    rfl
  · rw [sites, hmentions, sitesFrom_of_takes htakes]
    rfl

end Conversion

end LogCalls
