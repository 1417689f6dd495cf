/-
LogCalls/Proofs/Conversion/Complete.lean

Converted calls, read again.  The tokens of a call that is taken are rows of
items, but for the blanks before its first parenthesis, which belong to the
first token (`CallSite.Stands.exists_tokens`).  So everything that is written as
an argument of the new call can be read again.

The literals of a call are put into the message without their first and their
last character, which need not be quotes, and between double quotes whatever the
quotes were.  The new call is complete where the literals could have stood
between double quotes, and need not be otherwise (`convert_spacedPrint`).

Main result: `convert_calls_complete`.
-/
import LogCalls.Proofs.CallSite.Blanks
import LogCalls.Proofs.Conversion.Run
import LogCalls.Proofs.Message.Rereading
import LogCalls.Proofs.Pattern.Spelled
import LogCalls.Proofs.Template.Fill

namespace LogCalls

open Argument

/-! ### The tokens of a call -/

/-- Only quotes make a literal. -/
theorem Atom.exists_literal_of_ofToken {token : Text} {a : Atom} (h : ofToken token = .ok a)
    (hliteral : a.isLiteral = true) : ∃ u, a = .literal u := by
  rcases ofToken_cases h with ⟨-, rfl⟩ | ⟨n, -, -, rfl⟩ | ⟨-, rfl⟩
  · exact ⟨_, rfl⟩
  · cases hliteral
  · cases hliteral

/-- What stands between the parentheses of a call is a row of items, and its atoms
are those of the operands, the first of them with the blanks in front. -/
theorem CallSite.Stands.exists_operands {site : CallSite} {x blanks argument r t : Text}
    (h : Stands site x blanks argument r t) :
    ∃ pieces first others, (∀ i ∈ pieces, Item i) ∧ argument = pieces.flatten ∧
      (operands pieces).map List.flatten = first :: others ∧
      (∀ token ∈ first :: others, Kept token) ∧
      ((blanks ++ first) :: others).mapM Atom.ofToken = .ok site.atoms := by
  obtain ⟨hatoms, hvalid, hlength⟩ := read_eq_ok_iff.mp h.read
  obtain ⟨ho, hc⟩ := Text.not_mem_of_isBlank h.blank
  have hbody := (scan_ends_iff ho hc argument r).mp ⟨hvalid, hlength⟩
  obtain ⟨pieces, hpieces, hflatten, hdivided⟩ := hbody.exists_pieces
  have hscan := (hdivided r).scan_eq
  obtain ⟨first, others, htokens⟩ := exists_tokens_scan ('(' :: (argument ++ ')' :: r))
  have hoperands : (operands pieces).map List.flatten = first :: others := by
    rw [← htokens, hscan]
  refine ⟨pieces, first, others, hpieces, hflatten, hoperands, ?_, ?_⟩
  · rw [← hoperands]
    exact (hdivided r).kept_of_mem rfl
  · have hsplit : blanks ++ '(' :: argument ++ [')'] ++ r =
        blanks ++ '(' :: (argument ++ ')' :: r) := by simp
    rwa [hsplit, scan_append_open ho hc, htokens, List.modifyHead_cons] at hatoms

/-- The atoms of a call are those of tokens that are rows of items, with blanks
before them. -/
theorem CallSite.Stands.exists_tokens {site : CallSite} {x blanks argument r t : Text}
    (h : Stands site x blanks argument r t) :
    ∃ tokens : List Text, tokens.mapM Atom.ofToken = .ok site.atoms ∧
      ∀ token ∈ tokens, Kept (Text.trimStart token) := by
  obtain ⟨-, first, others, -, -, -, hkept, hatoms⟩ := h.exists_operands
  have hself : ∀ token ∈ first :: others, Kept (Text.trimStart token) := by
    intro token htoken
    rw [(hkept token htoken).trim_eq_self.1]
    exact hkept token htoken
  refine ⟨_, hatoms, ?_⟩
  rw [List.forall_mem_cons, Text.trimStart_append_of_blank h.blank]
  exact List.forall_mem_cons.mp hself

namespace Conversion

/-! ### The new call -/

/-- What is written behind the name of the severity. -/
def Change.newArgument (c : Change) : Text := c.blanks ++ '(' :: c.replacement ++ [')']

/-- A text is read as a complete argument up to the end of it and no further,
with `r` behind it. -/
def ReadsUpTo (u r : Text) : Prop :=
  ∃ a, (Argument.read (u ++ r)).result = .ok a ∧ a.valid = true ∧ a.length = u.length

variable {style : Style} {forced : Option String} {t x : Text} {c : Change}

/-- The literals of a call could stand between double quotes. -/
def Quotable (site : CallSite) : Prop := ∀ u, Atom.literal u ∈ site.atoms → Enclosed '"' u

theorem Change.Holds.allRereadable (h : c.Holds style forced t x) (hliterals : Quotable c.site) :
    Message.AllRereadable c.site.atoms := by
  obtain ⟨r, hstands⟩ := h.stands
  obtain ⟨tokens, htokens, hkept⟩ := hstands.exists_tokens
  intro a ha u hrender
  obtain ⟨token, htoken, hof⟩ := (mem_iff_of_mapM_eq_ok htokens).mp ha
  split
  · next hliteral =>
      obtain ⟨v, rfl⟩ := Atom.exists_literal_of_ofToken hof hliteral
      obtain rfl : v = u := Except.ok.inj hrender
      exact hliterals v ha
  · next hliteral =>
      exact rereadable_of_render (hkept token htoken) hof (by simpa using hliteral) hrender

/-- The new call is complete where its literals could stand between double
quotes. -/
theorem Change.Holds.readsUpTo (h : c.Holds style forced t x) (hliterals : Quotable c.site)
    (r : Text) : ReadsUpTo c.newArgument r := by
  obtain ⟨r', hstands⟩ := h.stands
  obtain ⟨message, args, hwritten, hmessage, hargs⟩ :=
    Message.exists_written_of_replacement h.replacement (h.allRereadable hliterals)
  rw [ReadsUpTo, Change.newArgument, hwritten]
  exact read_written hstands.blank hmessage hargs r

/-- What the new call needs to be complete. -/
theorem Change.Holds.readsUpTo_iff (h : c.Holds style forced t x) (r : Text) :
    ReadsUpTo c.newArgument r ↔
      Body c.replacement ∧ ∀ token ∈ (scan (c.newArgument ++ r)).tokens, ¬ Atom.Overlong token := by
  obtain ⟨r', hstands⟩ := h.stands
  obtain ⟨ho, hc⟩ := Text.not_mem_of_isBlank hstands.blank
  rw [← scan_ends_iff ho hc c.replacement r, ← exists_read_eq_ok_iff]
  constructor
  · rintro ⟨a, ha, hvalid, hlength⟩
    obtain ⟨-, hvalid', hlength'⟩ := read_eq_ok_iff.mp ha
    exact ⟨⟨hvalid'.trans hvalid, hlength'.trans hlength⟩, a, ha⟩
  · rintro ⟨⟨hvalid, hlength⟩, a, ha⟩
    obtain ⟨-, hvalid', hlength'⟩ := read_eq_ok_iff.mp ha
    exact ⟨a, ha, hvalid'.symm.trans hvalid, hlength'.symm.trans hlength⟩

/-- **Converted calls are complete.**  What is written behind the severity of a
converted call is read as an argument up to its closing parenthesis, exactly
where the text between the parentheses is a row of items and no token of it is
overlong.  This is so for every call whose literals could stand between double
quotes. -/
theorem convert_calls_complete {conversion : Conversion}
    (h : (convert style forced t).result = .ok conversion) :
    ∃ cs r, t = cs.flatMap Change.old ++ r ∧ Row style forced t [] cs ∧
      cs.map Change.site = sites t ∧
      ∀ ds c es, cs = ds ++ c :: es →
        conversion.text = ds.flatMap Change.new ++ c.gap ++ Action.callee c.logger c.severity ++
            (c.newArgument ++ (es.flatMap Change.new ++ r)) ∧
          (ReadsUpTo c.newArgument (es.flatMap Change.new ++ r) ↔
            Body c.replacement ∧
              ∀ token ∈ (scan (c.newArgument ++ (es.flatMap Change.new ++ r))).tokens,
                ¬ Atom.Overlong token) ∧
          (Quotable c.site → ReadsUpTo c.newArgument (es.flatMap Change.new ++ r)) := by
  obtain ⟨cs, r, htext, hnew, hrow, hsites, -⟩ := exists_row_of_convert h
  refine ⟨cs, r, htext, hrow, hsites, ?_⟩
  rintro ds c es rfl
  have hc := (row_append.mp hrow).2.1
  refine ⟨?_, hc.readsUpTo_iff _, fun hliterals => hc.readsUpTo hliterals _⟩
  rw [hnew]
  simp [Change.new, Change.newCall, Change.newArgument, Action.callee]

/-! ### Calls that are complete, and one that is not -/

/-- The calls of the notice. -/
def noticeSites : List CallSite :=
  [⟨⟨0, "System.out.print".toList, .out, "print".toList⟩, 16, 19, [.expression ['k']]⟩,
    ⟨⟨21, "System.err.println".toList, .err, "println".toList⟩, 39, 51,
      [.literal "n = ".toList, .expression ['n']]⟩]

theorem sites_notice : sites notice = noticeSites := by decide +kernel

theorem convert_calls_complete_notice :
    ∃ (conversion : Conversion) (before after : Text) (c : Change),
      (convert bare none notice).result = .ok conversion ∧ c.site.mention.start = 21 ∧
      conversion.text = before ++ Action.callee c.logger c.severity ++ (c.newArgument ++ after) ∧
      ReadsUpTo c.newArgument after := by
  obtain ⟨conversion, h⟩ := exists_convert_eq_ok convertible_notice
  obtain ⟨cs, r, -, -, hsites, hall⟩ := convert_calls_complete h
  rw [sites_notice, noticeSites] at hsites
  obtain ⟨c₁, cs, rfl, -, hsites⟩ := List.map_eq_cons_iff.mp hsites
  obtain ⟨c₂, cs, rfl, hsite, -⟩ := List.map_eq_cons_iff.mp hsites
  obtain ⟨htext, -, hreads⟩ := hall [c₁] c₂ cs rfl
  have hquotable : Quotable c₂.site := by
    rw [hsite]
    intro u hu
    obtain rfl : u = "n = ".toList := by simpa [Atom.literal, Atom.expression] using hu
    exact (enclosed_iff (by decide)).mpr rfl
  exact ⟨conversion, _, _, c₂, h, by rw [hsite], htext, hreads hquotable⟩

/-- A call with blanks before its parentheses. -/
def spacedPrint : Text := "System.out.println (\"abc\");".toList

/-- The blanks belong to the literal, so its first quote gets into the message,
and the new call is not complete. -/
theorem convert_spacedPrint :
    (convert Style.default none spacedPrint).result =
        .ok ⟨"logger.debug (\"\"abc\");".toList, 1, 0⟩ ∧
      ∃ a, (Argument.read " (\"\"abc\");".toList).result = .ok a ∧ a.valid = false := by
  have hmentions : Mention.all spacedPrint = [CallSite.firstMention] := by decide +kernel
  have htakes : Takes spacedPrint 0 CallSite.firstMention
      ⟨CallSite.firstMention, 19, 26, [.literal "\"abc".toList]⟩ := ⟨by decide, rfl⟩
  have hlombok : Style.default.usesLombok (Text.upTo spacedPrint 0) = .ok false :=
    Style.usesLombok_eq_ok_iff.mpr ⟨_, Style.read_lombokPattern_default, rfl⟩
  refine ⟨?_, _, rfl, rfl⟩
  rw [result_convert_of_single hmentions htakes hlombok
    (Action.create_eq_ok_iff.mpr ⟨_, _, Style.titleFor_default _ _ _, rfl, rfl⟩)]
  rfl

end Conversion

end LogCalls
