/-
LogCalls/Proofs/Conversion/ByActions.lean

A conversion, one action at a time.  The actions at the start of a call are
found from its line alone, and the pattern is looked for in the text before the
call, so none of it depends on what follows the call.  At a call that is the
first on its line a preferred action is offered, and its edits are those of the
conversion, whatever the text behind the call has become
(`exists_offers_of_holds`).

Main result: going from the last converted call to the first and taking a
preferred action at each leads to the text that the conversion gives
(`convert_by_actions`).
-/
import Mathlib.Data.List.Induction
import LogCalls.Proofs.Conversion.Run

namespace LogCalls.Conversion

/-! ### Actions, one after the other -/

/-- Taking a preferred action at each of some offsets, one after the other,
leads from a text to `final`, whichever preferred action is taken. -/
def LeadsTo (style : Style) (final : Text) : (offsets : List Int) → Text → Prop
  | [], t => t = final
  | offset :: offsets, t =>
    ∃ actions, (Action.offers style t offset).result = .ok (some actions) ∧
      (∃ a ∈ actions, a.preferred = true) ∧
      ∀ a ∈ actions, a.preferred = true →
        ∃ t', Edit.applyAll t a.edits = .ok t' ∧ LeadsTo style final offsets t'

/-- The titles of a style render for every severity that is offered. -/
def TitlesRender (style : Style) : Prop :=
  ∀ (lombok : Bool) (m : Mention), m.method ∈ Mention.methods →
    ∀ severity ∈ (style.severities m.stream).offered,
      ∃ title, style.titleFor (style.loggerFor lombok) severity m = .ok title

section

variable {style : Style} {t x : Text} {c : Change}

/-! ### The actions at one call -/

/-- The actions for a call: one of them is preferred, and every preferred one
writes the preferred severity. -/
theorem exists_forSite_eq_ok {site : CallSite} {replacement : Text} (htitles : TitlesRender style)
    (hmethod : site.mention.method ∈ Mention.methods)
    (hreplacement : Message.replacement site.atoms = .ok replacement) (lombok : Bool) :
    ∃ actions, Action.forSite style lombok site = .ok actions ∧
      (∃ a ∈ actions, a.preferred = true) ∧
      ∀ a ∈ actions, a.preferred = true →
        a.edits = Action.editsFor site (style.loggerFor lombok)
          (style.severities site.mention.stream).preferred replacement := by
  have hcreate : ∀ severity ∈ (style.severities site.mention.stream).offered,
      ∃ action, Action.create style lombok site severity = .ok action := by
    intro severity hseverity
    obtain ⟨title, htitle⟩ := htitles lombok site.mention hmethod severity hseverity
    exact ⟨_, Action.create_eq_ok_iff.mpr ⟨title, replacement, htitle, hreplacement, rfl⟩⟩
  obtain ⟨actions, hactions⟩ := exists_mapM_eq_ok_iff.mpr hcreate
  refine ⟨actions, hactions, ?_, ?_⟩
  · have hmem := (style.severities site.mention.stream).preferred_mem
    obtain ⟨a, ha⟩ := hcreate _ hmem
    refine ⟨a, (mem_iff_of_mapM_eq_ok hactions).mpr ⟨_, hmem, ha⟩, ?_⟩
    obtain ⟨title, replacement', -, -, rfl⟩ := Action.create_eq_ok_iff.mp ha
    exact beq_self_eq_true _
  · intro a ha hpreferred
    obtain ⟨severity, -, hcreated⟩ := (mem_iff_of_mapM_eq_ok hactions).mp ha
    obtain ⟨title, replacement', -, hreplacement', rfl⟩ := Action.create_eq_ok_iff.mp hcreated
    obtain rfl : replacement = replacement' :=
      Except.ok.inj (hreplacement.symm.trans hreplacement')
    rw [beq_iff_eq.mp hpreferred]

/-- At a call that is the first on its line the preferred actions make the edits
of its change, whatever follows the call. -/
theorem exists_offers_of_holds {w : Text} (h : c.Holds style none t x)
    (htext : t = x ++ c.old ++ w) (htitles : TitlesRender style)
    (hfirst : Mention.FirstOnLine t c.site.mention) (z : Text) :
    ∃ actions, (Action.offers style (x ++ c.old ++ z) c.site.mention.start).result =
        .ok (some actions) ∧
      (∃ a ∈ actions, a.preferred = true) ∧
      ∀ a ∈ actions, a.preferred = true → a.edits = c.edits := by
  obtain ⟨p, hp, hlogger⟩ := h.logger
  obtain ⟨r, hstands⟩ := h.stands
  have hmention := h.mention
  rw [htext] at hmention hfirst
  -- the call goes on behind its mention
  have hinside : c.site.mention.stop < (x ++ c.old).length := by
    have hopen := hstands.openParen
    have hstop := hstands.stop
    rw [← h.stop]
    omega
  have hall := Mention.mem_all_append_congr hmention hinside z
  have hfirst' := hfirst.append_congr hmention hinside z
  have htext' : x ++ c.old ++ z = x ++ c.gap ++ c.site.mention.matched ++
      (c.blanks ++ '(' :: c.argument ++ [')'] ++ z) := by
    simp [Change.old, Change.call]
  have hlombok : style.usesLombok (Text.upTo (x ++ c.old ++ z) c.site.mention.start) =
      .ok (p.occursIn (x ++ c.gap)) := by
    refine Style.usesLombok_eq_ok_iff.mpr ⟨p, hp, ?_⟩
    rw [h.start, htext', List.append_assoc _ c.site.mention.matched, Text.upTo_length_append]
  have honLine : Mention.onLine? (x ++ c.old ++ z) c.site.mention.start = some c.site.mention :=
    Mention.onLine?_eq_some hall rfl hfirst'
  have hsite : (CallSite.ofMention? (x ++ c.old ++ z) c.site.mention).result =
      .ok (some c.site) := by
    rw [htext', CallSite.ofMention?_eq_some_iff h.start]
    exact ⟨rfl, c.blanks, c.argument, z, hstands.replace_rest z⟩
  obtain ⟨y, y', hy⟩ := Mention.mem_all_iff.mp h.mention
  obtain ⟨actions, hactions, hsome, hedits⟩ :=
    exists_forSite_eq_ok htitles hy.method h.replacement (p.occursIn (x ++ c.gap))
  refine ⟨actions, ?_, hsome, ?_⟩
  · simp only [Action.offers, Logged.result_bind, Logged.result_liftM, hlombok, ok_bind, honLine,
      hsite, hactions, Logged.result_pure]
  · intro a ha hpreferred
    have hseverity : c.severity = (style.severities c.site.mention.stream).preferred := by
      rw [h.severity, if_neg (by simp)]
    rw [hedits a ha hpreferred, Change.edits, hseverity, hlogger]
    rfl

/-! ### From the last call to the first -/

/-- Changes in a row are made one by one, the last one first.  `w` is what
follows them in the text as it was, and `z` what has become of it. -/
theorem leadsTo_of_row {cs : List Change} {w : Text} (htext : t = cs.flatMap Change.old ++ w)
    (hrow : Row style none t [] cs) (htitles : TitlesRender style)
    (hfirst : ∀ c ∈ cs, Mention.FirstOnLine t c.site.mention) (z : Text) :
    LeadsTo style (cs.flatMap Change.new ++ z)
      ((cs.map Change.site).reverse.map fun site => site.mention.start)
      (cs.flatMap Change.old ++ z) := by
  induction cs using List.reverseRecOn generalizing w z with
  | nil => rfl
  | append_singleton cs c ih =>
      obtain ⟨hcs, hc, -⟩ := row_append.mp hrow
      rw [List.nil_append] at hc
      have hsplit : ∀ y, (cs ++ [c]).flatMap Change.old ++ y =
          cs.flatMap Change.old ++ c.old ++ y := by
        intro y
        simp
      rw [hsplit] at htext ⊢
      obtain ⟨actions, hoffers, hsome, hedits⟩ :=
        exists_offers_of_holds hc htext htitles (hfirst c (by simp)) z
      rw [List.map_append, List.reverse_append, List.map_singleton, List.reverse_singleton,
        List.singleton_append, List.map_cons]
      refine ⟨actions, hoffers, hsome, fun a ha hpreferred => ?_⟩
      refine ⟨cs.flatMap Change.old ++ (c.new ++ z), ?_, ?_⟩
      · have hapart : Edit.Apart (cs.flatMap Change.old).length c.edits := by
          have hends : Edit.Apart _ (c.edits ++ []) := hc.apart trivial
          rwa [List.append_nil] at hends
        rw [hedits a ha hpreferred, Edit.applyAll_of_apart hapart, hc.applyOrdered_edits,
          List.append_assoc]
      · have hrest := ih (w := c.old ++ w) (by rw [htext, List.append_assoc]) hcs
          (fun d hd => hfirst d (List.mem_append_left _ hd)) (c.new ++ z)
        have hfinal : (cs ++ [c]).flatMap Change.new ++ z =
            cs.flatMap Change.new ++ (c.new ++ z) := by
          simp
        rw [hfinal]
        exact hrest

/-- **A conversion is made of preferred actions.**  Where every converted call
is the first on its line, going from the last one to the first and taking a
preferred action at each succeeds and leads to the converted text. -/
theorem convert_by_actions {conversion : Conversion} (htitles : TitlesRender style)
    (h : (convert style none t).result = .ok conversion)
    (hfirst : ∀ site ∈ sites t, Mention.FirstOnLine t site.mention) :
    LeadsTo style conversion.text
      ((sites t).reverse.map fun site => site.mention.start) t := by
  obtain ⟨cs, r, htext, hnew, hrow, hsites, -⟩ := exists_row_of_convert h
  rw [← hsites] at hfirst ⊢
  have hleads := leadsTo_of_row htext hrow htitles
    (fun c hc => hfirst c.site (List.mem_map_of_mem hc)) r
  rwa [← htext, ← hnew] at hleads

end

theorem convert_by_actions_notice :
    TitlesRender bare ∧ (∀ site ∈ sites notice, Mention.FirstOnLine notice site.mention) ∧
      ∃ conversion, (convert bare none notice).result = .ok conversion ∧
        LeadsTo bare conversion.text [21, 0] notice := by
  have htitles : TitlesRender bare := fun _ _ _ _ _ => ⟨[], titleFor_bare _ _ _⟩
  have hfirst : ∀ site ∈ sites notice, Mention.FirstOnLine notice site.mention := by
    unfold Mention.FirstOnLine
    decide +kernel
  obtain ⟨conversion, h⟩ := exists_convert_eq_ok convertible_notice
  have hleads := convert_by_actions htitles h hfirst
  rw [List.map_reverse, starts_notice] at hleads
  exact ⟨htitles, hfirst, conversion, h, hleads⟩

end LogCalls.Conversion
