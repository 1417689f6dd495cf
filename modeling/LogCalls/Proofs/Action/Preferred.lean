/-
LogCalls/Proofs/Action/Preferred.lean

Which of the actions for a call are preferred.  The actions have the severities
that the stream of the call offers, in that order (`map_severity_of_forSite`), and
an action is preferred where its severity is the one that a conversion takes.  So
there are as many preferred actions as the stream lists that severity: at least one,
and exactly one where it is not listed twice (`countP_preferred_of_forSite`).

Main result: `offers_preferred`.
-/
import LogCalls.Proofs.Conversion.Failure
import LogCalls.Settings.Load

namespace LogCalls

/-- Where no severity is forced, a conversion takes the one that the stream prefers. -/
theorem Conversion.Row.severity_eq {style : Style} {t x : Text} {c : Change} {cs : List Change}
    (h : Row style none t x cs) (hc : c ∈ cs) :
    c.severity = (style.severities c.site.mention.stream).preferred := by
  obtain ⟨y, hholds⟩ := h.exists_holds hc
  rw [hholds.severity, if_neg (by simp)]

namespace Action

variable {style : Style} {lombok : Bool} {site : CallSite} {t : Text} {offset : Int}
  {actions : List Action}

/-! ### The actions for a call -/

/-- Actions are offered where the line has a mention that is a call and the actions
for the call can be made. -/
theorem result_offers_eq_some_iff :
    (offers style t offset).result = .ok (some actions) ↔
      ∃ lombok m site, style.usesLombok (Text.upTo t offset) = .ok lombok ∧
        Mention.onLine? t offset = some m ∧ (CallSite.ofMention? t m).result = .ok (some site) ∧
        forSite style lombok site = .ok actions := by
  constructor
  · intro h
    obtain ⟨lombok, hlombok, h⟩ := Logged.result_bind_eq_ok_iff.mp h
    rcases hline : Mention.onLine? t offset with _ | m
    · rw [hline] at h
      cases h
    rw [hline] at h
    obtain ⟨found, hfound, h⟩ := Logged.result_bind_eq_ok_iff.mp h
    rcases found with _ | site
    · cases h
    obtain ⟨as, has, h⟩ := Logged.result_bind_eq_ok_iff.mp h
    obtain rfl := Option.some.inj (Except.ok.inj h)
    exact ⟨lombok, m, site, hlombok, rfl, hfound, has⟩
  · rintro ⟨lombok, m, site, hlombok, hline, hsite, hactions⟩
    simp only [offers, Logged.result_bind, Logged.result_liftM, hlombok, ok_bind, hline, hsite,
      hactions, Logged.result_pure]

theorem exists_forSite_of_offers (h : (offers style t offset).result = .ok (some actions)) :
    ∃ lombok site, Mention.onLine? t offset = some site.mention ∧
      forSite style lombok site = .ok actions := by
  obtain ⟨lombok, m, site, -, hline, hsite, hactions⟩ := result_offers_eq_some_iff.mp h
  obtain rfl : site.mention = m := Conversion.Takes.mention ⟨Int.le_refl _, hsite⟩
  exact ⟨lombok, site, hline, hactions⟩

/-- Actions are offered for a call whose replacement and titles can be made. -/
theorem exists_offers {m : Mention} {replacement : Text}
    (hlombok : style.usesLombok (Text.upTo t offset) = .ok lombok)
    (hline : Mention.onLine? t offset = some m)
    (hsite : (CallSite.ofMention? t m).result = .ok (some site))
    (hreplacement : Message.replacement site.atoms = .ok replacement)
    (htitle : ∀ severity, ∃ title,
      style.titleFor (style.loggerFor lombok) severity site.mention = .ok title) :
    ∃ actions, (offers style t offset).result = .ok (some actions) := by
  obtain ⟨actions, hactions⟩ : ∃ actions, forSite style lombok site = .ok actions := by
    refine exists_mapM_eq_ok_iff.mpr fun severity _ => ?_
    obtain ⟨title, htitle⟩ := htitle severity
    exact ⟨_, create_eq_ok_iff.mpr ⟨title, replacement, htitle, hreplacement, rfl⟩⟩
  exact ⟨actions, result_offers_eq_some_iff.mpr ⟨_, _, _, hlombok, hline, hsite, hactions⟩⟩

theorem map_severity_of_forSite (h : forSite style lombok site = .ok actions) :
    actions.map severity = (style.severities site.mention.stream).offered := by
  refine map_of_mapM_eq_ok (fun severity a ha => ?_) h
  obtain ⟨title, replacement, -, -, rfl⟩ := create_eq_ok_iff.mp ha
  rfl

theorem preferred_iff_of_forSite (h : forSite style lombok site = .ok actions) {a : Action}
    (ha : a ∈ actions) :
    a.preferred = true ↔ a.severity = (style.severities site.mention.stream).preferred := by
  obtain ⟨severity, -, hcreate⟩ := (mem_iff_of_mapM_eq_ok h).mp ha
  obtain ⟨title, replacement, -, -, rfl⟩ := create_eq_ok_iff.mp hcreate
  exact beq_iff_eq

/-- As many actions are preferred as the stream lists the severity that a conversion
takes. -/
theorem countP_preferred_of_forSite (h : forSite style lombok site = .ok actions) :
    actions.countP preferred = (style.severities site.mention.stream).offered.count
      (style.severities site.mention.stream).preferred := by
  -- to count severities that are offered is to count the actions that have them
  rw [← map_severity_of_forSite h, List.count, List.countP_map]
  refine List.countP_congr fun a ha => ?_
  rw [preferred_iff_of_forSite h ha, Function.comp_apply, beq_iff_eq]

/-! ### The actions that are offered -/

/-- **Preferred actions.**  Where actions are offered, as many of them are preferred as
the stream of the call lists the severity that a conversion takes, which is at least
one.  They are those that write this severity, and where none is forced all converted
calls of the stream get it, in any text. -/
theorem offers_preferred (h : (offers style t offset).result = .ok (some actions)) :
    ∃ m, Mention.onLine? t offset = some m ∧
      actions.countP preferred =
        (style.severities m.stream).offered.count (style.severities m.stream).preferred ∧
      0 < actions.countP preferred ∧
      (∀ a ∈ actions, a.preferred = true ↔
        a.severity = Conversion.severityFor style none m.stream) ∧
      ∀ u conversion, (convert style none u).result = .ok conversion →
        ∃ (cs : List Conversion.Change) (r : Text), u = cs.flatMap Conversion.Change.old ++ r ∧
          conversion.text = cs.flatMap Conversion.Change.new ++ r ∧
          Conversion.Row style none u [] cs ∧ cs.map Conversion.Change.site = Conversion.sites u ∧
          ∀ c ∈ cs, c.site.mention.stream = m.stream →
            ∀ a ∈ actions, a.preferred = true → c.severity = a.severity := by
  obtain ⟨lombok, site, hline, hactions⟩ := exists_forSite_of_offers h
  have hcount := countP_preferred_of_forSite hactions
  refine ⟨site.mention, hline, hcount, ?_, fun a ha => ?_, fun u conversion hu => ?_⟩
  · rw [hcount]
    exact List.count_pos_iff.mpr (style.severities site.mention.stream).preferred_mem
  · rw [preferred_iff_of_forSite hactions ha, Conversion.severityFor_eq, if_neg (by simp)]
  · obtain ⟨cs, r, htext, hnew, hrow, hsites, -⟩ := Conversion.exists_row_of_convert hu
    refine ⟨cs, r, htext, hnew, hrow, hsites, fun c hc hstream a ha hpreferred => ?_⟩
    rw [hrow.severity_eq hc, hstream, (preferred_iff_of_forSite hactions ha).mp hpreferred]

/-! ### A severity that is listed twice -/

/-- The usual style, but for the severities of the standard output. -/
def withOut (out : Severities) : Style := { Style.default with out }

theorem onLine?_printOf :
    Mention.onLine? (Conversion.printOf ['x']) 0 = some Conversion.printMention := by
  decide +kernel

/-- The actions for the one call are made, whatever severities there are. -/
theorem exists_offers_withOut (out : Severities) :
    ∃ actions, (offers (withOut out) (Conversion.printOf ['x']) 0).result = .ok (some actions) := by
  have hlombok : (withOut out).usesLombok (Text.upTo (Conversion.printOf ['x']) 0) = .ok false :=
    Style.usesLombok_eq_ok_iff.mpr ⟨_, Style.read_lombokPattern_default, rfl⟩
  have hsite : (CallSite.ofMention? (Conversion.printOf ['x']) Conversion.printMention).result =
      .ok (some ⟨Conversion.printMention, 18, 21, [.expression ['x']]⟩) := rfl
  exact exists_offers hlombok onLine?_printOf hsite rfl fun _ => ⟨_, Style.titleFor_default _ _ _⟩

theorem offers_preferred_usual :
    ∃ actions,
      (offers Style.default (Conversion.printOf ['x']) 0).result = .ok (some actions) ∧
      actions.countP preferred = 1 ∧
      ∀ a ∈ actions, a.preferred = true → a.severity = "debug" := by
  obtain ⟨actions, h⟩ := exists_offers_withOut Style.defaultOut
  obtain ⟨m, hm, hcount, -, hseverity, -⟩ := offers_preferred h
  obtain rfl := Option.some.inj (onLine?_printOf.symm.trans hm)
  exact ⟨actions, h, hcount, fun a ha => (hseverity a ha).mp⟩

/-- The severities of a stream that lists the one it prefers twice. -/
def repeated : Severities := ⟨["debug", "debug"], "debug", by simp⟩

/-- The settings for a severity that is listed twice are accepted, and both its
actions are preferred. -/
theorem offers_repeated :
    Settings.ofMapping [(.text "rewrite", .mapping [(.text "out", .mapping [
        (.text "severities", .list [.text "debug", .text "debug"]),
        (.text "preferred", .text "debug")])])] = .ok (withOut repeated, RunOptions.default) ∧
      ∃ actions,
        (offers (withOut repeated) (Conversion.printOf ['x']) 0).result = .ok (some actions) ∧
        actions.countP preferred = 2 := by
  refine ⟨rfl, ?_⟩
  obtain ⟨actions, h⟩ := exists_offers_withOut repeated
  obtain ⟨lombok, site, hline, hactions⟩ := exists_forSite_of_offers h
  have hmention : site.mention = Conversion.printMention :=
    Option.some.inj (hline.symm.trans onLine?_printOf)
  refine ⟨actions, h, ?_⟩
  rw [countP_preferred_of_forSite hactions, hmention]
  rfl

end Action

end LogCalls
