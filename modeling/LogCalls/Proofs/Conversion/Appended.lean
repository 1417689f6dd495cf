/-
LogCalls/Proofs/Conversion/Appended.lean

Conversions line by line.  Where a text ends with the end of a line and leaves
no mention open, what follows it is converted as if it stood alone.

Of the first text everything is done as before: a call that is complete there
is read the same whatever follows (`run_append`).  The second text is seen
with its offsets shifted: each of its mentions is dealt with as in the text
alone (`step_shift`), so its edits are those of its own conversion, shifted
(`run_shift`).  The two groups of edits are apart.

Main result: the conversion of both texts is the two conversions in a row
(`convert_append`).
-/
import LogCalls.Proofs.Conversion.Run
import LogCalls.Proofs.Mention.Appended
import LogCalls.Proofs.Pattern.Spelled
import LogCalls.Proofs.Template.Fill

namespace LogCalls

/-! ### Calls and actions -/

namespace CallSite

/-- The call seen from a text with `n` characters more in front. -/
def shift (n : Nat) (site : CallSite) : CallSite :=
  ⟨site.mention.shift n, site.openParen + n, site.stop + n, site.atoms⟩

/-- A call of a text is one of every text that goes on behind it. -/
theorem ofMention?_append {a : Text} {m : Mention} {site : CallSite} (hm : m ∈ Mention.all a)
    (h : (ofMention? a m).result = .ok (some site)) (b : Text) :
    (ofMention? (a ++ b) m).result = .ok (some site) := by
  obtain ⟨x, r, hx⟩ := Mention.mem_all_iff.mp hm
  rw [hx.text, ofMention?_eq_some_iff hx.start] at h
  obtain ⟨hmention, blanks, argument, r', hr'⟩ := h
  have htext : a ++ b = x ++ m.matched ++ (blanks ++ '(' :: argument ++ [')'] ++ (r' ++ b)) := by
    rw [hx.text, hr'.text, hmention]
    simp
  rw [htext, ofMention?_eq_some_iff hx.start, ← hmention]
  exact ⟨rfl, blanks, argument, r' ++ b, hr'.replace_rest (r' ++ b)⟩

/-- What follows a mention does not depend on what stands before it. -/
theorem ofMention?_shift {b : Text} {m : Mention} (hm : 0 ≤ m.start) (a : Text) :
    (ofMention? (a ++ b) (m.shift a.length)).result =
      (ofMention? b m).result.map (Option.map (shift a.length)) := by
  have hfrom : Text.onFrom (a ++ b) (m.shift a.length).stop = Text.onFrom b m.stop := by
    have hnonneg : 0 ≤ m.stop := by
      rw [Mention.stop]
      omega
    rw [Mention.stop_shift, Text.onFrom_append_add hnonneg]
  rw [ofMention?, ofMention?, hfrom, Logged.result_bind, Logged.result_bind]
  rcases (Argument.read (Text.onFrom b m.stop)).result with e | argument
  · rfl
  · rw [ok_bind, ok_bind]
    by_cases hvalid : argument.valid = true
    · by_cases hgap : Text.trim (gap (Text.onFrom b m.stop)) = []
      · simp only [hvalid, hgap, Bool.not_true, Bool.false_eq_true, if_false, ne_eq,
          not_true_eq_false, Logged.result_pure, map_ok, Option.map_some, shift, Mention.stop_shift,
          Int.add_right_comm m.stop]
      · simp [hvalid, hgap, noteSkipped]
    · simp [hvalid, noteSkipped]

end CallSite

/-- The actions for a call do not depend on where it stands. -/
theorem Action.create_shift {style : Style} {lombok : Bool} {site : CallSite} {severity : String}
    {action : Action} (h : create style lombok site severity = .ok action) (n : Nat) :
    ∃ action', create style lombok (site.shift n) severity = .ok action' ∧
      action'.edits = action.edits.map (Edit.shift n) := by
  obtain ⟨title, replacement, htitle, hreplacement, rfl⟩ := create_eq_ok_iff.mp h
  refine ⟨_, create_eq_ok_iff.mpr ⟨title, replacement, htitle, hreplacement, rfl⟩, ?_⟩
  simp only [editsFor, CallSite.shift, Mention.start_shift, Mention.stop_shift, List.map_cons,
    List.map_nil, Edit.shift, List.cons.injEq, Edit.mk.injEq, and_true, true_and]
  omega

namespace Conversion

variable {style : Style} {forced : Option String} {a b : Text}

/-! ### The first text -/

/-- Every mention in it starts in a taken call: it is converted itself, or it is
nested in one that is. -/
def Settled (t : Text) : Prop :=
  ∀ m ∈ Mention.all t, ∃ site ∈ sites t, site.mention.start ≤ m.start ∧ m.start < site.stop

/-- A step that takes a mention, or skips one in a taken call, does so whatever
follows the text. -/
theorem step_append {p p' : Progress} {m : Mention} (hm : m ∈ Mention.all a)
    (htaken : m.start < p.reached ∨ ∃ site, Takes a p.reached m site)
    (h : (step style forced a p m).result = .ok p') (b : Text) :
    (step style forced (a ++ b) p m).result = .ok p' := by
  rcases step_eq_ok_iff.mp h with ⟨hlt, rfl⟩ | ⟨hle, hnone, -⟩ |
    ⟨site, lombok, action, htakes, hlombok, haction, rfl⟩
  · exact step_eq_ok_iff.mpr (.inl ⟨hlt, rfl⟩)
  · rcases htaken with hlt | ⟨site, -, hsite⟩
    · omega
    · rw [hnone] at hsite
      cases hsite
  · have hstart : m.start ≤ a.length := by
      obtain ⟨x, r, hx⟩ := Mention.mem_all_iff.mp hm
      have hlen := congrArg List.length hx.text
      simp only [List.length_append] at hlen
      rw [hx.start]
      omega
    refine step_eq_ok_iff.mpr (.inr (.inr ⟨site, lombok, action, ⟨htakes.1, ?_⟩, ?_, haction, rfl⟩))
    · exact CallSite.ofMention?_append hm htakes.2 b
    · rwa [Text.upTo_append_of_le (Mention.start_nonneg hm) hstart]

/-- A run over mentions that all start in taken calls goes the same way whatever
follows the text. -/
theorem run_append {ms : List Mention} {p p' : Progress} (hms : ∀ m ∈ ms, m ∈ Mention.all a)
    (hsorted : ms.Pairwise fun m m' => m.start < m'.start)
    (hsettled : ∀ m ∈ ms, m.start < p.reached ∨
      ∃ site ∈ sitesFrom a p.reached ms, site.mention.start ≤ m.start ∧ m.start < site.stop)
    (h : (run style forced a ms p).result = .ok p') (b : Text) :
    (run style forced (a ++ b) ms p).result = .ok p' := by
  induction ms generalizing p with
  | nil => exact h
  | cons m ms ih =>
      rw [run, Logged.result_bind_eq_ok_iff] at h
      obtain ⟨p₁, hstep, hrun⟩ := h
      obtain ⟨hm, hms⟩ := List.forall_mem_cons.mp hms
      obtain ⟨hfirst, hsorted⟩ := List.pairwise_cons.mp hsorted
      obtain ⟨hhead, htail⟩ := List.forall_mem_cons.mp hsettled
      -- the calls taken later start behind `m`, so it is taken itself if it is not nested
      have htaken : m.start < p.reached ∨ ∃ site, Takes a p.reached m site := by
        rcases hhead with hlt | ⟨site, hsite, hstart, -⟩
        · exact .inl hlt
        · refine .inr (Classical.byContradiction fun hnot => ?_)
          rw [sitesFrom_of_not_takes hnot] at hsite
          have := hfirst _ (mention_mem_of_mem_sitesFrom hsite)
          omega
      have hlater : ∀ m' ∈ ms, m'.start < p₁.reached ∨ ∃ site ∈ sitesFrom a p₁.reached ms,
          site.mention.start ≤ m'.start ∧ m'.start < site.stop := by
        intro m' hm'
        rcases step_cases hstep with ⟨hskip, rfl⟩ | ⟨site, _, _, htakes, -, -, rfl⟩
        · rw [sitesFrom_of_not_takes hskip] at htail
          exact htail m' hm'
        · rw [sitesFrom_of_takes htakes] at htail
          rcases htail m' hm' with hlt | ⟨s, hs, hspan⟩
          · have := hfirst m' hm'
            have := htakes.1
            omega
          · rcases List.mem_cons.mp hs with rfl | hs
            · exact .inl hspan.2
            · exact .inr ⟨s, hs, hspan⟩
      exact Logged.result_bind_eq_ok_iff.mpr
        ⟨p₁, step_append hm htaken hstep b, ih hms hsorted hlater hrun⟩

/-! ### The second text -/

/-- A progress `q` that has come as far behind `n` characters and `q₀` as `p`
has from the start. -/
structure Follows (n : Nat) (q₀ p q : Progress) : Prop where
  edits : q.edits = q₀.edits ++ p.edits.map (Edit.shift n)
  reached : max q.reached n = p.reached + n
  converted : q.converted = q₀.converted + p.converted
  skipped : q.skipped = q₀.skipped + p.skipped

theorem Follows.skip {n : Nat} {q₀ p q : Progress} (h : Follows n q₀ p q) :
    Follows n q₀ p.skip q.skip :=
  ⟨h.edits, h.reached, h.converted, by rw [Progress.skip, h.skipped]; rfl⟩

theorem Follows.convert {n : Nat} {q₀ p q : Progress} {site : CallSite} {action action' : Action}
    (h : Follows n q₀ p q) (hstop : 0 ≤ site.stop)
    (hedits : action'.edits = action.edits.map (Edit.shift n)) :
    Follows n q₀ (p.convert site action) (q.convert (site.shift n) action') := by
  refine ⟨?_, ?_, ?_, h.skipped⟩
  · simp only [Progress.convert, h.edits, hedits, List.map_append, List.append_assoc]
  · simp only [Progress.convert, CallSite.shift]
    omega
  · simp only [Progress.convert, h.converted]
    omega

/-- A step behind `a` does what the step in the text alone does. -/
theorem step_shift {q₀ p p' q : Progress} {m : Mention} (hm : m ∈ Mention.all b)
    (hlocal : ∀ u, style.usesLombok (a ++ u) = style.usesLombok u)
    (hfollows : Follows a.length q₀ p q) (h : (step style forced b p m).result = .ok p') :
    ∃ q', (step style forced (a ++ b) q (m.shift a.length)).result = .ok q' ∧
      Follows a.length q₀ p' q' := by
  have hnonneg := Mention.start_nonneg hm
  have hreached := hfollows.reached
  have hstart := Mention.start_shift a.length m
  have hfound := CallSite.ofMention?_shift (b := b) hnonneg a
  rcases step_eq_ok_iff.mp h with ⟨hlt, rfl⟩ | ⟨hle, hnone, rfl⟩ |
    ⟨site, lombok, action, htakes, hlombok, haction, rfl⟩
  · exact ⟨q.skip, step_eq_ok_iff.mpr (.inl ⟨by omega, rfl⟩), hfollows.skip⟩
  · rw [hnone] at hfound
    exact ⟨q.skip, step_eq_ok_iff.mpr (.inr (.inl ⟨by omega, hfound, rfl⟩)), hfollows.skip⟩
  · have hle := htakes.1
    rw [htakes.2] at hfound
    obtain ⟨action', haction', hedits⟩ := Action.create_shift haction a.length
    have hstop : 0 ≤ site.stop := by
      obtain ⟨argument, -, -, -, rfl⟩ := CallSite.result_ofMention?_eq_some_iff.mp htakes.2
      simp only [Mention.stop]
      omega
    refine ⟨q.convert (site.shift a.length) action', ?_, hfollows.convert hstop hedits⟩
    refine step_eq_ok_iff.mpr (.inr (.inr
      ⟨site.shift a.length, lombok, action', ⟨by omega, hfound⟩, ?_, haction', rfl⟩))
    rw [hstart, Text.upTo_append_add hnonneg, hlocal, hlombok]

theorem run_shift {ms : List Mention} {q₀ p p' q : Progress} (hms : ∀ m ∈ ms, m ∈ Mention.all b)
    (hlocal : ∀ u, style.usesLombok (a ++ u) = style.usesLombok u)
    (hfollows : Follows a.length q₀ p q) (h : (run style forced b ms p).result = .ok p') :
    ∃ q', (run style forced (a ++ b) (ms.map (Mention.shift a.length)) q).result = .ok q' ∧
      Follows a.length q₀ p' q' := by
  induction ms generalizing p q with
  | nil =>
      obtain rfl : p = p' := Except.ok.inj h
      exact ⟨q, rfl, hfollows⟩
  | cons m ms ih =>
      rw [run, Logged.result_bind_eq_ok_iff] at h
      obtain ⟨p₁, hstep, hrun⟩ := h
      obtain ⟨hm, hms⟩ := List.forall_mem_cons.mp hms
      obtain ⟨q₁, hstep', hfollows₁⟩ := step_shift hm hlocal hfollows hstep
      obtain ⟨q', hrun', hfollows'⟩ := ih hms hfollows₁ hrun
      exact ⟨q', Logged.result_bind_eq_ok_iff.mpr ⟨q₁, hstep', hrun'⟩, hfollows'⟩

/-! ### Both texts -/

/-- The annotation does not stand on both sides of the end of a line. -/
theorem annotated_append {u : Text} (ha : a.getLast? = some '\n') (hfree : ¬ Style.Annotated a) :
    Style.Annotated (a ++ u) ↔ Style.Annotated u := by
  constructor
  · rintro ⟨x, r, h, hr⟩
    rcases Text.word_before_or_behind ha (by decide) (by decide) h with
      ⟨c, r', hsplit, rfl⟩ | ⟨x', -, hu⟩
    · exact absurd ⟨x, c :: r', hsplit, hr⟩ hfree
    · exact ⟨x', r, hu, hr⟩
  · rintro ⟨x, r, rfl, hr⟩
    exact ⟨a ++ x, r, by simp, hr⟩

/-- The edits of two conversions, those of the second text shifted, make both
texts anew. -/
theorem applyAll_append {csa csb : List Change} {ra rb : Text}
    (hrowa : Row style forced a [] csa) (hrowb : Row style forced b [] csb)
    (ha : a = csa.flatMap Change.old ++ ra) (hb : b = csb.flatMap Change.old ++ rb) :
    Edit.applyAll (a ++ b)
        (csa.flatMap Change.edits ++ (csb.flatMap Change.edits).map (Edit.shift a.length)) =
      .ok (csa.flatMap Change.new ++ ra ++ (csb.flatMap Change.new ++ rb)) := by
  have hle : ((csa.flatMap Change.old).length : Int) ≤ a.length := by
    rw [ha, List.length_append]
    omega
  have hbehind : Edit.Apart (csa.flatMap Change.old).length
      ((csb.flatMap Change.edits).map (Edit.shift a.length)) :=
    (hrowb.apart.shift a.length).mono (by simpa using hle)
  have hsecond : Edit.applyOrdered ((csb.flatMap Change.edits).map (Edit.shift a.length))
      (a ++ b) = a ++ (csb.flatMap Change.new ++ rb) := by
    have hnew := hrowb.applyOrdered_edits rb
    rw [List.nil_append, List.nil_append, ← hb] at hnew
    rw [Edit.applyOrdered_shift hrowb.apart (Int.natCast_nonneg _), hnew]
  have hfirst : Edit.applyOrdered (csa.flatMap Change.edits) (a ++ (csb.flatMap Change.new ++ rb)) =
      csa.flatMap Change.new ++ ra ++ (csb.flatMap Change.new ++ rb) := by
    have hnew := hrowa.applyOrdered_edits (ra ++ (csb.flatMap Change.new ++ rb))
    rwa [List.nil_append, List.nil_append, ← List.append_assoc (csa.flatMap Change.old), ← ha,
      ← List.append_assoc (csa.flatMap Change.new)] at hnew
  rw [Edit.applyAll_of_apart (hrowa.apart_append hbehind), Edit.applyOrdered_append, hsecond,
    hfirst]

/-- **Conversions are made line by line.**  Let a text end with the end of a line
and hold no annotation of a generated logger, and let each of its mentions be
converted or nested in a converted call.  Where it is converted, and a second
text is, the two in a row are converted to the two converted texts in a row, and
the calls that are converted and skipped add up. -/
theorem convert_append {ca cb : Conversion}
    (hpattern : style.lombokPattern = Style.default.lombokPattern)
    (hline : a.getLast? = some '\n') (hfree : ¬ Style.Annotated a) (hsettled : Settled a)
    (ha : (convert style forced a).result = .ok ca)
    (hb : (convert style forced b).result = .ok cb) :
    (convert style forced (a ++ b)).result =
      .ok ⟨ca.text ++ cb.text, ca.converted + cb.converted, ca.skipped + cb.skipped⟩ := by
  have hlocal : ∀ u, style.usesLombok (a ++ u) = style.usesLombok u := by
    intro u
    rw [Style.usesLombok_eq_annotated hpattern, Style.usesLombok_eq_annotated hpattern]
    exact congrArg Except.ok (decide_eq_decide.mpr (annotated_append hline hfree))
  obtain ⟨pa, hruna, happlya, hconva, hskipa⟩ := convert_eq_ok_iff.mp ha
  obtain ⟨pb, hrunb, happlyb, hconvb, hskipb⟩ := convert_eq_ok_iff.mp hb
  obtain ⟨csa, ra, htexta, hrowa, -, hreached, heditsa, -⟩ :=
    exists_row_of_run (fun _ hm => hm) (List.nil_append a).symm rfl hruna
  obtain ⟨csb, rb, htextb, hrowb, -, -, heditsb, -⟩ :=
    exists_row_of_run (fun _ hm => hm) (List.nil_append b).symm rfl hrunb
  rw [List.nil_append] at htexta htextb hreached heditsa heditsb
  -- the first text is converted as before, and the last call in it ends inside of it
  have hfirst : (run style forced (a ++ b) (Mention.all a) {}).result = .ok pa :=
    run_append (p := {}) (fun _ hm => hm) (Mention.pairwise_all a)
      (fun m hm => .inr (hsettled m hm)) hruna b
  have hstart : Follows a.length pa {} pa := by
    refine ⟨by simp, ?_, by simp, by simp⟩
    have hle := congrArg List.length htexta
    rw [List.length_append] at hle
    have hzero : ({} : Progress).reached = 0 := rfl
    omega
  obtain ⟨q, hsecond, hfollows⟩ := run_shift (fun _ hm => hm) hlocal hstart hrunb
  refine convert_eq_ok_iff.mpr ⟨q, ?_, ?_, ?_, ?_⟩
  · rw [Mention.all_append hline, result_run_append, hfirst, ok_bind, hsecond]
  · rw [htexta, heditsa, hrowa.applyAll_edits] at happlya
    rw [htextb, heditsb, hrowb.applyAll_edits] at happlyb
    rw [hfollows.edits, heditsa, heditsb, applyAll_append hrowa hrowb htexta htextb,
      Except.ok.inj happlya, Except.ok.inj happlyb]
  · rw [hconva, hconvb, hfollows.converted]
  · rw [hskipa, hskipb, hfollows.skipped]

/-! ### A line and what follows it -/

/-- A call with a mention in its argument. -/
def nestedLine : Text := "System.out.println(f(System.out.print(k)));\n".toList

/-- A source with a generated logger. -/
def annotatedLine : Text := "@Slf4j class A { void f() { System.err.println(n); } }".toList

theorem convertible_default {t : Text} {m : Mention} {found : Option CallSite}
    (hfound : (CallSite.ofMention? t m).result = .ok found)
    (h : ∀ site, found = some site → ∃ r, Message.replacement site.atoms = .ok r) :
    Convertible Style.default none t m :=
  .of_replacement hfound (Style.usesLombok_eq_annotated rfl _)
    ⟨_, Style.titleFor_default _ _ _⟩ h

theorem not_annotated_nestedLine : ¬ Style.Annotated nestedLine := by
  rintro ⟨x, r, h, -⟩
  have hsign : '@' ∈ nestedLine := by
    rw [h]
    simp
  revert hsign
  decide +kernel

theorem settled_nestedLine : Settled nestedLine := by
  unfold Settled
  decide +kernel

theorem convert_append_nested :
    ∃ ca cb, nestedLine.getLast? = some '\n' ∧
      (convert Style.default none nestedLine).result = .ok ca ∧
      (convert Style.default none annotatedLine).result = .ok cb ∧
      (convert Style.default none (nestedLine ++ annotatedLine)).result =
        .ok ⟨ca.text ++ cb.text, ca.converted + cb.converted, ca.skipped + cb.skipped⟩ := by
  have hmentions : Mention.all nestedLine =
      [⟨0, "System.out.println".toList, .out, "println".toList⟩,
        ⟨21, "System.out.print".toList, .out, "print".toList⟩] := by decide +kernel
  have hmention : Mention.all annotatedLine =
      [⟨28, "System.err.println".toList, .err, "println".toList⟩] := by decide +kernel
  obtain ⟨ca, ha⟩ : ∃ ca, (convert Style.default none nestedLine).result = .ok ca := by
    refine exists_convert_eq_ok ?_
    rw [hmentions, List.forall_mem_cons, List.forall_mem_singleton]
    constructor
    · exact convertible_default rfl (by rintro _ ⟨⟩; exact ⟨_, rfl⟩)
    · exact convertible_default rfl (by rintro _ ⟨⟩; exact ⟨_, rfl⟩)
  obtain ⟨cb, hb⟩ : ∃ cb, (convert Style.default none annotatedLine).result = .ok cb := by
    refine exists_convert_eq_ok ?_
    rw [hmention, List.forall_mem_singleton]
    exact convertible_default rfl (by rintro _ ⟨⟩; exact ⟨_, rfl⟩)
  exact ⟨ca, cb, rfl, ha, hb,
    convert_append rfl rfl not_annotated_nestedLine settled_nestedLine ha hb⟩

end Conversion

end LogCalls
