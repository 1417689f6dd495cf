/-
LogCalls/Proofs/Conversion/Run.lean

A conversion as a whole.  Going through the mentions from left to right, a step
takes a mention that starts behind the last taken call and is a call itself, and
skips every other one (`step_cases`).  So a run takes the calls of `sites`, and
what it collects are the edits of changes in a row (`exists_row_of_run`).

A run looks at the mentions that no taken call before them reaches beyond, and
gets to its end where it can deal with each of these (`exists_run_eq_ok_iff`).
Its edits are then applied without a fault, so the same holds of a conversion
(`exists_convert_eq_ok_iff`).

Main result: a conversion writes every taken call anew and leaves all other text
as it was (`convert_changes_calls_only`).
-/
import LogCalls.Proofs.Conversion.Change
import LogCalls.Proofs.Mention.Places

namespace LogCalls.Conversion

/-! ### The calls that are taken -/

/-- A mention is taken as a call: it does not start before the end of the last
taken one. -/
def Takes (t : Text) (reached : Int) (m : Mention) (site : CallSite) : Prop :=
  reached ≤ m.start ∧ (CallSite.ofMention? t m).result = .ok (some site)

/-- The calls that are taken among some mentions. -/
def sitesFrom (t : Text) : (reached : Int) → List Mention → List CallSite
  | _, [] => []
  | reached, m :: ms =>
    if m.start < reached then sitesFrom t reached ms
    else
      match (CallSite.ofMention? t m).result with
      | .ok (some site) => site :: sitesFrom t site.stop ms
      | _ => sitesFrom t reached ms

/-- The calls of a text that are taken. -/
def sites (t : Text) : List CallSite := sitesFrom t 0 (Mention.all t)

section

variable {t : Text} {reached : Int} {m : Mention} {ms : List Mention} {site : CallSite}

theorem Takes.mention (h : Takes t reached m site) : site.mention = m := by
  obtain ⟨a, -, -, -, rfl⟩ := CallSite.result_ofMention?_eq_some_iff.mp h.2
  rfl

theorem sitesFrom_of_takes (h : Takes t reached m site) :
    sitesFrom t reached (m :: ms) = site :: sitesFrom t site.stop ms := by
  rw [sitesFrom, if_neg (Int.not_lt.mpr h.1), h.2]

theorem sitesFrom_of_not_takes (h : ¬ ∃ site, Takes t reached m site) :
    sitesFrom t reached (m :: ms) = sitesFrom t reached ms := by
  rw [sitesFrom]
  by_cases hlt : m.start < reached
  · rw [if_pos hlt]
  · rw [if_neg hlt]
    split
    · rename_i site hsite
      exact absurd ⟨site, Int.not_lt.mp hlt, hsite⟩ h
    · rfl

theorem mention_mem_of_mem_sitesFrom (h : site ∈ sitesFrom t reached ms) : site.mention ∈ ms := by
  induction ms generalizing reached with
  | nil => cases h
  | cons m ms ih =>
      by_cases htakes : ∃ site, Takes t reached m site
      · obtain ⟨s, hs⟩ := htakes
        rw [sitesFrom_of_takes hs] at h
        rcases List.mem_cons.mp h with rfl | h
        · rw [hs.mention]
          exact List.mem_cons_self
        · exact List.mem_cons_of_mem m (ih h)
      · rw [sitesFrom_of_not_takes htakes] at h
        exact List.mem_cons_of_mem m (ih h)

/-- A mention is looked at: it does not start before the end of a call that is
taken before it. -/
def Visited (t : Text) (reached : Int) (ms : List Mention) (m : Mention) : Prop :=
  reached ≤ m.start ∧
    ∀ site ∈ sitesFrom t reached ms, site.mention.start < m.start → site.stop ≤ m.start

/-- The first mention is looked at unless it starts inside of an earlier call. -/
theorem visited_head_iff (hms : (m :: ms).Pairwise fun a b => a.start < b.start) :
    Visited t reached (m :: ms) m ↔ reached ≤ m.start := by
  refine ⟨And.left, fun h => ⟨h, fun s hs hlt => ?_⟩⟩
  rcases List.mem_cons.mp (mention_mem_of_mem_sitesFrom hs) with heq | hmem
  · rw [heq] at hlt
    omega
  · have := (List.pairwise_cons.mp hms).1 _ hmem
    omega

theorem visited_iff_of_takes {m' : Mention} (h : Takes t reached m site)
    (hlt : m.start < m'.start) :
    Visited t reached (m :: ms) m' ↔ Visited t site.stop ms m' := by
  have hreached := h.1
  rw [Visited, sitesFrom_of_takes h, List.forall_mem_cons, h.mention]
  constructor
  · rintro ⟨-, hstop, hall⟩
    exact ⟨hstop hlt, hall⟩
  · rintro ⟨hstop, hall⟩
    exact ⟨by omega, fun _ => hstop, hall⟩

theorem visited_iff_of_not_takes {m' : Mention} (h : ¬ ∃ site, Takes t reached m site) :
    Visited t reached (m :: ms) m' ↔ Visited t reached ms m' := by
  rw [Visited, Visited, sitesFrom_of_not_takes h]

/-- A mention is taken where it is looked at and is a call. -/
theorem exists_mem_sitesFrom_iff (hms : ms.Pairwise fun a b => a.start < b.start) (hm : m ∈ ms) :
    (∃ s ∈ sitesFrom t reached ms, s.mention = m) ↔
      reached ≤ m.start ∧
        (∀ s ∈ sitesFrom t reached ms, s.mention.start < m.start → s.stop ≤ m.start) ∧
        ∃ s, (CallSite.ofMention? t m).result = .ok (some s) := by
  rw [← and_assoc]
  change _ ↔ Visited t reached ms m ∧ _
  induction ms generalizing reached with
  | nil => cases hm
  | cons a ms ih =>
      obtain ⟨ha, htail⟩ := List.pairwise_cons.mp hms
      have hlater : ∀ {low : Int}, ∀ s ∈ sitesFrom t low ms, a.start < s.mention.start := by
        intro low s hs
        exact ha _ (mention_mem_of_mem_sitesFrom hs)
      by_cases htakes : ∃ site, Takes t reached a site
      · obtain ⟨s₀, hs₀⟩ := htakes
        rcases List.mem_cons.mp hm with rfl | hm
        · rw [visited_head_iff hms]
          refine iff_of_true ⟨s₀, ?_, hs₀.mention⟩ ⟨hs₀.1, s₀, hs₀.2⟩
          rw [sitesFrom_of_takes hs₀]
          exact List.mem_cons_self
        · have hlt := ha m hm
          have hne : s₀.mention ≠ m := by
            rw [hs₀.mention]
            rintro rfl
            omega
          rw [visited_iff_of_takes hs₀ hlt, ← ih htail hm, sitesFrom_of_takes hs₀]
          simp [hne]
      · rcases List.mem_cons.mp hm with rfl | hm
        · rw [visited_head_iff hms, sitesFrom_of_not_takes htakes]
          refine iff_of_false ?_ ?_
          · rintro ⟨s, hs, hmention⟩
            have := hlater s hs
            rw [hmention] at this
            omega
          · rintro ⟨hreached, s, hs⟩
            exact htakes ⟨s, hreached, hs⟩
        · rw [visited_iff_of_not_takes htakes, sitesFrom_of_not_takes htakes]
          exact ih htail hm

end

/-! ### One step -/

section

variable {style : Style} {forced : Option String} {t : Text}

theorem severityFor_eq (style : Style) (forced : Option String) (stream : Stream) :
    severityFor style forced stream =
      if stream = .out ∧ forced.getD "" ≠ "" then forced.getD ""
      else (style.severities stream).preferred := by
  rcases forced with _ | severity
  · simp [severityFor]
  · cases stream with
    | out => by_cases h : severity = "" <;> simp [severityFor, h, Style.severities]
    | err => simp [severityFor]

/-- A step skips a mention inside of the last taken call and one that is no
call, and converts the call of any other one. -/
theorem step_eq_ok_iff {p p' : Progress} {m : Mention} :
    (step style forced t p m).result = .ok p' ↔
      (m.start < p.reached ∧ p' = p.skip) ∨
        (p.reached ≤ m.start ∧ (CallSite.ofMention? t m).result = .ok none ∧ p' = p.skip) ∨
        ∃ site lombok action, Takes t p.reached m site ∧
          style.usesLombok (Text.upTo t m.start) = .ok lombok ∧
          Action.create style lombok site (severityFor style forced m.stream) = .ok action ∧
          p' = p.convert site action := by
  rw [step]
  by_cases hlt : m.start < p.reached
  · have hnot : ¬ p.reached ≤ m.start := Int.not_le.mpr hlt
    simp only [hlt, if_true, Logged.result_pure, Except.ok.injEq, Takes, hnot, false_and,
      exists_false, or_false, true_and]
    exact eq_comm
  · have hle : p.reached ≤ m.start := Int.not_lt.mp hlt
    rw [if_neg hlt, Logged.result_bind_eq_ok_iff]
    simp only [hlt, hle, Takes, false_and, false_or, true_and]
    constructor
    · rintro ⟨_ | site, hfound, h⟩
      · exact .inl ⟨hfound, (Except.ok.inj h).symm⟩
      · simp only [Logged.result_bind_eq_ok_iff, Logged.result_liftM, Logged.result_pure] at h
        obtain ⟨lombok, hlombok, action, haction, hp⟩ := h
        exact .inr ⟨site, lombok, action, hfound, hlombok, haction, (Except.ok.inj hp).symm⟩
    · rintro (⟨hfound, rfl⟩ | ⟨site, lombok, action, hfound, hlombok, haction, rfl⟩)
      · exact ⟨none, hfound, rfl⟩
      · refine ⟨some site, hfound, ?_⟩
        simp only [Logged.result_bind, Logged.result_liftM, hlombok, haction, ok_bind,
          Logged.result_pure]

/-- What a step can do: skip a mention that is not taken, or convert the call
that is. -/
theorem step_cases {p p' : Progress} {m : Mention}
    (h : (step style forced t p m).result = .ok p') :
    ((¬ ∃ site, Takes t p.reached m site) ∧ p' = p.skip) ∨
      ∃ site lombok action, Takes t p.reached m site ∧
        style.usesLombok (Text.upTo t m.start) = .ok lombok ∧
        Action.create style lombok site (severityFor style forced m.stream) = .ok action ∧
        p' = p.convert site action := by
  rcases step_eq_ok_iff.mp h with ⟨hlt, rfl⟩ | ⟨-, hnone, rfl⟩ | hconvert
  · refine .inl ⟨?_, rfl⟩
    rintro ⟨site, hreached, -⟩
    omega
  · refine .inl ⟨?_, rfl⟩
    rintro ⟨site, -, hsite⟩
    rw [hnone] at hsite
    cases hsite
  · exact .inr hconvert

/-- A call that is converted behind `x` is a change that holds there, with the
edits of its action. -/
theorem exists_change {x y : Text} {m : Mention} {site : CallSite} {lombok : Bool}
    {action : Action} (htext : t = x ++ y) (hm : m ∈ Mention.all t)
    (htakes : Takes t x.length m site)
    (hlombok : style.usesLombok (Text.upTo t m.start) = .ok lombok)
    (haction : Action.create style lombok site (severityFor style forced m.stream) = .ok action) :
    ∃ (c : Change) (r : Text), c.Holds style forced t x ∧ c.site = site ∧
      c.edits = action.edits ∧ t = x ++ c.old ++ r := by
  obtain ⟨a, b, hab⟩ := Mention.mem_all_iff.mp hm
  -- the call does not start before `x` ends
  obtain ⟨gap, rfl⟩ : ∃ gap, a = x ++ gap := by
    have hle : x.length ≤ a.length := by
      have := htakes.1
      rw [hab.start] at this
      omega
    have ha : a <+: t := ⟨m.matched ++ b, by rw [hab.text, List.append_assoc]⟩
    have hx : x <+: t := ⟨y, htext.symm⟩
    obtain ⟨gap, hgap⟩ := List.prefix_of_prefix_length_le hx ha hle
    exact ⟨gap, hgap.symm⟩
  have hsite := htakes.2
  rw [hab.text, CallSite.ofMention?_eq_some_iff hab.start, ← hab.text] at hsite
  obtain ⟨rfl, blanks, argument, r, hr⟩ := hsite
  obtain ⟨title, replacement, -, hreplacement, rfl⟩ := Action.create_eq_ok_iff.mp haction
  rw [hab.text, hab.start, List.append_assoc, Text.upTo_length_append] at hlombok
  obtain ⟨p, hp, hoccurs⟩ := Style.usesLombok_eq_ok_iff.mp hlombok
  refine ⟨⟨gap, site, blanks, argument, style.loggerFor lombok,
    severityFor style forced site.mention.stream, replacement⟩, r, ?_, rfl, rfl, ?_⟩
  · exact ⟨hm, ⟨r, hr⟩, hreplacement, severityFor_eq _ _ _, p, hp, by rw [hoccurs]; rfl⟩
  · rw [hr.text]
    simp [Change.old, Change.call]

/-! ### The whole run -/

/-- A run over mentions in two parts. -/
theorem result_run_append (ms ms' : List Mention) (p : Progress) :
    (run style forced t (ms ++ ms') p).result =
      (run style forced t ms p).result >>= fun q => (run style forced t ms' q).result := by
  induction ms generalizing p with
  | nil => rfl
  | cons m ms ih =>
      rw [List.cons_append, run, run, Logged.result_bind, Logged.result_bind]
      rcases (step style forced t p m).result with e | p'
      · rfl
      · exact ih p'

/-- What a run from some progress on adds to it. -/
theorem exists_row_of_run {ms : List Mention} {p p' : Progress} {x y : Text}
    (hms : ∀ m ∈ ms, m ∈ Mention.all t) (htext : t = x ++ y) (hreached : p.reached = x.length)
    (h : (run style forced t ms p).result = .ok p') :
    ∃ cs r, t = x ++ cs.flatMap Change.old ++ r ∧ Row style forced t x cs ∧
      cs.map Change.site = sitesFrom t x.length ms ∧
      p'.reached = (x ++ cs.flatMap Change.old).length ∧
      p'.edits = p.edits ++ cs.flatMap Change.edits ∧
      p'.converted = p.converted + cs.length ∧
      p'.converted + p'.skipped = p.converted + p.skipped + ms.length := by
  induction ms generalizing p x y with
  | nil =>
      obtain rfl : p = p' := Except.ok.inj h
      exact ⟨[], y, by simpa using htext, trivial, rfl, by simpa using hreached, by simp, rfl, rfl⟩
  | cons m ms ih =>
      rw [run, Logged.result_bind_eq_ok_iff] at h
      obtain ⟨p₁, hstep, hrun⟩ := h
      obtain ⟨hm, hms⟩ := List.forall_mem_cons.mp hms
      rcases step_cases hstep with ⟨hskip, rfl⟩ | ⟨site, lombok, action, htakes, hlombok, hact, rfl⟩
      · have hreached' : p.skip.reached = x.length := hreached
        obtain ⟨cs, r, htail, hrow, hsites, hend, hedits, hconverted, hcount⟩ :=
          ih hms htext hreached' hrun
        rw [hreached] at hskip
        refine ⟨cs, r, htail, hrow, ?_, hend, hedits, hconverted, ?_⟩
        · rw [hsites, sitesFrom_of_not_takes hskip]
        · rw [hcount]
          simp only [Progress.skip, List.length_cons]
          omega
      · rw [hreached] at htakes
        obtain ⟨c, rest, hc, rfl, hedits₁, htext₁⟩ := exists_change htext hm htakes hlombok hact
        obtain ⟨cs, r, htail, hrow, hsites, hend, hedits, hconverted, hcount⟩ :=
          ih hms htext₁ hc.stop hrun
        refine ⟨c :: cs, r, ?_, ⟨hc, hrow⟩, ?_, ?_, ?_, ?_, ?_⟩
        · rw [htail]
          simp
        · rw [List.map_cons, hsites, sitesFrom_of_takes htakes, hc.stop]
        · rw [hend, List.flatMap_cons, List.append_assoc]
        · rw [hedits, List.flatMap_cons, hedits₁]
          simp [Progress.convert]
        · rw [hconverted, List.length_cons]
          simp only [Progress.convert]
          omega
        · rw [hcount, List.length_cons]
          simp only [Progress.convert]
          omega

/-- A conversion goes through all mentions and makes the edits that it has
collected. -/
theorem convert_eq_ok_iff {c : Conversion} :
    (convert style forced t).result = .ok c ↔
      ∃ p, (run style forced t (Mention.all t) {}).result = .ok p ∧
        Edit.applyAll t p.edits = .ok c.text ∧
        c.converted = p.converted ∧ c.skipped = p.skipped := by
  simp only [convert, Logged.result_bind_eq_ok_iff, Logged.result_note, Logged.result_liftM,
    Logged.result_pure]
  refine exists_congr fun p => and_congr_right fun _ => ?_
  constructor
  · rintro ⟨-, -, text, happly, hc⟩
    obtain rfl := Except.ok.inj hc
    exact ⟨happly, rfl, rfl⟩
  · rintro ⟨happly, hconverted, hskipped⟩
    refine ⟨(), trivial, c.text, happly, ?_⟩
    rw [← hconverted, ← hskipped]

/-- A conversion applies changes in a row to the calls that are taken. -/
theorem exists_row_of_convert {c : Conversion} (h : (convert style forced t).result = .ok c) :
    ∃ cs r, t = cs.flatMap Change.old ++ r ∧ c.text = cs.flatMap Change.new ++ r ∧
      Row style forced t [] cs ∧ cs.map Change.site = sites t ∧
      c.converted = cs.length ∧ c.converted + c.skipped = (Mention.all t).length := by
  obtain ⟨p, hrun, happly, hconv, hskip⟩ := convert_eq_ok_iff.mp h
  obtain ⟨cs, r, htext, hrow, hsites, -, hedits, hconverted, hcount⟩ :=
    exists_row_of_run (fun _ hm => hm) (List.nil_append t).symm rfl hrun
  rw [List.nil_append] at htext
  rw [hedits, List.nil_append, htext, hrow.applyAll_edits] at happly
  refine ⟨cs, r, htext, (Except.ok.inj happly).symm, hrow, hsites, ?_, ?_⟩
  · rw [hconv, hconverted, Nat.zero_add]
  · rw [hconv, hskip, hcount]
    exact Nat.zero_add _

/-- A conversion converts the calls of the text. -/
theorem converted_eq_length_sites {c : Conversion}
    (h : (convert style forced t).result = .ok c) : c.converted = (sites t).length := by
  obtain ⟨cs, -, -, -, -, hsites, hconverted, -⟩ := exists_row_of_convert h
  rw [hconverted, ← hsites, List.length_map]

/-! ### When a conversion gives a text -/

/-- A step can deal with a mention: it can be read, and where it is a call, an
action is made for it. -/
def Convertible (style : Style) (forced : Option String) (t : Text) (m : Mention) : Prop :=
  ∃ found, (CallSite.ofMention? t m).result = .ok found ∧
    ∀ site, found = some site → ∃ lombok action,
      style.usesLombok (Text.upTo t m.start) = .ok lombok ∧
      Action.create style lombok site (severityFor style forced m.stream) = .ok action

theorem Convertible.of_replacement {m : Mention} {found : Option CallSite} {lombok : Bool}
    (hfound : (CallSite.ofMention? t m).result = .ok found)
    (hlombok : style.usesLombok (Text.upTo t m.start) = .ok lombok)
    (htitle : ∃ title, style.titleFor (style.loggerFor lombok)
      (severityFor style forced m.stream) m = .ok title)
    (h : ∀ site, found = some site → ∃ r, Message.replacement site.atoms = .ok r) :
    Convertible style forced t m := by
  refine ⟨found, hfound, fun site hsite => ?_⟩
  obtain ⟨r, hr⟩ := h site hsite
  obtain ⟨title, htitle⟩ := htitle
  obtain ⟨_, -, -, -, rfl⟩ := CallSite.result_ofMention?_eq_some_iff.mp (hsite ▸ hfound)
  exact ⟨lombok, _, hlombok, Action.create_eq_ok_iff.mpr ⟨title, r, htitle, hr, rfl⟩⟩

/-- A step deals with a mention that it looks at where it can, and with every
other one. -/
theorem exists_step_eq_ok_iff {p : Progress} {m : Mention} :
    (∃ p', (step style forced t p m).result = .ok p') ↔
      (p.reached ≤ m.start → Convertible style forced t m) := by
  by_cases hlt : m.start < p.reached
  · refine iff_of_true ⟨p.skip, step_eq_ok_iff.mpr (.inl ⟨hlt, rfl⟩)⟩ fun hle => ?_
    omega
  · have hle := Int.not_lt.mp hlt
    simp only [hle, true_imp_iff]
    constructor
    · rintro ⟨p', h⟩
      rcases step_eq_ok_iff.mp h with ⟨hlt', -⟩ | ⟨-, hnone, -⟩ |
        ⟨site, lombok, action, htakes, hlombok, haction, -⟩
      · exact absurd hlt' hlt
      · exact ⟨none, hnone, fun _ h => nomatch h⟩
      · refine ⟨some site, htakes.2, ?_⟩
        rintro _ ⟨⟩
        exact ⟨lombok, action, hlombok, haction⟩
    · rintro ⟨_ | site, hfound, hsite⟩
      · exact ⟨p.skip, step_eq_ok_iff.mpr (.inr (.inl ⟨hle, hfound, rfl⟩))⟩
      · obtain ⟨lombok, action, hlombok, haction⟩ := hsite site rfl
        exact ⟨p.convert site action, step_eq_ok_iff.mpr
          (.inr (.inr ⟨site, lombok, action, ⟨hle, hfound⟩, hlombok, haction, rfl⟩))⟩

/-- A run gets to its end where it can deal with every mention that it looks at. -/
theorem exists_run_eq_ok_iff {ms : List Mention} {p : Progress}
    (hms : ms.Pairwise fun a b => a.start < b.start) :
    (∃ p', (run style forced t ms p).result = .ok p') ↔
      ∀ m ∈ ms, Visited t p.reached ms m → Convertible style forced t m := by
  induction ms generalizing p with
  | nil => exact iff_of_true ⟨p, rfl⟩ (List.forall_mem_nil _)
  | cons m ms ih =>
      obtain ⟨hm, htail⟩ := List.pairwise_cons.mp hms
      rw [List.forall_mem_cons, visited_head_iff hms, ← exists_step_eq_ok_iff (p := p)]
      have hlater : ∀ {p₁}, (step style forced t p m).result = .ok p₁ →
          ((∃ p', (run style forced t ms p₁).result = .ok p') ↔
            ∀ m' ∈ ms, Visited t p.reached (m :: ms) m' → Convertible style forced t m') := by
        intro p₁ hstep
        rw [ih htail]
        refine forall₂_congr fun m' hm' => imp_congr_left ?_
        rcases step_cases hstep with ⟨hskip, rfl⟩ | ⟨site, _, _, htakes, -, -, rfl⟩
        · exact (visited_iff_of_not_takes hskip).symm
        · exact (visited_iff_of_takes htakes (hm m' hm')).symm
      simp only [run, Logged.result_bind_eq_ok_iff]
      constructor
      · rintro ⟨p', p₁, hstep, hrun⟩
        exact ⟨⟨p₁, hstep⟩, (hlater hstep).mp ⟨p', hrun⟩⟩
      · rintro ⟨⟨p₁, hstep⟩, hall⟩
        obtain ⟨p', hrun⟩ := (hlater hstep).mpr hall
        exact ⟨p', p₁, hstep, hrun⟩

/-- The edits that a run collects never overlap. -/
theorem applyAll_of_run {p : Progress}
    (h : (run style forced t (Mention.all t) {}).result = .ok p) :
    Edit.applyAll t p.edits = .ok (Edit.applyOrdered p.edits t) := by
  obtain ⟨cs, r, -, hrow, -, -, hedits, -⟩ :=
    exists_row_of_run (fun _ hm => hm) (List.nil_append t).symm rfl h
  rw [hedits, List.nil_append, Edit.applyAll_of_apart hrow.apart]

/-- The conversion of a text with one mention that is a call. -/
theorem result_convert_of_single {m : Mention} {site : CallSite} {lombok : Bool} {action : Action}
    (hall : Mention.all t = [m]) (htakes : Takes t 0 m site)
    (hlombok : style.usesLombok (Text.upTo t m.start) = .ok lombok)
    (haction : Action.create style lombok site (severityFor style forced m.stream) = .ok action) :
    (convert style forced t).result = .ok ⟨Edit.applyOrdered action.edits t, 1, 0⟩ := by
  have hstep : (step style forced t {} m).result = .ok (Progress.convert {} site action) :=
    step_eq_ok_iff.mpr (.inr (.inr ⟨site, lombok, action, htakes, hlombok, haction, rfl⟩))
  have hrun : (run style forced t (Mention.all t) {}).result =
      .ok (Progress.convert {} site action) := by
    rw [hall, run, Logged.result_bind_eq_ok_iff]
    exact ⟨_, hstep, rfl⟩
  exact convert_eq_ok_iff.mpr ⟨_, hrun, applyAll_of_run hrun, rfl, rfl⟩

/-- A conversion gives a text where it can deal with every mention that it looks
at. -/
theorem exists_convert_eq_ok_iff :
    (∃ c, (convert style forced t).result = .ok c) ↔
      ∀ m ∈ Mention.all t, Visited t 0 (Mention.all t) m → Convertible style forced t m := by
  refine Iff.trans ⟨?_, ?_⟩ (exists_run_eq_ok_iff (p := {}) (Mention.pairwise_all t))
  · rintro ⟨c, h⟩
    obtain ⟨p, hrun, -⟩ := convert_eq_ok_iff.mp h
    exact ⟨p, hrun⟩
  · rintro ⟨p, hrun⟩
    exact ⟨⟨_, p.converted, p.skipped⟩,
      convert_eq_ok_iff.mpr ⟨p, hrun, applyAll_of_run hrun, rfl, rfl⟩⟩

theorem exists_convert_eq_ok (h : ∀ m ∈ Mention.all t, Convertible style forced t m) :
    ∃ c, (convert style forced t).result = .ok c :=
  exists_convert_eq_ok_iff.mpr fun m hm _ => h m hm

/-! ### What a conversion changes -/

/-- **Conversions change calls only.**  Where a conversion gives a text, the old
text falls into gaps and calls, and the new text into the same gaps and new
calls.  The calls are those of the mentions that start behind all calls before
them and are followed by an argument, and every mention is counted. -/
theorem convert_changes_calls_only {c : Conversion}
    (h : (convert style forced t).result = .ok c) :
    ∃ cs r, t = cs.flatMap Change.old ++ r ∧ c.text = cs.flatMap Change.new ++ r ∧
      Row style forced t [] cs ∧
      (∀ m ∈ Mention.all t, (∃ d ∈ cs, d.site.mention = m) ↔
        (∀ d ∈ cs, d.site.mention.start < m.start → d.site.stop ≤ m.start) ∧
        ∃ site, (CallSite.ofMention? t m).result = .ok (some site)) ∧
      c.converted = cs.length ∧ c.converted + c.skipped = (Mention.all t).length := by
  obtain ⟨cs, r, htext, hnew, hrow, hsites, hcounts⟩ := exists_row_of_convert h
  refine ⟨cs, r, htext, hnew, hrow, fun m hm => ?_, hcounts⟩
  have hiff : (∃ s ∈ sites t, s.mention = m) ↔ 0 ≤ m.start ∧
      (∀ s ∈ sites t, s.mention.start < m.start → s.stop ≤ m.start) ∧
      ∃ s, (CallSite.ofMention? t m).result = .ok (some s) :=
    exists_mem_sitesFrom_iff (Mention.pairwise_all t) hm
  rw [← hsites, List.forall_mem_map] at hiff
  simp only [List.mem_map, exists_exists_and_eq_and, Mention.start_nonneg hm, true_and] at hiff
  exact hiff

end

/-- A style whose pattern occurs in every text and whose titles are empty. -/
def bare : Style := ⟨"logger", "log", "", "", Style.defaultOut, Style.defaultErr⟩

theorem titleFor_bare (logger severity : String) (m : Mention) :
    bare.titleFor logger severity m = .ok [] := rfl

theorem convertible_bare {forced : Option String} {t : Text} {m : Mention}
    {found : Option CallSite} (hfound : (CallSite.ofMention? t m).result = .ok found)
    (h : ∀ site, found = some site → ∃ r, Message.replacement site.atoms = .ok r) :
    Convertible bare forced t m :=
  .of_replacement hfound (Style.usesLombok_eq_ok_iff.mpr ⟨.empty, rfl, rfl⟩)
    ⟨[], titleFor_bare _ _ _⟩ h

/-- Two calls on lines of their own, and a mention that is no call. -/
def notice : Text :=
  "System.out.print(k);\nSystem.err.println(\"n = \" + n);\nSystem.out.println;".toList

/-- The mentions of the notice. -/
def noticeMentions : List Mention :=
  [⟨0, "System.out.print".toList, .out, "print".toList⟩,
    ⟨21, "System.err.println".toList, .err, "println".toList⟩,
    ⟨53, "System.out.println".toList, .out, "println".toList⟩]

theorem all_notice : Mention.all notice = noticeMentions := by decide +kernel

theorem convertible_notice : ∀ m ∈ Mention.all notice, Convertible bare none notice m := by
  rw [all_notice, noticeMentions, List.forall_mem_cons, List.forall_mem_cons,
    List.forall_mem_singleton]
  refine ⟨?_, ?_, ?_⟩
  · exact convertible_bare rfl (by rintro _ ⟨⟩; exact ⟨_, rfl⟩)
  · exact convertible_bare rfl (by rintro _ ⟨⟩; exact ⟨_, rfl⟩)
  · exact convertible_bare rfl (by rintro _ ⟨⟩)

theorem starts_notice : (sites notice).map (fun site => site.mention.start) = [0, 21] := by
  decide +kernel

theorem convert_changes_calls_only_notice :
    ∃ c cs r, (convert bare none notice).result = .ok c ∧ notice = cs.flatMap Change.old ++ r ∧
      c.text = cs.flatMap Change.new ++ r ∧ Row bare none notice [] cs ∧
      cs.length = 2 ∧ c.skipped = 1 := by
  obtain ⟨c, hc⟩ := exists_convert_eq_ok convertible_notice
  obtain ⟨cs, r, hold, hnew, hrow, -, hconverted, hcount⟩ := convert_changes_calls_only hc
  have htwo : c.converted = 2 := by
    obtain ⟨cs', -, -, -, -, hsites, hlength, -⟩ := exists_row_of_convert hc
    have hstarts := congrArg List.length starts_notice
    rw [← hsites, List.length_map, List.length_map, ← hlength] at hstarts
    exact hstarts
  rw [all_notice, htwo] at hcount
  exact ⟨c, cs, r, hc, hold, hnew, hrow, hconverted.symm.trans htwo, Nat.add_left_cancel hcount⟩

end LogCalls.Conversion
