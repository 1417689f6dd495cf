/-
LogCalls/Proofs/Conversion/Failure.lean

When a conversion fails.  Let the style's pattern be one that can be read, and
let its titles render.  Then a mention is dealt with unless an integer of what
follows it has too many digits: it cannot be read, or the mention is a call and
it cannot be written (`convertible_iff_not_tooLong`).  Quotes, parentheses and
all other characters do no harm, and neither do the edits, which never overlap.

Main result: a conversion fails for the digits of integers only
(`convert_fails_for_digits_only`).
-/
import LogCalls.Proofs.Conversion.Run
import LogCalls.Proofs.Message.Writing
import LogCalls.Proofs.Pattern.Spelled
import LogCalls.Proofs.Template.Fill

namespace LogCalls

/-! ### Faults of one mention -/

/-- An integer has too many digits to be read or to be written. -/
def Fault.IsOfDigits (e : Fault) : Prop := (∃ count, e = .tooManyDigits count) ∨ e = .numeralTooLong

theorem Argument.isOfDigits_of_read {t : Text} {e : Fault} (h : (read t).result = .error e) :
    e.IsOfDigits := by
  by_cases hlong : ∃ token ∈ (scan t).tokens, Atom.Overlong token
  · obtain ⟨token, hmem, htoken⟩ := hlong
    obtain ⟨count, hcount⟩ := exists_read_eq_error_of_overlong hmem htoken
    exact .inl ⟨count, Except.error.inj (h.symm.trans hcount)⟩
  · obtain ⟨a, ha⟩ := exists_read_eq_ok_iff.mpr fun token hmem htoken => hlong ⟨token, hmem, htoken⟩
    rw [ha] at h
    cases h

namespace CallSite

/-- The tokens of what follows a mention. -/
def tokensBehind (t : Text) (m : Mention) : List Text :=
  (Argument.scan (Text.onFrom t m.stop)).tokens

theorem exists_ofMention?_eq_ok_iff {t : Text} {m : Mention} :
    (∃ found, (ofMention? t m).result = .ok found) ↔
      ∀ token ∈ tokensBehind t m, ¬ Atom.Overlong token := by
  rw [tokensBehind, ← Argument.exists_read_eq_ok_iff]
  rcases hread : (Argument.read (Text.onFrom t m.stop)).result with e | a
  · rw [result_ofMention?_eq_error_iff.mpr hread]
    simp
  · rcases hfound : (ofMention? t m).result with e | found
    · rw [result_ofMention?_eq_error_iff, hread] at hfound
      cases hfound
    · exact iff_of_true ⟨found, rfl⟩ ⟨a, rfl⟩

/-- The atoms of a call are those of its tokens. -/
theorem mapM_tokensBehind {t : Text} {m : Mention} {site : CallSite}
    (h : (ofMention? t m).result = .ok (some site)) :
    (tokensBehind t m).mapM Atom.ofToken = .ok site.atoms := by
  obtain ⟨a, hread, -, -, rfl⟩ := result_ofMention?_eq_some_iff.mp h
  exact (Argument.read_eq_ok_iff.mp hread).1

end CallSite

namespace Conversion

/-! ### Styles that can be used -/

/-- The style's pattern can be read, and the titles of the actions that a
conversion takes render. -/
structure Ready (style : Style) (forced : Option String) : Prop where
  pattern : ∃ p, Pattern.read style.lombokPattern.toList = .ok p
  title : ∀ (lombok : Bool) (m : Mention), m.method ∈ Mention.methods →
    ∃ title, style.titleFor (style.loggerFor lombok) (severityFor style forced m.stream) m =
      .ok title

/-- An integer behind a mention has too many digits to be read, or the mention
is a call and an integer of its argument has too many to be written. -/
def TooLong (t : Text) (m : Mention) : Prop :=
  (∃ token ∈ CallSite.tokensBehind t m, Atom.Overlong token) ∨
    (∃ site, (CallSite.ofMention? t m).result = .ok (some site)) ∧
      ∃ token ∈ CallSite.tokensBehind t m, Atom.Oversized token

section

variable {style : Style} {forced : Option String} {t : Text} {m : Mention}

theorem Ready.exists_usesLombok (h : Ready style forced) (u : Text) :
    ∃ lombok, style.usesLombok u = .ok lombok := by
  obtain ⟨p, hp⟩ := h.pattern
  exact ⟨_, Style.usesLombok_eq_ok_iff.mpr ⟨p, hp, rfl⟩⟩

/-- An action is made for a call where its integers can be written. -/
theorem Ready.exists_create_iff (h : Ready style forced) (hm : m ∈ Mention.all t) {site : CallSite}
    (hsite : (CallSite.ofMention? t m).result = .ok (some site)) (lombok : Bool) :
    (∃ action, Action.create style lombok site (severityFor style forced m.stream) = .ok action) ↔
      ∀ token ∈ CallSite.tokensBehind t m, ¬ Atom.Oversized token := by
  rw [← Message.exists_replacement_eq_ok_iff_of_tokens (CallSite.mapM_tokensBehind hsite)]
  obtain ⟨_, -, -, -, rfl⟩ := CallSite.result_ofMention?_eq_some_iff.mp hsite
  obtain ⟨_, _, hstands⟩ := Mention.mem_all_iff.mp hm
  obtain ⟨title, htitle⟩ := h.title lombok m hstands.method
  constructor
  · rintro ⟨action, haction⟩
    obtain ⟨_, replacement, -, hreplacement, -⟩ := Action.create_eq_ok_iff.mp haction
    exact ⟨replacement, hreplacement⟩
  · rintro ⟨replacement, hreplacement⟩
    exact ⟨_, Action.create_eq_ok_iff.mpr ⟨title, replacement, htitle, hreplacement, rfl⟩⟩

/-- Under a style that can be used a mention is dealt with unless an integer
behind it is too long. -/
theorem convertible_iff_not_tooLong (h : Ready style forced) (hm : m ∈ Mention.all t) :
    Convertible style forced t m ↔ ¬ TooLong t m := by
  obtain ⟨lombok, hlombok⟩ := h.exists_usesLombok (Text.upTo t m.start)
  simp only [TooLong, not_or, not_and, not_exists, ← CallSite.exists_ofMention?_eq_ok_iff]
  constructor
  · rintro ⟨found, hfound, hactions⟩
    refine ⟨⟨found, hfound⟩, ?_⟩
    rintro ⟨site, hsite⟩
    obtain ⟨lombok', action, -, haction⟩ := hactions site (Except.ok.inj (hfound.symm.trans hsite))
    exact (h.exists_create_iff hm hsite lombok').mp ⟨action, haction⟩
  · rintro ⟨⟨found, hfound⟩, hwritten⟩
    refine ⟨found, hfound, ?_⟩
    rintro site rfl
    obtain ⟨action, haction⟩ := (h.exists_create_iff hm hfound lombok).mpr (hwritten ⟨site, hfound⟩)
    exact ⟨lombok, action, hlombok, haction⟩

/-! ### The faults of a conversion -/

/-- A fault of the style: its pattern cannot be read, or the title of an action
that a conversion takes does not render. -/
def OfStyle (style : Style) (forced : Option String) (e : Fault) : Prop :=
  Pattern.read style.lombokPattern.toList = .error e ∨
    ∃ (lombok : Bool) (m : Mention), m.method ∈ Mention.methods ∧
      style.titleFor (style.loggerFor lombok) (severityFor style forced m.stream) m = .error e

theorem Ready.not_ofStyle (h : Ready style forced) (e : Fault) : ¬ OfStyle style forced e := by
  rintro (hpattern | ⟨lombok, m, hm, htitle⟩)
  · obtain ⟨p, hp⟩ := h.pattern
    rw [hp] at hpattern
    cases hpattern
  · obtain ⟨title, ht⟩ := h.title lombok m hm
    rw [ht] at htitle
    cases htitle

/-- A step fails for the digits of an integer or for the style. -/
theorem fault_cases_of_step (hm : m ∈ Mention.all t) {p : Progress} {e : Fault}
    (hstep : (step style forced t p m).result = .error e) :
    e.IsOfDigits ∨ OfStyle style forced e := by
  rw [step] at hstep
  split at hstep
  · cases hstep
  rcases Logged.result_bind_eq_error_iff.mp hstep with hfound | ⟨_ | site, hsite, hrest⟩
  · exact .inl (Argument.isOfDigits_of_read (CallSite.result_ofMention?_eq_error_iff.mp hfound))
  · cases hrest
  simp only [Logged.result_bind, Logged.result_liftM, Logged.result_pure, bind_eq_error_iff,
    reduceCtorEq, and_false, exists_false, or_false] at hrest
  rcases hrest with hlombok | ⟨lombok, -, haction⟩
  · rw [Style.usesLombok, bind_eq_error_iff] at hlombok
    rcases hlombok with hpattern | ⟨_, -, hnone⟩
    · exact .inr (.inl hpattern)
    · cases hnone
  · obtain ⟨_, _, hstands⟩ := Mention.mem_all_iff.mp hm
    obtain ⟨_, -, -, -, rfl⟩ := CallSite.result_ofMention?_eq_some_iff.mp hsite
    rw [Action.create, bind_eq_error_iff] at haction
    rcases haction with htitle | ⟨_, -, haction⟩
    · exact .inr (.inr ⟨lombok, m, hstands.method, htitle⟩)
    · rcases bind_eq_error_iff.mp haction with hreplacement | ⟨_, -, hnone⟩
      · exact .inl (.inr (Message.eq_of_replacement_eq_error hreplacement))
      · cases hnone

theorem fault_cases_of_run {ms : List Mention} (hms : ∀ m ∈ ms, m ∈ Mention.all t)
    {p : Progress} {e : Fault} (hrun : (run style forced t ms p).result = .error e) :
    e.IsOfDigits ∨ OfStyle style forced e := by
  induction ms generalizing p with
  | nil => cases hrun
  | cons m ms ih =>
      obtain ⟨hm, hms⟩ := List.forall_mem_cons.mp hms
      rw [run, Logged.result_bind_eq_error_iff] at hrun
      rcases hrun with hstep | ⟨p', -, hrest⟩
      · exact fault_cases_of_step hm hstep
      · exact ih hms hrest

/-- A conversion fails for the digits of an integer or for the style. -/
theorem fault_cases_of_convert {e : Fault} (h : (convert style forced t).result = .error e) :
    e.IsOfDigits ∨ OfStyle style forced e := by
  rw [convert, Logged.result_bind_eq_error_iff] at h
  rcases h with hrun | ⟨p, hrun, hrest⟩
  · exact fault_cases_of_run (fun _ hm => hm) hrun
  -- the edits of a run never overlap
  · simp only [Logged.result_bind, Logged.result_note, Logged.result_liftM, ok_bind,
      applyAll_of_run hrun, Logged.result_pure] at hrest
    cases hrest

theorem Ready.isOfDigits_of_run (h : Ready style forced) {ms : List Mention}
    (hms : ∀ m ∈ ms, m ∈ Mention.all t) {p : Progress} {e : Fault}
    (hrun : (run style forced t ms p).result = .error e) : e.IsOfDigits :=
  (fault_cases_of_run hms hrun).resolve_right (h.not_ofStyle e)

/-- **Conversions fail for digits only.**  Under a style that can be used, a
conversion gives a text unless an integer is too long behind a mention that no
converted call before it reaches beyond; and where it gives none, the fault says
that an integer has too many digits to be read or to be written. -/
theorem convert_fails_for_digits_only (h : Ready style forced) (t : Text) :
    ((∃ c, (convert style forced t).result = .ok c) ↔
      ∀ m ∈ Mention.all t,
        (∀ site ∈ sites t, site.mention.start < m.start → site.stop ≤ m.start) → ¬ TooLong t m) ∧
      ∀ e, (convert style forced t).result = .error e → e.IsOfDigits := by
  constructor
  · rw [exists_convert_eq_ok_iff]
    refine forall₂_congr fun m hm => ?_
    rw [convertible_iff_not_tooLong h hm, Visited, and_iff_right (Mention.start_nonneg hm)]
    exact Iff.rfl
  · intro e he
    rw [convert, Logged.result_bind_eq_error_iff] at he
    rcases he with hrun | ⟨p, hrun, hrest⟩
    · exact h.isOfDigits_of_run (fun _ hm => hm) hrun
    -- the edits of a run never overlap
    · simp only [Logged.result_bind, Logged.result_note, Logged.result_liftM, ok_bind,
        applyAll_of_run hrun, Logged.result_pure] at hrest
      cases hrest

end

/-! ### Texts with and without long integers -/

/-- A token that starts with no digit is no integer. -/
theorem not_tooLong_of_head {t : Text} {m : Mention}
    (h : ∀ token ∈ CallSite.tokensBehind t m,
      (Text.trimStart token).head?.any Text.isDigit = false) : ¬ TooLong t m := by
  rintro (⟨token, hmem, -, -, hlength⟩ | ⟨-, token, hmem, digits, hdigits, -⟩)
  · have hhead := h token hmem
    rcases htrim : Text.trimStart token with _ | ⟨c, r⟩
    · simp [htrim] at hlength
    · rw [htrim, List.head?_cons, Option.any_some] at hhead
      simp [htrim, hhead] at hlength
  · obtain ⟨r, hr⟩ := Atom.exists_trimStart_of_hexDigits? hdigits
    have hhead := h token hmem
    rw [hr] at hhead
    cases hhead

theorem ready_default (forced : Option String) : Ready Style.default forced :=
  ⟨⟨_, Style.read_lombokPattern_default⟩, fun _ _ _ => ⟨_, Style.titleFor_default _ _ _⟩⟩

theorem convert_fails_for_digits_only_notice :
    Ready Style.default none ∧ ∃ c, (convert Style.default none notice).result = .ok c := by
  refine ⟨ready_default none, (convert_fails_for_digits_only (ready_default none) notice).1.mpr ?_⟩
  intro m hm _
  rw [all_notice] at hm
  refine not_tooLong_of_head ?_
  revert m
  decide +kernel

/-- The mention at the start of a text. -/
def printMention : Mention := ⟨0, "System.out.println".toList, .out, "println".toList⟩

/-- A call that prints one token. -/
def printOf (token : Text) : Text := printMention.matched ++ ('(' :: token ++ [')'])

theorem printMention_mem (token : Text) : printMention ∈ Mention.all (printOf token) := by
  have hparen : Text.isWord '(' = false := by decide
  exact Mention.mem_all_iff.mpr
    ⟨[], '(' :: token ++ [')'], rfl, rfl, by decide, by decide, rfl, hparen⟩

/-- No conversion gives a text where the only token of a call is overlong,
whatever the style. -/
theorem exists_convert_eq_error {token : Text} (hplain : ∀ c ∈ token, Argument.IsPlain c)
    (hlong : Atom.Overlong token) (style : Style) (forced : Option String) :
    ∃ e, (convert style forced (printOf token)).result = .error e := by
  rcases hresult : (convert style forced (printOf token)).result with e | c
  · exact ⟨e, rfl⟩
  · have hvisited : Visited (printOf token) 0 (Mention.all (printOf token)) printMention := by
      refine ⟨Int.le_refl 0, fun site hsite hlt => absurd hlt (Int.not_lt.mpr ?_)⟩
      exact Mention.start_nonneg (mention_mem_of_mem_sitesFrom hsite)
    obtain ⟨found, hfound, -⟩ :=
      exists_convert_eq_ok_iff.mp ⟨c, hresult⟩ _ (printMention_mem token) hvisited
    refine absurd hlong (CallSite.exists_ofMention?_eq_ok_iff.mp ⟨found, hfound⟩ token ?_)
    have hbehind : Text.onFrom (printOf token) printMention.stop = '(' :: token ++ ')' :: [] :=
      Text.onFrom_length_append printMention.matched _
    rw [CallSite.tokensBehind, hbehind, Argument.scan_plain hplain []]
    exact List.mem_singleton_self _

/-- A number of 4301 digits makes a conversion fail. -/
theorem convert_overlongPrint :
    ∃ e, (convert Style.default none (printOf (List.replicate 4301 '1'))).result = .error e := by
  refine exists_convert_eq_error ?_ (Argument.overlong_ones (by decide)) _ _
  intro c hc
  rw [List.eq_of_mem_replicate hc]
  exact ⟨by decide, by decide, by decide, by decide, by decide⟩

end Conversion

end LogCalls
