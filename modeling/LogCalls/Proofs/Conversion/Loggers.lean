/-
LogCalls/Proofs/Conversion/Loggers.lean

Which logger a converted call gets.  The pattern of a generated logger is looked
for in the text before the call, and the end of that text is a boundary for it.
The cut makes no difference: the annotation ends with a word character, and no
mention has one right before it (`Style.annotated_upTo_iff`).

What stands before a call stands before every later one, so from the first call
that gets the generated logger on, all calls do (`Row.exists_switch`).

Main result: `convert_loggers_switch_once`.
-/
import LogCalls.Proofs.Conversion.Appended
import LogCalls.Proofs.Conversion.Run
import LogCalls.Proofs.Pattern.Spelled

namespace LogCalls

namespace Style

/-! ### The annotation before an offset -/

/-- The annotation stands in a text as a word of its own that ends before an
offset. -/
def AnnotatedBefore (t : Text) (offset : Int) : Prop :=
  ∃ p : Nat, (p : Int) + 6 < offset ∧ "@Slf4j".toList <+: t.drop p ∧
    t[p + 6]?.any (fun c => !Text.isWord c) = true

instance (t : Text) (offset : Int) : Decidable (AnnotatedBefore t offset) :=
  decidable_of_iff (∃ p, p < offset.toNat ∧ ((p : Int) + 6 < offset ∧
      "@Slf4j".toList <+: t.drop p ∧ t[p + 6]?.any (fun c => !Text.isWord c) = true))
    ⟨fun ⟨p, _, h⟩ => ⟨p, h⟩, fun ⟨p, h⟩ => ⟨p, by have := h.1; omega, h⟩⟩

theorem AnnotatedBefore.mono {t : Text} {offset offset' : Int} (h : AnnotatedBefore t offset)
    (hle : offset ≤ offset') : AnnotatedBefore t offset' := by
  obtain ⟨p, hlt, hrest⟩ := h
  exact ⟨p, Int.lt_of_lt_of_le hlt hle, hrest⟩

/-- The annotation before an offset, in the pieces of the text. -/
theorem annotatedBefore_iff {t : Text} {offset : Int} :
    AnnotatedBefore t offset ↔ ∃ y c z, t = y ++ "@Slf4j".toList ++ c :: z ∧
      Text.isWord c = false ∧ ((y ++ "@Slf4j".toList).length : Int) < offset := by
  have hplace : ∀ y : Text, y.length + 6 = (y ++ "@Slf4j".toList).length := by
    intro y
    rw [List.length_append]
    rfl
  constructor
  · rintro ⟨p, hlt, ⟨w, hw⟩, hword⟩
    have hp : p ≤ t.length := by
      have hlength := congrArg List.length hw
      rw [List.length_append, List.length_drop] at hlength
      have : "@Slf4j".toList.length = 6 := rfl
      omega
    obtain ⟨y, rfl, ht⟩ : ∃ y : Text, p = y.length ∧ t = y ++ "@Slf4j".toList ++ w := by
      refine ⟨t.take p, by rw [List.length_take, Nat.min_eq_left hp], ?_⟩
      rw [List.append_assoc, hw, List.take_append_drop]
    rw [ht, hplace, List.getElem?_append_right (Nat.le_refl _), Nat.sub_self] at hword
    rcases w with _ | ⟨c, z⟩
    · cases hword
    · refine ⟨y, c, z, ht, by simpa using hword, ?_⟩
      rw [← hplace]
      omega
  · rintro ⟨y, c, z, rfl, hc, hlt⟩
    refine ⟨y.length, ?_, ?_, ?_⟩
    · rw [← hplace] at hlt
      omega
    · rw [List.append_assoc, List.drop_left]
      exact List.prefix_append _ _
    · rw [hplace, Text.getElem?_append_cons]
      simpa using hc

/-- The text before a mention is annotated where the whole text is before it. -/
theorem annotated_upTo_iff {t : Text} {m : Mention} (hm : m ∈ Mention.all t) :
    Annotated (Text.upTo t m.start) ↔ AnnotatedBefore t m.start := by
  obtain ⟨x, r, hx⟩ := Mention.mem_all_iff.mp hm
  have htext : t = x ++ (m.matched ++ r) := by rw [hx.text, List.append_assoc]
  have hupTo : Text.upTo t m.start = x := by rw [htext, hx.start, Text.upTo_length_append]
  rw [hupTo, hx.start, annotatedBefore_iff]
  constructor
  · rintro ⟨y, z, rfl, hz⟩
    rcases z with _ | ⟨c, z⟩
    · -- the annotation would stand right before the mention
      have hbefore := hx.before
      have hlast : "@Slf4j".toList.getLast? = some 'j' := rfl
      rw [List.append_nil, List.getLast?_append, hlast, Option.some_or] at hbefore
      exact absurd hbefore (by decide)
    · refine ⟨y, c, z ++ (m.matched ++ r), by rw [htext, List.append_assoc]; rfl, hz, ?_⟩
      have hlength : (y ++ "@Slf4j".toList ++ c :: z).length =
          (y ++ "@Slf4j".toList).length + (z.length + 1) := List.length_append
      omega
  · rintro ⟨y, c, z, ht, hc, hlt⟩
    have hprefix : y ++ "@Slf4j".toList <+: t := ⟨c :: z, ht.symm⟩
    have hcut : x <+: t := ⟨m.matched ++ r, htext.symm⟩
    obtain ⟨z', rfl⟩ := List.prefix_of_prefix_length_le hprefix hcut (by omega)
    rcases z' with _ | ⟨d, z'⟩
    · rw [List.append_nil] at hlt
      exact absurd hlt (Int.lt_irrefl _)
    · rw [htext, List.append_assoc] at ht
      obtain ⟨rfl, -⟩ := List.cons.inj (List.append_cancel_left ht)
      exact ⟨y, d :: z', rfl, hc⟩

end Style

namespace Conversion

variable {style : Style} {forced : Option String} {t x : Text} {c : Change} {cs : List Change}

/-! ### The logger of a change -/

section

variable (hpattern : style.lombokPattern = Style.default.lombokPattern)
include hpattern

/-- A call gets the generated logger where the annotation stands before it. -/
theorem Change.Holds.logger_eq (h : c.Holds style forced t x) :
    c.logger = if Style.AnnotatedBefore t c.site.mention.start then style.lombokLogger
      else style.logger := by
  obtain ⟨p, hp, hlogger⟩ := h.logger
  have hoccurs : p.occursIn (x ++ c.gap) = true ↔
      Style.AnnotatedBefore t c.site.mention.start := by
    rw [← Style.annotated_upTo_iff h.mention, h.upTo_start]
    exact Style.occursIn_iff_annotated hpattern hp
  rw [hlogger]
  exact if_congr hoccurs rfl rfl

/-- The loggers of changes in a row switch at most once. -/
theorem Row.exists_switch (h : Row style forced t x cs) :
    ∃ early late, cs.map Change.logger =
      List.replicate early style.logger ++ List.replicate late style.lombokLogger := by
  induction cs generalizing x with
  | nil => exact ⟨0, 0, rfl⟩
  | cons c cs ih =>
      have hc := h.1.logger_eq hpattern
      by_cases hbefore : Style.AnnotatedBefore t c.site.mention.start
      · -- what stands before this call stands before all later ones
        have hall : ∀ d ∈ c :: cs, d.logger = style.lombokLogger := by
          rw [List.forall_mem_cons]
          refine ⟨hc.trans (if_pos hbefore), fun d hd => ?_⟩
          obtain ⟨y, hholds⟩ := Row.exists_holds h.2 hd
          exact (hholds.logger_eq hpattern).trans (if_pos (hbefore.mono (h.start_le hd)))
        refine ⟨0, (c :: cs).length, ?_⟩
        rw [List.replicate_zero, List.nil_append]
        exact List.map_eq_replicate_iff.mpr hall
      · obtain ⟨early, late, hloggers⟩ := ih h.2
        refine ⟨early + 1, late, ?_⟩
        rw [List.map_cons, hloggers, hc, if_neg hbefore, List.replicate_succ, List.cons_append]

/-- **Loggers of converted calls.**  With the usual pattern a converted call gets
the generated logger where the annotation stands in the whole text as a word of its
own that ends before the call.  So, from left to right, calls with the logger of
the source are followed by calls with the generated one. -/
theorem convert_loggers_switch_once {conversion : Conversion}
    (h : (convert style forced t).result = .ok conversion) :
    ∃ cs r, t = cs.flatMap Change.old ++ r ∧ conversion.text = cs.flatMap Change.new ++ r ∧
      Row style forced t [] cs ∧ cs.map Change.site = sites t ∧
      (∀ c ∈ cs, c.logger = if Style.AnnotatedBefore t c.site.mention.start
        then style.lombokLogger else style.logger) ∧
      ∃ early late, cs.map Change.logger =
        List.replicate early style.logger ++ List.replicate late style.lombokLogger := by
  obtain ⟨cs, r, htext, hnew, hrow, hsites, -⟩ := exists_row_of_convert h
  refine ⟨cs, r, htext, hnew, hrow, hsites, fun c hc => ?_, hrow.exists_switch hpattern⟩
  obtain ⟨y, hholds⟩ := hrow.exists_holds hc
  exact hholds.logger_eq hpattern

end

/-- A class with another annotation, and one with a generated logger. -/
def twoClasses : Text :=
  ("@Slf4jTest class A { { System.out.print(a); } } " ++
    "@Slf4j class B { { System.err.print(b); } }").toList

/-- The mentions in the two classes. -/
def classMentions : List Mention :=
  [⟨23, "System.out.print".toList, .out, "print".toList⟩,
    ⟨67, "System.err.print".toList, .err, "print".toList⟩]

theorem convert_loggers_switch_once_twoClasses :
    ∃ (conversion : Conversion) (cs : List Change) (r : Text),
      (convert Style.default none twoClasses).result = .ok conversion ∧
      conversion.text = cs.flatMap Change.new ++ r ∧
      cs.map Change.logger = ["logger", "log"] := by
  have hmentions : Mention.all twoClasses = classMentions := by decide +kernel
  have hsites : (sites twoClasses).map CallSite.mention = classMentions := by decide +kernel
  obtain ⟨conversion, h⟩ : ∃ c, (convert Style.default none twoClasses).result = .ok c := by
    refine exists_convert_eq_ok ?_
    rw [hmentions, classMentions, List.forall_mem_cons, List.forall_mem_singleton]
    constructor
    · exact convertible_default rfl (by rintro _ ⟨⟩; exact ⟨_, rfl⟩)
    · exact convertible_default rfl (by rintro _ ⟨⟩; exact ⟨_, rfl⟩)
  obtain ⟨cs, r, -, hnew, -, hcs, hlogger, -⟩ := convert_loggers_switch_once rfl h
  refine ⟨conversion, cs, r, h, hnew, ?_⟩
  rw [← hcs, List.map_map, classMentions] at hsites
  obtain ⟨c₁, cs, rfl, h₁, hsites⟩ := List.map_eq_cons_iff.mp hsites
  obtain ⟨c₂, cs, rfl, h₂, hsites⟩ := List.map_eq_cons_iff.mp hsites
  obtain rfl := List.map_eq_nil_iff.mp hsites
  have hfirst : ¬ Style.AnnotatedBefore twoClasses 23 := by decide +kernel
  have hsecond : Style.AnnotatedBefore twoClasses 67 := by decide +kernel
  have hlogger₁ := hlogger c₁ (by simp)
  have hlogger₂ := hlogger c₂ (by simp)
  rw [show c₁.site.mention = _ from h₁, if_neg hfirst] at hlogger₁
  rw [show c₂.site.mention = _ from h₂, if_pos hsecond] at hlogger₂
  rw [List.map_cons, List.map_cons, List.map_nil, hlogger₁, hlogger₂]
  rfl

end Conversion

end LogCalls
