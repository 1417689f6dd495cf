/-
LogCalls/Proofs/Action/Shown.lean

The line that is shown for an action.  An action changes nothing in front of its
call, so the lines that have ended there stay as they are, and however many lines
the new call has, one of them follows (`Shows.of_append`).  The call stands on the line
that was asked for, so this is the line that follows (`Shows.of_create`).

Main result: every action that is offered for a line can be applied, the text that
it gives has this line and the lines above it as they were, and so the listing of
the actions can always be printed (`offers_shown`).
-/
import LogCalls.Command.Actions
import LogCalls.Proofs.Action.Edits
import LogCalls.Proofs.Action.Preferred
import LogCalls.Proofs.Mention.Lines
import LogCalls.Proofs.Position.Counting

namespace LogCalls

namespace Action

variable {style : Style} {t after : Text} {line column : Int} {place : Nat} {m : Mention}
  {a : Action} {actions : List Action}

/-! ### What an action shows -/

/-- An action for a mention gives a text that has a line to show, and all that stands
above this line and in front of the mention stays. -/
structure Shows (t : Text) (line : Int) (m : Mention) (a : Action) (after shown : Text) :
    Prop where
  applied : Edit.applyAll t a.edits = .ok after
  inside : 1 ≤ line ∧ line ≤ (Text.lines after).length
  getElem?_lines : (Text.lines after)[(line - 1).toNat]? = some shown
  above : (Text.lines after).take (line - 1).toNat = (Text.lines t).take (line - 1).toNat
  starts : Text.upTo t m.start ++ callee a.logger a.severity <+: after

/-- Whatever is written on a line and behind it, the lines above it stay and one more
follows. -/
theorem Shows.of_append {before x y : Text} (hends : Text.EndsLine before)
    (hcount : (before.count '\n' : Int) = line - 1) (htext : t = before ++ x)
    (happlied : Edit.applyAll t a.edits = .ok (before ++ y))
    (hstarts : Text.upTo t m.start ++ callee a.logger a.severity <+: before ++ y) :
    ∃ shown, Shows t line m a (before ++ y) shown := by
  obtain ⟨above, hlength, hlines⟩ := hends.exists_lines_append
  have habove : (line - 1).toNat = above.length := by omega
  have hpos : 0 < (Text.lines y).length := List.length_pos_of_ne_nil (Text.lines_ne_nil y)
  refine ⟨(Text.lines y)[0], happlied, ?_, ?_, ?_, hstarts⟩
  · rw [hlines, List.length_append]
    omega
  · rw [hlines, habove, List.getElem?_append_right (Nat.le_refl _), Nat.sub_self,
      List.getElem?_eq_getElem hpos]
  · rw [htext, hlines, hlines, habove, List.take_left, List.take_left]

/-- An action for a call on a line shows this line. -/
theorem Shows.of_create {lombok : Bool} {site : CallSite} {severity : String}
    {x blanks argument r before row behind : Text}
    (hsite : site.Stands x blanks argument r t) (hline : Text.IsLine before row behind t)
    (hcount : (before.count '\n' : Int) = line - 1) (hstart : before.length ≤ site.mention.start)
    (h : create style lombok site severity = .ok a) :
    ∃ after shown, Shows t line site.mention a after shown := by
  obtain ⟨title, replacement, -, -, rfl⟩ := create_eq_ok_iff.mp h
  have hx : x <+: t := by
    rw [hsite.text, List.append_assoc]
    exact List.prefix_append _ _
  have hbefore : before <+: t := by
    rw [hline.text, List.append_assoc]
    exact List.prefix_append _ _
  -- the line starts in front of the call
  obtain ⟨p, rfl⟩ : before <+: x := by
    refine List.prefix_of_prefix_length_le hbefore hx ?_
    rw [hsite.start] at hstart
    omega
  have hupTo : Text.upTo t site.mention.start = before ++ p := by
    rw [hsite.start, hsite.text, List.append_assoc (before ++ p), Text.upTo_length_append]
  have hafter := hsite.applyAll_editsFor (style.loggerFor lombok) severity replacement
  simp only [List.append_assoc] at hafter
  refine ⟨_, Shows.of_append hline.starts hcount (by rw [hline.text, List.append_assoc]) hafter ?_⟩
  rw [hupTo, ← List.append_assoc before, ← List.append_assoc (before ++ p)]
  exact List.prefix_append _ _

theorem Shows.row_eq {shown : Text} (h : Shows t line m a after shown)
    {r : Command.Actions.Request} (hr : r.line = line) (number : Nat) :
    Command.Actions.row r t number a = .ok
      [Text.numeral number, Markup.escape a.title, if a.preferred then ['*'] else [],
        Markup.escape (Text.trim shown)] := by
  have hline : Command.Actions.lineOf after line = shown := by
    rw [Command.Actions.lineOf, List.getD_eq_getElem?_getD, h.getElem?_lines,
      Option.getD_some]
  rw [Command.Actions.row, h.applied, ok_bind, hr, hline]
  rfl

/-! ### What is offered for a line -/

/-- Every action that is offered for a line shows this line. -/
theorem exists_shows_of_offers (hplace : Position.offset t line column = .ok place)
    (h : (offers style t place).result = .ok (some actions)) :
    ∃ lombok m, style.usesLombok (Text.upTo t place) = .ok lombok ∧
      Mention.onLine? t place = some m ∧ actions ≠ [] ∧
      ∀ a ∈ actions, a.logger = style.loggerFor lombok ∧
        ∃ after shown, Shows t line m a after shown := by
  obtain ⟨lombok, m, site, hlombok, hm, hsite, hactions⟩ := result_offers_eq_some_iff.mp h
  obtain ⟨before, row, behind, hline, hlow, hhigh, hcount⟩ :=
    Position.exists_isLine_of_offset_eq hplace
  obtain ⟨hall, hstart, -⟩ := Mention.mem_all_of_onLine? hline hlow hhigh hm
  obtain ⟨x, rest, hx⟩ := Mention.mem_all_iff.mp hall
  rw [hx.text] at hsite
  obtain ⟨rfl, blanks, argument, r, hstands⟩ := (CallSite.ofMention?_eq_some_iff hx.start).mp hsite
  rw [← hx.text] at hstands
  refine ⟨lombok, site.mention, hlombok, hm, ?_, fun a ha => ?_⟩
  · -- a stream offers the severity that it prefers
    rintro rfl
    have hnone := map_severity_of_forSite hactions
    have hmem := (style.severities site.mention.stream).preferred_mem
    rw [← hnone] at hmem
    cases hmem
  · obtain ⟨severity, -, hcreate⟩ := (mem_iff_of_mapM_eq_ok hactions).mp ha
    refine ⟨?_, Shows.of_create hstands hline hcount hstart hcreate⟩
    obtain ⟨title, replacement, -, -, rfl⟩ := create_eq_ok_iff.mp hcreate
    rfl

/-- **The line of an action.**  Every action that is offered for a line that the text
has can be applied, and the text that it gives has this line too: the lines above it
are those of the text, and up to the name of the logger and the severity nothing has
changed.  So each action has its row, with the line that stands there then, and the
listing of the actions is printed. -/
theorem offers_shown (hplace : Position.offset t line column = .ok place)
    (h : (offers style t place).result = .ok (some actions)) :
    ∃ lombok m, style.usesLombok (Text.upTo t place) = .ok lombok ∧
      Mention.onLine? t place = some m ∧
      (∀ a ∈ actions, a.logger = style.loggerFor lombok ∧
        ∃ after shown, Shows t line m a after shown ∧
          ∀ r : Command.Actions.Request, r.line = line → ∀ number,
            Command.Actions.row r t number a = .ok
              [Text.numeral number, Markup.escape a.title, if a.preferred then ['*'] else [],
                Markup.escape (Text.trim shown)]) ∧
      ∀ r : Command.Actions.Request, r.line = line → r.column = column →
        ∃ table, Command.Actions.table r t actions = .ok table ∧
          (Command.Actions.listing r style t).result = .ok (0, table.draw) := by
  obtain ⟨lombok, m, hlombok, hm, hne, hactions⟩ := exists_shows_of_offers hplace h
  refine ⟨lombok, m, hlombok, hm, fun a ha => ?_, ?_⟩
  · obtain ⟨hlogger, after, shown, hshows⟩ := hactions a ha
    exact ⟨hlogger, after, shown, hshows, fun r hr number => hshows.row_eq hr number⟩
  · rintro r rfl rfl
    obtain ⟨rows, hrows⟩ : ∃ rows, actions.zipIdx.mapM
        (fun p => Command.Actions.row r t (p.2 + 1) p.1) = .ok rows := by
      refine exists_mapM_eq_ok_iff.mpr fun p hp => ?_
      obtain ⟨-, after, shown, hshows⟩ := hactions p.1 (List.fst_mem_of_mem_zipIdx hp)
      exact ⟨_, hshows.row_eq rfl _⟩
    have htable : ∃ table, Command.Actions.table r t actions = .ok table :=
      ⟨_, bind_eq_ok_iff.mpr ⟨rows, hrows, rfl⟩⟩
    obtain ⟨table, htable⟩ := htable
    refine ⟨table, htable, ?_⟩
    obtain ⟨a, as, rfl⟩ := List.exists_cons_of_ne_nil hne
    simp only [Command.Actions.listing, Logged.result_bind, Logged.result_liftM, hplace, ok_bind, h,
      htable, Logged.result_pure]

/-- A call on the second of three lines, whose argument reaches over two of them. -/
def brokenCall : Text := "f();\n  System.out.println(\"n\" +\n    n);".toList

/-- The new call has one line less than the old one, and still the second line is
there to be shown. -/
theorem offers_shown_brokenCall :
    Position.offset brokenCall 2 9 = .ok 13 ∧
      ∃ actions, (offers Style.default brokenCall (13 : Nat)).result = .ok (some actions) ∧
        ∀ a ∈ actions, a.logger = "logger" ∧
          ∃ after, Edit.applyAll brokenCall a.edits = .ok after ∧
            2 ≤ (Text.lines after).length ∧ (Text.lines after).take 1 = ["f();".toList] := by
  have hplace : Position.offset brokenCall 2 9 = .ok 13 := by decide
  have hlombok : Style.default.usesLombok (Text.upTo brokenCall (13 : Nat)) = .ok false :=
    Style.usesLombok_eq_ok_iff.mpr ⟨_, Style.read_lombokPattern_default, rfl⟩
  have hline : Mention.onLine? brokenCall (13 : Nat) =
      some ⟨7, "System.out.println".toList, .out, "println".toList⟩ := by
    decide +kernel
  have hsite : (CallSite.ofMention? brokenCall
      ⟨7, "System.out.println".toList, .out, "println".toList⟩).result =
        .ok (some ⟨⟨7, "System.out.println".toList, .out, "println".toList⟩, 25, 38,
          [.literal ['n'], .expression ['n']]⟩) := rfl
  obtain ⟨actions, h⟩ := exists_offers hlombok hline hsite rfl
    fun _ => ⟨_, Style.titleFor_default _ _ _⟩
  obtain ⟨lombok, m, hpattern, -, hactions, -⟩ := offers_shown hplace h
  obtain rfl : false = lombok := Except.ok.inj (hlombok.symm.trans hpattern)
  refine ⟨hplace, actions, h, fun a ha => ?_⟩
  obtain ⟨hlogger, after, shown, hshows, -⟩ := hactions a ha
  exact ⟨hlogger, after, hshows.applied, Int.ofNat_le.mp hshows.inside.2, hshows.above⟩

end Action

end LogCalls
