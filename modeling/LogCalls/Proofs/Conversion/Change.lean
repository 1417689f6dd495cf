/-
LogCalls/Proofs/Conversion/Change.lean

What a conversion does to one call, and to the calls of a text in a row.  A
change is a call in its pieces, with the text before it that is left alone and
the pieces that are written in its place; `Holds` says that it is the change of
a style for the call that stands there.

The two edits of a change replace the mention and what stands between the
parentheses (`applyOrdered_edits`).  The edits of changes in a row are apart
(`Row.apart`), so applying all of them writes every new call in its place and
touches nothing else (`Row.applyAll_edits`).
-/
import LogCalls.Conversion
import LogCalls.Proofs.Action.Edits

namespace LogCalls

/-! ### Actions -/

theorem Style.usesLombok_eq_ok_iff {style : Style} {t : Text} {lombok : Bool} :
    style.usesLombok t = .ok lombok ↔
      ∃ p, Pattern.read style.lombokPattern.toList = .ok p ∧ p.occursIn t = lombok := by
  rw [usesLombok, bind_eq_ok_iff]
  simp

/-- An action is made where its title and its replacement are. -/
theorem Action.create_eq_ok_iff {style : Style} {lombok : Bool} {site : CallSite}
    {severity : String} {action : Action} :
    create style lombok site severity = .ok action ↔
      ∃ title replacement,
        style.titleFor (style.loggerFor lombok) severity site.mention = .ok title ∧
        Message.replacement site.atoms = .ok replacement ∧
        action = ⟨title, severity, style.loggerFor lombok,
          severity == (style.severities site.mention.stream).preferred,
          editsFor site (style.loggerFor lombok) severity replacement⟩ := by
  simp only [create, bind_eq_ok_iff, pure_eq_ok, Except.ok.injEq, eq_comm (b := action),
    exists_and_left]

namespace Conversion

/-! ### Changes -/

/-- A call that is converted, and what is written for it. -/
structure Change where
  /-- What stands between the call before and this one. -/
  gap : Text
  site : CallSite
  /-- What stands between the mention and the parentheses. -/
  blanks : Text
  /-- What stands between the parentheses. -/
  argument : Text
  logger : String
  severity : String
  /-- What is written between the parentheses. -/
  replacement : Text

namespace Change

/-- The call as it was. -/
def call (c : Change) : Text :=
  c.site.mention.matched ++ (c.blanks ++ '(' :: c.argument ++ [')'])

/-- The call that is written for it. -/
def newCall (c : Change) : Text :=
  c.logger.toList ++ '.' :: c.severity.toList ++ (c.blanks ++ '(' :: c.replacement ++ [')'])

/-- The call as it was, behind its gap. -/
def old (c : Change) : Text := c.gap ++ c.call

/-- The call that is written, behind the same gap. -/
def new (c : Change) : Text := c.gap ++ c.newCall

/-- The edits that write the new call. -/
def edits (c : Change) : List Edit := Action.editsFor c.site c.logger c.severity c.replacement

/-- A change behind `x` is the one that a style makes of the call there. -/
structure Holds (style : Style) (forced : Option String) (t x : Text) (c : Change) : Prop where
  mention : c.site.mention ∈ Mention.all t
  stands : ∃ r, CallSite.Stands c.site (x ++ c.gap) c.blanks c.argument r t
  replacement : Message.replacement c.site.atoms = .ok c.replacement
  severity : c.severity =
    if c.site.mention.stream = .out ∧ forced.getD "" ≠ "" then forced.getD ""
    else (style.severities c.site.mention.stream).preferred
  logger : ∃ p, Pattern.read style.lombokPattern.toList = .ok p ∧
    c.logger = if p.occursIn (x ++ c.gap) then style.lombokLogger else style.logger

variable {style : Style} {forced : Option String} {t x : Text} {c : Change}

theorem Holds.start (h : c.Holds style forced t x) :
    c.site.mention.start = (x ++ c.gap).length := by
  obtain ⟨r, hr⟩ := h.stands
  exact hr.start

/-- What stands before the mention of a change. -/
theorem Holds.upTo_start (h : c.Holds style forced t x) :
    Text.upTo t c.site.mention.start = x ++ c.gap := by
  obtain ⟨r, hr⟩ := h.stands
  rw [h.start, hr.text, List.append_assoc (x ++ c.gap), Text.upTo_length_append]

theorem Holds.stop (h : c.Holds style forced t x) : c.site.stop = (x ++ c.old).length := by
  obtain ⟨r, hr⟩ := h.stands
  have hclose := hr.stop_sub_one
  simp only [old, call, List.length_append, List.length_cons, List.length_nil] at hclose ⊢
  omega

/-- The edits of a change write the new call in the place of the old one, whatever
stands behind it. -/
theorem Holds.applyOrdered_edits (h : c.Holds style forced t x) (r : Text) :
    Edit.applyOrdered c.edits (x ++ c.old ++ r) = x ++ c.new ++ r := by
  obtain ⟨rest, hrest⟩ := h.stands
  have hedits := (hrest.replace_rest r).applyOrdered_editsFor c.logger c.severity c.replacement
  rw [old, call, new, newCall, edits]
  simp only [Action.callee, List.append_assoc, List.cons_append] at hedits ⊢
  exact hedits

/-- The edits of a change lie between its ends. -/
theorem Holds.apart (h : c.Holds style forced t x) {es : List Edit}
    (hes : Edit.Apart (x ++ c.old).length es) : Edit.Apart x.length (c.edits ++ es) := by
  obtain ⟨r, hr⟩ := h.stands
  rw [← h.stop] at hes
  have hle : (x.length : Int) ≤ c.site.mention.start := by
    rw [h.start, List.length_append]
    omega
  exact (hr.apart_editsFor c.logger c.severity c.replacement hes).mono hle

end Change

/-! ### Changes in a row -/

/-- Changes in a row, the first of them behind `x`. -/
def Row (style : Style) (forced : Option String) (t : Text) : (x : Text) → List Change → Prop
  | _, [] => True
  | x, c :: cs => c.Holds style forced t x ∧ Row style forced t (x ++ c.old) cs

variable {style : Style} {forced : Option String} {t x : Text} {cs : List Change}

theorem row_append {cs' : List Change} :
    Row style forced t x (cs ++ cs') ↔
      Row style forced t x cs ∧ Row style forced t (x ++ cs.flatMap Change.old) cs' := by
  induction cs generalizing x with
  | nil => simp [Row]
  | cons c cs ih =>
      rw [List.cons_append, Row, Row, ih, and_assoc, List.flatMap_cons, List.append_assoc]

/-- Every change of a row holds behind some text. -/
theorem Row.exists_holds {c : Change} (h : Row style forced t x cs) (hc : c ∈ cs) :
    ∃ y, c.Holds style forced t (x ++ y) := by
  obtain ⟨ds, es, rfl⟩ := List.append_of_mem hc
  exact ⟨_, (row_append.mp h).2.1⟩

/-- A change starts no later than those behind it. -/
theorem Row.start_le {c d : Change} (h : Row style forced t x (c :: cs)) (hd : d ∈ cs) :
    c.site.mention.start ≤ d.site.mention.start := by
  obtain ⟨hc, hcs⟩ := h
  obtain ⟨y, hy⟩ := Row.exists_holds hcs hd
  rw [hc.start, hy.start, Change.old]
  simp only [List.length_append]
  omega

/-- The edits of changes in a row lie between the ends of the row. -/
theorem Row.apart_append (h : Row style forced t x cs) {es : List Edit}
    (hes : Edit.Apart (x ++ cs.flatMap Change.old).length es) :
    Edit.Apart x.length (cs.flatMap Change.edits ++ es) := by
  induction cs generalizing x with
  | nil => simpa using hes
  | cons c cs ih =>
      rw [List.flatMap_cons, ← List.append_assoc] at hes
      rw [List.flatMap_cons, List.append_assoc]
      exact h.1.apart (ih h.2 hes)

theorem Row.apart (h : Row style forced t x cs) :
    Edit.Apart x.length (cs.flatMap Change.edits) := by
  have hends : Edit.Apart x.length (cs.flatMap Change.edits ++ []) := h.apart_append trivial
  rwa [List.append_nil] at hends

theorem Row.applyOrdered_edits (h : Row style forced t x cs) (r : Text) :
    Edit.applyOrdered (cs.flatMap Change.edits) (x ++ cs.flatMap Change.old ++ r) =
      x ++ cs.flatMap Change.new ++ r := by
  induction cs generalizing x with
  | nil => simp
  | cons c cs ih =>
      obtain ⟨hc, hcs⟩ := h
      have hrest := ih hcs
      rw [List.flatMap_cons, List.flatMap_cons, List.flatMap_cons, Edit.applyOrdered_append,
        ← List.append_assoc x, hrest, List.append_assoc (x ++ c.old), hc.applyOrdered_edits]
      simp

/-- The edits of changes in a row write every new call in its place. -/
theorem Row.applyAll_edits (h : Row style forced t [] cs) (r : Text) :
    Edit.applyAll (cs.flatMap Change.old ++ r) (cs.flatMap Change.edits) =
      .ok (cs.flatMap Change.new ++ r) := by
  rw [Edit.applyAll_of_apart h.apart]
  exact congrArg Except.ok (h.applyOrdered_edits r)

end Conversion

end LogCalls
