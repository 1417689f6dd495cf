/-
LogCalls/Proofs/Template/Fill.lean

Templates that show texts and names.  Such a template is one statement, and a
name in it gets its value in three steps: the name is noted on the level of the
template (`Noted`), its slot is loaded from the surroundings when the level is
entered (`enter_run`), and the slot is read where the name is shown
(`valueOf_run`).

Main result: such a template shows its texts and what its names stand for
(`fill_eq_ok`).  The usual title is one of them, so it renders for every call
(`Style.titleFor_default`).
-/
import LogCalls.Action
import LogCalls.Proofs.Outcome

namespace LogCalls

namespace Template

/-- A step that gives a value goes on with it. -/
theorem Eval.bind_of_ok {α β : Type} {e : Eval α} {f : α → Eval β} {st st' : Store} {a : α}
    (h : e st = .ok (a, st')) : (e >>= f) st = f a st' := by
  show (e st >>= fun p => f p.1 p.2) = f a st'
  rw [h]
  rfl

/-! ### Entries by their keys -/

section

variable {α β : Type} [BEq α]

theorem Symbols.mem_put {l : List (α × β)} {k : α} {v : β} {p : α × β} (h : p ∈ put l k v) :
    p ∈ l ∨ p = (k, v) := by
  rw [put] at h
  split at h
  · obtain ⟨q, hq, rfl⟩ := List.mem_map.mp h
    split
    · exact .inr rfl
    · exact .inl hq
  · simpa using h

variable [LawfulBEq α]

theorem lookup_map_replaced (l : List (α × β)) (k k' : α) (v : β) :
    (l.map fun p => if p.1 == k then (k, v) else p).lookup k' =
      if k' == k then (l.lookup k').map fun _ => v else l.lookup k' := by
  induction l with
  | nil => simp
  | cons p l ih =>
      rcases p with ⟨a, b⟩
      by_cases hk : k' = k
      · subst hk
        by_cases ha : a = k'
        · simp [ha]
        · simpa [List.lookup_cons, ha, beq_eq_false_iff_ne.mpr (Ne.symm ha)] using ih
      · by_cases ha : a = k
        · subst ha
          simpa [List.lookup_cons, beq_eq_false_iff_ne.mpr hk] using ih
        · simp only [beq_eq_false_iff_ne.mpr hk, Bool.false_eq_true, if_false] at ih ⊢
          simp [List.lookup_cons, ha, ih]

/-- What was put last for a key is found there. -/
theorem Symbols.lookup_put (l : List (α × β)) (k k' : α) (v : β) :
    (put l k v).lookup k' = if k' == k then some v else l.lookup k' := by
  rw [put]
  split
  · next h =>
      have hfound : (l.lookup k).isSome = true := by
        obtain ⟨p, hp, hk⟩ := List.any_eq_true.mp h
        exact List.lookup_isSome_iff.mpr ⟨p, hp, by rwa [BEq.comm]⟩
      obtain ⟨b, hb⟩ := Option.isSome_iff_exists.mp hfound
      rw [lookup_map_replaced]
      by_cases hk : k' = k
      · rw [hk, hb]
        rfl
      · simp [hk]
  · next h =>
      rw [List.lookup_append]
      by_cases hk : k' = k
      · have hnone : l.lookup k = none := by
          simp only [List.any_eq_true, beq_iff_eq, not_exists, not_and] at h
          exact List.lookup_eq_none_iff.mpr fun p hp => bne_iff_ne.mpr (Ne.symm (h p hp))
        simp [hk, hnone]
      · simp [List.lookup_cons, beq_eq_false_iff_ne.mpr hk]

end

/-! ### Texts and names -/

/-- A piece of a template: a text as it is, or a name. -/
inductive Piece where
  | written (t : Text)
  | named (s : Text)
  deriving DecidableEq

namespace Piece

/-- The expression of a piece. -/
def expr : Piece → Expr
  | written t => .plain t
  | named s => .name s

/-- What a piece shows where names stand for texts. -/
def shown (value : Text → Text) : Piece → Text
  | written t => t
  | named s => value s

end Piece

/-- The statement that shows some pieces. -/
def shows (ps : List Piece) : Stmt := .output (ps.map Piece.expr)

@[simp] theorem names_plain (t : Text) : (Expr.plain t).names = [] := by
  simp [Expr.names, Expr.children]

@[simp] theorem names_name (s : Text) : (Expr.name s).names = [s] := by
  rw [Expr.names]

/-! ### The checks -/

/-- A name has no value before the template is filled. -/
theorem constant?_name (level : Nat) (escapes : Option Bool) (s : Text) (st : Store) :
    (machine (level + 1)).constant? escapes (.name s) st = none := by
  cases escapes <;> rfl

theorem checkExpr_name (m : Machine) (isArm : Bool) (escapes : Option Bool) (s : Text) :
    checkExpr m isArm escapes (.name s) = .ok () := by
  rw [checkExpr]
  · rfl
  · rintro _ _ _ _ _ _ ⟨⟩
  · rintro _ _ _ _ _ _ ⟨⟩
  · rintro _ _ _ _ ⟨⟩

theorem checkStmt_shows (level : Nat) (p : Spot) (ps : List Piece) :
    checkStmt (machine (level + 1)) p (shows ps) = .ok () := by
  rw [shows, checkStmt]
  induction ps with
  | nil => rfl
  | cons q ps ih =>
      have hq : p.shown (machine (level + 1)) q.expr = .ok () := by
        rcases q with t | n
        · rfl
        · rw [Piece.expr, Spot.shown]
          · rw [constant?_name]
            exact checkExpr_name _ _ _ _
          · rintro _ ⟨⟩
      show (p.shown (machine (level + 1)) q.expr >>= fun _ =>
        (ps.map Piece.expr).forM (p.shown (machine (level + 1)))) = .ok ()
      rw [hq, ok_bind, ih]

theorem check_shows (level : Nat) (ps : List Piece) :
    check (machine (level + 1)) [shows ps] = .ok [] := by
  have hall : (shows ps).all = [shows ps] := by
    rw [Stmt.all]
    rfl
  have hblocks : blocksOf [shows ps] = [] := by
    rw [blocksOf, List.flatMap_singleton, hall]
    rfl
  rw [check, hblocks]
  simp only [checkAll, checkStmt_shows]
  rfl

/-- A template that does not name itself needs no name for itself. -/
theorem undeclared_shows {ps : List Piece} (h : .named "self".toList ∉ ps) :
    undeclared [shows ps] ["self"] = [] := by
  have hread : ∀ ps : List Piece, .named "self".toList ∉ ps →
      (ps.map Piece.expr).foldl Search.readAll ⟨["self".toList], []⟩ = ⟨["self".toList], []⟩ := by
    intro ps
    induction ps with
    | nil => exact fun _ => rfl
    | cons p ps ih =>
        intro h
        obtain ⟨hp, hps⟩ := not_or.mp (mt List.mem_cons.mpr h)
        have hkeep : Search.readAll ⟨["self".toList], []⟩ p.expr = ⟨["self".toList], []⟩ := by
          rcases p with t | n
          · rw [Piece.expr, Search.readAll, names_plain, List.foldl_nil]
          · have hn : n ≠ "self".toList := fun heq => hp (by rw [heq])
            rw [Piece.expr, Search.readAll, names_name, List.foldl_cons, List.foldl_nil,
              Search.read, List.contains_cons, List.contains_nil, Bool.or_false,
              beq_eq_false_iff_ne.mpr hn, Bool.false_and]
            rfl
        rw [List.map_cons, List.foldl_cons, hkeep, ih hps]
  exact congrArg Search.found (hread ps h)

/-! ### The names of the template -/

/-- The names of a level at the top: each has its own slot, and all slots are
loaded from the surroundings. -/
structure Noted (s : Symbols) : Prop where
  level : s.level = 0
  slot : ∀ n slot, s.refs.lookup n = some slot → slot = ⟨0, n⟩ ∧ s.loads.lookup slot = some .resolve
  load : ∀ p ∈ s.loads, p.2 = .resolve

theorem Noted.empty : Noted (Symbols.empty 0) where
  level := rfl
  slot := by simp [Symbols.empty]
  load := by simp [Symbols.empty]

theorem Noted.read {s : Symbols} (h : Noted s) (n : Text) :
    Noted (s.read [] n) ∧ ((s.read [] n).refs.lookup n).isSome ∧
      ∀ n', (s.refs.lookup n').isSome → ((s.read [] n).refs.lookup n').isSome := by
  have hfind : Symbols.find? [s] n = s.refs.lookup n := by
    simp [Symbols.find?]
  rw [Symbols.read, hfind]
  split
  · next hsome => exact ⟨h, hsome, fun _ h => h⟩
  -- a new name gets its slot, and the other names keep theirs
  · refine ⟨⟨h.level, ?_, ?_⟩, ?_, ?_⟩
    · intro n' slot hslot
      simp only [Symbols.define, Symbols.lookup_put, h.level] at hslot ⊢
      by_cases hn : n' = n
      · subst hn
        obtain rfl : _ = slot := by simpa using hslot
        simp
      · have hold : s.refs.lookup n' = some slot := by simpa [hn] using hslot
        obtain ⟨rfl, hload⟩ := h.slot n' slot hold
        simp [hn, hload]
    · intro p hp
      rcases Symbols.mem_put hp with hp | rfl
      · exact h.load p hp
      · rfl
    · simp [Symbols.define, Symbols.lookup_put]
    · intro n' hn'
      simp only [Symbols.define, Symbols.lookup_put]
      split
      · rfl
      · exact hn'

theorem Noted.readAll {s : Symbols} (h : Noted s) (ps : List Piece) :
    Noted ((ps.map Piece.expr).foldl (Symbols.readAll []) s) ∧
      ∀ n, .named n ∈ ps ∨ (s.refs.lookup n).isSome →
        (((ps.map Piece.expr).foldl (Symbols.readAll []) s).refs.lookup n).isSome := by
  induction ps generalizing s with
  | nil => exact ⟨h, fun n hn => hn.resolve_left List.not_mem_nil⟩
  | cons p ps ih =>
      rcases p with t | n
      · obtain ⟨hnoted, hkeeps⟩ := ih h
        simp only [List.map_cons, List.foldl_cons, Piece.expr, Symbols.readAll, names_plain,
          List.foldl_nil]
        refine ⟨hnoted, fun n hn => hkeeps n ?_⟩
        simpa using hn
      · obtain ⟨hread, hnew, hold⟩ := h.read n
        obtain ⟨hnoted, hkeeps⟩ := ih hread
        simp only [List.map_cons, List.foldl_cons, Piece.expr, Symbols.readAll, names_name,
          List.foldl_nil]
        refine ⟨hnoted, fun n' hn' => hkeeps n' ?_⟩
        rcases hn' with hmem | hsome
        · rcases List.mem_cons.mp hmem with heq | hmem
          · cases heq
            exact .inr hnew
          · exact .inl hmem
        · exact .inr (hold n' hsome)

/-- The level of the template knows its names. -/
theorem noted_shows {ps : List Piece} (hself : .named "self".toList ∉ ps) :
    Noted (templateSymbols [shows ps]) ∧
      ∀ n, .named n ∈ ps → ((templateSymbols [shows ps]).refs.lookup n).isSome := by
  have hsymbols : templateSymbols [shows ps] =
      (ps.map Piece.expr).foldl (Symbols.readAll []) (Symbols.empty 0) := by
    rw [templateSymbols, undeclared_shows hself]
    rfl
  obtain ⟨hnoted, hknown⟩ := Noted.empty.readAll ps
  rw [hsymbols]
  exact ⟨hnoted, fun n hn => hknown n (.inl hn)⟩

/-! ### The slots of the template -/

/-- The place at the top of a template. -/
def top (s : Symbols) : Frame := ⟨[s], 1, 0, some false, true, false⟩

/-- The store while a template without objects of its own is filled. -/
def storeOf (given : List (Text × Value)) (slots : List (Slot × Option Value))
    (shown : List Value) : Store :=
  ⟨#[.context [] given, .locals none slots], shown, false, []⟩

/-- The slots after some are loaded. -/
def loaded (given : List (Text × Value)) (slots : List (Slot × Option Value))
    (loads : List (Slot × Load)) : List (Slot × Option Value) :=
  loads.foldl (fun slots p => Symbols.put slots p.1 (given.lookup p.1.name)) slots

section

variable {given : List (Text × Value)} {slots slots' : List (Slot × Option Value)}
variable {shown : List Value} {s : Symbols} {n u : Text}

theorem lookup_loaded {loads : List (Slot × Load)} {slot : Slot}
    (h : (∃ l, (slot, l) ∈ loads) ∨ slots.lookup slot = some (given.lookup slot.name)) :
    (loaded given slots loads).lookup slot = some (given.lookup slot.name) := by
  induction loads generalizing slots with
  | nil => exact h.resolve_left (by simp)
  | cons p loads ih =>
      rcases p with ⟨other, l⟩
      refine ih ?_
      rw [Symbols.lookup_put]
      by_cases heq : slot = other
      · subst heq
        exact .inr (by simp)
      · rcases h with ⟨l', hmem⟩ | hslot
        · rcases List.mem_cons.mp hmem with hhead | hmem
          · exact absurd (congrArg Prod.fst hhead) heq
          · exact .inl ⟨l', hmem⟩
        · exact .inr (by simp [heq, hslot])

theorem loadSlot_run (s : Symbols) (slot : Slot) :
    (top s).loadSlot slot .resolve (storeOf given slots shown) =
      .ok ((), storeOf given (Symbols.put slots slot (given.lookup slot.name)) shown) := rfl

/-- The slots are loaded from the surroundings. -/
theorem enter_run (h : Noted s) :
    (top s).enter (storeOf given slots shown) =
      .ok ((), storeOf given (loaded given slots s.loads) shown) := by
  -- the loads are taken as a list of their own for the induction
  have hrun : ∀ (loads : List (Slot × Load)) (slots : List (Slot × Option Value)),
      (∀ p ∈ loads, p.2 = .resolve) →
      (loads.forM fun p => (top s).loadSlot p.1 p.2) (storeOf given slots shown) =
        .ok ((), storeOf given (loaded given slots loads) shown) := by
    intro loads
    induction loads with
    | nil => exact fun _ _ => rfl
    | cons p loads ih =>
        intro slots hloads
        obtain ⟨hp, htail⟩ := List.forall_mem_cons.mp hloads
        show ((top s).loadSlot p.1 p.2 >>= fun _ => loads.forM fun p => (top s).loadSlot p.1 p.2)
          (storeOf given slots shown) = _
        rw [hp, Eval.bind_of_ok (loadSlot_run s p.1)]
        exact ih _ htail
  exact hrun s.loads slots h.load

/-- A name that is noted has the value that the surroundings give it. -/
theorem valueOf_run (h : Noted s) (hn : (s.refs.lookup n).isSome) {v : Value}
    (hv : given.lookup n = some v) :
    (top s).valueOf n (storeOf given (loaded given slots s.loads) shown) =
      .ok (v, storeOf given (loaded given slots s.loads) shown) := by
  obtain ⟨slot, hslot⟩ := Option.isSome_iff_exists.mp hn
  obtain ⟨rfl, hload⟩ := h.slot n slot hslot
  have hfind : Symbols.find? (top s).levels n = some ⟨0, n⟩ := by
    simp [top, Symbols.find?, hslot]
  have hvalue : (loaded given slots s.loads).lookup ⟨0, n⟩ = some (some v) := by
    obtain ⟨before, behind, hloads, -⟩ := List.lookup_eq_some_iff.mp hload
    rw [lookup_loaded (.inl ⟨.resolve, by simp [hloads]⟩), hv]
  have hobject : Eval.object? 1 (storeOf given (loaded given slots s.loads) shown) =
      .ok (some (.locals none (loaded given slots s.loads)),
        storeOf given (loaded given slots s.loads) shown) := rfl
  have hread : readSlot 1 ⟨0, n⟩ (storeOf given (loaded given slots s.loads) shown) =
      .ok (some v, storeOf given (loaded given slots s.loads) shown) := by
    rw [readSlot, Eval.bind_of_ok hobject]
    simp only [hvalue]
    rfl
  rw [Frame.valueOf, hfind]
  show (readSlot 1 ⟨0, n⟩ >>= fun o => pure (o.getD _)) _ = _
  rw [Eval.bind_of_ok hread]
  rfl

/-! ### What is shown -/

/-- A text that waits is a piece of its own before the value of a name. -/
theorem show_name_run (level : Nat) {pending : Option Text} {rest : List Expr}
    (h : ∀ shown, (top s).valueOf n (storeOf given slots shown) =
      .ok (.text u, storeOf given slots shown)) :
    (machine (level + 1)).show_ (top s) pending (.name n :: rest) (storeOf given slots shown) =
      (machine (level + 1)).show_ (top s) none rest
        (storeOf given slots (.text u :: (pending.toList.map Value.text ++ shown))) := by
  have hget : (get : Eval Store) (storeOf given slots shown) =
      .ok (storeOf given slots shown, storeOf given slots shown) := rfl
  have hshown : ∀ shown, ((machine (level + 1)).eval (top s) (.name n) >>= fun v =>
      (machine (level + 1)).pieceOf v >>= fun w => Eval.put w >>= fun _ =>
        (machine (level + 1)).show_ (top s) none rest) (storeOf given slots shown) =
      (machine (level + 1)).show_ (top s) none rest (storeOf given slots (.text u :: shown)) := by
    intro shown
    have heval : (machine (level + 1)).eval (top s) (.name n) (storeOf given slots shown) =
        .ok (.text u, storeOf given slots shown) := h shown
    rw [Eval.bind_of_ok heval]
    rfl
  -- the name is not known in advance, so the text that waits is shown first
  rw [Machine.show_, Eval.bind_of_ok hget, constant?_name]
  · cases pending with
    | none => exact hshown shown
    | some t => exact hshown (.text t :: shown)
  · rintro _ ⟨⟩

/-- The pieces are shown in order, neighbouring texts as one. -/
theorem show_run (level : Nat) (value : Text → Text) {ps : List Piece}
    (h : ∀ n, .named n ∈ ps → ∀ shown, (top s).valueOf n (storeOf given slots shown) =
      .ok (.text (value n), storeOf given slots shown)) (pending : Option Text)
    (shown : List Value) :
    ∃ ts : List Text, ts.flatten = pending.getD [] ++ ps.flatMap (Piece.shown value) ∧
      (machine (level + 1)).show_ (top s) pending (ps.map Piece.expr) (storeOf given slots shown) =
        .ok ((), storeOf given slots ((ts.map Value.text).reverse ++ shown)) := by
  induction ps generalizing pending shown with
  | nil =>
      cases pending with
      | none => exact ⟨[], rfl, rfl⟩
      | some t => exact ⟨[t], by simp, rfl⟩
  | cons p ps ih =>
      have htail := fun n hn => h n (List.mem_cons_of_mem p hn)
      rcases p with t | n
      · obtain ⟨ts, hts, hrun⟩ := ih htail (some (pending.getD [] ++ t)) shown
        exact ⟨ts, by simpa [Piece.shown] using hts, hrun⟩
      · obtain ⟨ts, hts, hrun⟩ := ih htail none
          (.text (value n) :: (pending.toList.map Value.text ++ shown))
        refine ⟨pending.toList ++ value n :: ts, ?_, ?_⟩
        · cases pending <;> simp [hts, Piece.shown]
        · rw [List.map_cons, Piece.expr, show_name_run level (h n List.mem_cons_self), hrun]
          cases pending <;> simp

theorem joinPieces_text (i : Nat) (ts : List Text) (st : Store) :
    Eval.joinPieces i (ts.map Value.text) st = .ok (ts.flatten, st) := by
  induction ts generalizing i with
  | nil => rfl
  | cons t ts ih =>
      show (Eval.joinPieces (i + 1) (ts.map Value.text) >>= fun r => pure (t ++ r)) st = _
      rw [Eval.bind_of_ok (ih (i + 1))]
      rfl

theorem captured_run {e : Eval Unit} {ts : List Text}
    (h : e (storeOf given slots []) = .ok ((), storeOf given slots' (ts.map Value.text).reverse)) :
    Eval.captured e (storeOf given slots shown) = .ok (ts.flatten, storeOf given slots' shown) := by
  show (e >>= fun _ => get >>= fun st =>
    modify (fun s => { s with shown := shown }) >>= fun _ => Eval.joinPieces 0 st.shown.reverse)
      (storeOf given slots []) = _
  rw [Eval.bind_of_ok h]
  show Eval.joinPieces 0 (ts.map Value.text).reverse.reverse (storeOf given slots' shown) = _
  rw [List.reverse_reverse, joinPieces_text]

end

/-! ### Filled templates -/

/-- What a template knows by name. -/
def surroundings (names : List (Text × Text)) : List (Text × Value) :=
  names.foldl (fun l p => Symbols.put l p.1 (Value.text p.2)) commonNames

/-- The store when the level of a template is entered. -/
def entered (names : List (Text × Text)) (ps : List Piece) (shown : List Value) : Store :=
  storeOf (surroundings names)
    (loaded (surroundings names) [] (templateSymbols [shows ps]).loads) shown

variable {ps : List Piece} {names : List (Text × Text)} {value : Text → Text}

theorem showBody_shows (level : Nat) (hself : .named "self".toList ∉ ps)
    (hnames : ∀ n, .named n ∈ ps → (surroundings names).lookup n = some (.text (value n))) :
    ∃ st, showBody (machine (level + 2)) [shows ps] (firstStore names []) =
      .ok (ps.flatMap (Piece.shown value), st) := by
  obtain ⟨hnoted, hknown⟩ := noted_shows hself
  have hvalues : ∀ n, .named n ∈ ps → ∀ shown, (top (templateSymbols [shows ps])).valueOf n
      (entered names ps shown) = .ok (.text (value n), entered names ps shown) :=
    fun n hn _ => valueOf_run hnoted (hknown n hn) (hnames n hn)
  obtain ⟨ts, hts, hshow⟩ := show_run level value hvalues none []
  have hbody : (machine (level + 2)).run (top (templateSymbols [shows ps])) [shows ps]
      (entered names ps []) = .ok ((), entered names ps (ts.map Value.text).reverse) := by
    show ((machine (level + 1)).show_ (top (templateSymbols [shows ps])) none
      (ps.map Piece.expr) >>= fun _ => pure ()) (entered names ps []) = _
    rw [entered, Eval.bind_of_ok hshow, List.append_nil]
    rfl
  have hsteps : showBody (machine (level + 2)) [shows ps] (firstStore names []) =
      ((top (templateSymbols [shows ps])).enter >>= fun _ => Eval.captured
        ((machine (level + 2)).run (top (templateSymbols [shows ps])) [shows ps]))
          (storeOf (surroundings names) [] []) := by
    rw [showBody, undeclared_shows hself]
    rfl
  rw [hsteps, Eval.bind_of_ok (enter_run hnoted), captured_run hbody, hts]
  exact ⟨_, rfl⟩

/-- A template of texts and names, each of which stands for a text, shows the
texts in order. -/
theorem fill_eq_ok {t : Text} (hread : read t = .ok [shows ps])
    (hself : .named "self".toList ∉ ps)
    (hnames : ∀ n, .named n ∈ ps → (surroundings names).lookup n = some (.text (value n))) :
    fill t names = .ok (ps.flatMap (Piece.shown value)) := by
  obtain ⟨st, hbody⟩ := showBody_shows 898 hself hnames
  have hlevels : levels = 898 + 2 := rfl
  simp only [fill, hread, ok_bind, hlevels, check_shows, StateT.run', hbody]
  rfl

end Template

/-! ### Titles -/

/-- The usual title names the new call. -/
theorem Style.titleFor_default (logger severity : String) (m : Mention) :
    Style.default.titleFor logger severity m =
      .ok ("Convert to ".toList ++ Action.callee logger severity) := by
  let names : List (Text × Text) :=
    [("logger".toList, logger.toList), ("severity".toList, severity.toList),
      ("stream".toList, m.stream.name.toList), ("method".toList, m.method)]
  have hfill : Template.fill default.title.toList names =
      .ok ([.written "Convert to ".toList, .named "logger".toList, .written ['.'],
        .named "severity".toList].flatMap (Template.Piece.shown fun n => (names.lookup n).getD [])) := by
    refine Template.fill_eq_ok rfl (by decide) fun n hn => ?_
    simp only [List.mem_cons, Template.Piece.named.injEq, reduceCtorEq, false_or, List.not_mem_nil,
      or_false] at hn
    rcases hn with rfl | rfl
    · rfl
    · rfl
  refine hfill.trans (congrArg Except.ok ?_)
  show "Convert to ".toList ++ (logger.toList ++ (['.'] ++ (severity.toList ++ []))) = _
  rw [List.append_nil]
  rfl

end LogCalls
