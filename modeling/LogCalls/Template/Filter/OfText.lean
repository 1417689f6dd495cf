/-
LogCalls/Template/Filter/OfText.lean

The filters that change a text: its letters, its width, its lines, and the
places in it that are filled.  A value that is no text is taken as the text
that shows it.
-/
import LogCalls.Template.Filter.Basic
import LogCalls.Text.Wrap

namespace LogCalls.Template.Machine

/-- Whether a character stands between the words of a title. -/
def beginsTitleWord (c : Char) : Bool :=
  c == '-' || c == '(' || c == '{' || c == '[' || c == '<' || Text.isBlank c


/-- A text as a title: each word in small letters behind a capital. -/
def asTitle (t : Text) : Text :=
  let step (p : Text × List Text) (c : Char) : Text × List Text :=
    -- words and what stands between them, the last one first
    match p.1.head? with
    | some d => if beginsTitleWord d == beginsTitleWord c then (c :: p.1, p.2)
      else ([c], p.1.reverse :: p.2)
    | none => ([c], p.2)
  let (last, done) := t.foldl step ([], [])
  let pieces := (if last.isEmpty then done else last.reverse :: done).reverse
  pieces.flatMap fun piece =>
    match piece with
    | [] => []
    | c :: r => Text.capitalsOf c ++ Text.small r

/-- The number of words in a text. -/
def wordCount : Bool → Text → Nat
  | _, [] => 0
  | inWord, c :: r =>
    let now := Text.isWord c
    wordCount now r + (if now && !inWord then 1 else 0)

/-- A method of texts as a filter of one value. -/
def plainFilter (m : Machine) (label method : String) (v : Value) (a : Arguments) :
    Eval Value := do
  let vs ← Signature.apply ⟨label, [needed "s"]⟩ none v a
  m.method (← m.asText (valueAt vs 0)) method.toList ⟨[], []⟩

/-- A text cut to a length, at the end of a word where there is one. -/
def truncated (m : Machine) (v length killWords ending leeway : Value) : Eval Value := do
  let slack : Value := match leeway with
    | .none => .whole 5
    | w => w
  let tail ← m.length ending
  if !(← holdsOrder .ge length (.whole tail)) then
    Eval.wrong .assertion ("expected length >= " ++ toString tail ++ ", got " ++
      String.ofList (← m.shown length))
  if !(← holdsOrder .ge slack (.whole 0)) then
    Eval.wrong .assertion ("expected leeway >= 0, got " ++ String.ofList (← m.shown slack))
  let size ← m.length v
  if ← holdsOrder .le (.whole size) (← m.binary .add length slack) then return v
  let start ← cutOf v .none (← m.binary .sub length (.whole tail)) .none
  if ← m.holds killWords then m.binary .add start ending
  else
    match start with
    | .text t => m.binary .add (.text ((Text.piecesFromEnd [' '] 1 t).headD [])) ending
    | .markup t => m.binary .add (.markup ((Text.piecesFromEnd [' '] 1 t).headD [])) ending
    | w =>
      Eval.wrong .attribute ("'" ++ (← Eval.kindName w) ++ "' object has no attribute 'rsplit'")

/-- A text with its lines moved to the right. -/
def indented (m : Machine) (v width first blank : Value) : Eval Value := do
  let indention ← match width with
    | .text t | .markup t => pure (Value.text t)
    | w => m.binary .mul (.text [' ']) w
  let (t, marked) ← match v with
    | .text t => pure (t, false)
    | .markup t => pure (t, true)
    | .missing _ complaint => Eval.needs complaint
    | v =>
      match ← Eval.kindOf v with
      | .list => Eval.wrong .attribute "'list' object has no attribute 'splitlines'"
      | .row => Eval.wrongType "can only concatenate tuple (not \"str\") to tuple"
      | k => Eval.wrongType ("unsupported operand type(s) for +=: '" ++ k.name ++ "' and 'str'")
  let margin := indention.text?.getD []
  let lines := Text.anyLines false (t ++ ['\n'])
  let all ← m.holds blank
  let rest := (lines.drop 1).map fun l => if l.isEmpty && !all then l else margin ++ l
  let body := Text.joinWith ['\n'] (lines.headD [] :: rest)
  let whole := if ← m.holds first then margin ++ body else body
  return if marked then .markup whole else .text whole

/-- A text broken into lines of a width. -/
def wordWrapped (m : Machine) (v width breakWords wrapper breakHyphens : Value) : Eval Value := do
  let separator ← match wrapper with
    | .none => pure ['\n']
    | .text t | .markup t => pure t
    | w =>
      Eval.wrong .attribute ("'" ++ (← Eval.kindName w) ++ "' object has no attribute 'join'")
  match v with
  | .missing _ complaint => Eval.needs complaint
  | v =>
    match v.text? with
    | none =>
      Eval.wrong .attribute ("'" ++ (← Eval.kindName v) ++ "' object has no attribute 'splitlines'")
    | some t =>
      let lines := Text.anyLines false t
      if lines.isEmpty then return .text []
      if ← holdsOrder .le width (.whole 0) then
        Eval.wrongValue ("invalid width " ++ String.ofList (← m.written width) ++
          " (must be > 0)")
      let n := match width with
        | .real x => (x.floor?.getD 0).toNat
        | w => (w.int?.getD 0).toNat
      let style : Text.Wrapping := ⟨n, ← m.holds breakWords, identical breakHyphens (.truth true),
        ← m.holds breakHyphens⟩
      let broken := lines.map fun l => Text.joinWith separator (Text.wrapped style l)
      return .text (Text.joinWith separator broken)

/-- A text with the percent places filled from what a filter is given. -/
def formatted (m : Machine) (v : Value) (a : Arguments) : Eval Value := do
  if !a.given.isEmpty && !a.named.isEmpty then Eval.refuse
  let filling ← if a.named.isEmpty then pure (Value.row a.given)
    else Eval.mapping (a.named.map fun p => (.text p.1, p.2))
  m.binary .mod (← m.asText v) filling

/-- A text with each occurrence of a part replaced. -/
def replacedAll (m : Machine) (v old new count : Value) : Eval Value := do
  let most : Value := match count with
    | .none => .whole (-1)
    | w => w
  if (← get).escapes then
    let isMarkup : Value → Bool := fun w => match w with
      | .markup _ => true
      | _ => false
    let s ← if isMarkup old || (isMarkup new && !isMarkup v) then
        Value.markup <$> m.escaped v
      else m.asText v
    m.method s "replace".toList ⟨[← m.asText old, ← m.asText new, most], []⟩
  else
    let s ← m.shown v
    m.textMethod s "replace" ⟨[.text (← m.shown old), .text (← m.shown new), most], []⟩

/-- The filters that change a text. -/
def textFilter? (m : Machine) (name : String) (v : Value) (a : Arguments) :
    Option (Eval Value) :=
  match name with
  | "upper" => some (m.plainFilter "do_upper" "upper" v a)
  | "lower" => some (m.plainFilter "do_lower" "lower" v a)
  | "capitalize" => some (m.plainFilter "do_capitalize" "capitalize" v a)
  | "title" => some do
    let vs ← Signature.apply ⟨"do_title", [needed "s"]⟩ none v a
    return .text (asTitle (← m.shown (valueAt vs 0)))
  | "trim" => some do
    let vs ← Signature.apply ⟨"do_trim", [needed "value", optionalParameter "chars" .none]⟩ none v a
    m.method (← m.asText (valueAt vs 0)) "strip".toList ⟨[valueAt vs 1], []⟩
  | "center" => some do
    let vs ← Signature.apply
      ⟨"do_center", [needed "value", optionalParameter "width" (.whole 80)]⟩ none v a
    m.method (← m.asText (valueAt vs 0)) "center".toList ⟨[valueAt vs 1], []⟩
  | "replace" => some do
    let vs ← Signature.apply ⟨"do_replace",
      [needed "s", needed "old", needed "new", optionalParameter "count" .none]⟩
      (some "eval_ctx") v a
    m.replacedAll (valueAt vs 0) (valueAt vs 1) (valueAt vs 2) (valueAt vs 3)
  | "truncate" => some do
    let vs ← Signature.apply ⟨"do_truncate",
      [needed "s", optionalParameter "length" (.whole 255),
        optionalParameter "killwords" (.truth false), optionalParameter "end" (.ofString "..."),
        optionalParameter "leeway" .none]⟩ (some "env") v a
    m.truncated (valueAt vs 0) (valueAt vs 1) (valueAt vs 2) (valueAt vs 3) (valueAt vs 4)
  | "indent" => some do
    let vs ← Signature.apply ⟨"do_indent",
      [needed "s", optionalParameter "width" (.whole 4),
        optionalParameter "first" (.truth false), optionalParameter "blank" (.truth false)]⟩
      none v a
    m.indented (valueAt vs 0) (valueAt vs 1) (valueAt vs 2) (valueAt vs 3)
  | "wordwrap" => some do
    let vs ← Signature.apply ⟨"do_wordwrap",
      [needed "s", optionalParameter "width" (.whole 79),
        optionalParameter "break_long_words" (.truth true),
        optionalParameter "wrapstring" .none,
        optionalParameter "break_on_hyphens" (.truth true)]⟩ (some "environment") v a
    m.wordWrapped (valueAt vs 0) (valueAt vs 1) (valueAt vs 2) (valueAt vs 3) (valueAt vs 4)
  | "wordcount" => some do
    let vs ← Signature.apply ⟨"do_wordcount", [needed "s"]⟩ none v a
    return .whole (wordCount false (← m.shown (valueAt vs 0)))
  | "format" => some (m.formatted v a)
  | "string" => some do
    let vs ← Signature.apply ⟨"soft_str", [needed "s"]⟩ none v a
    m.asText (valueAt vs 0)
  | "escape" | "e" => some do
    let vs ← Signature.apply ⟨"escape", [needed "s"]⟩ none v a
    return .markup (← m.escaped (valueAt vs 0))
  | "forceescape" => some do
    let vs ← Signature.apply ⟨"do_forceescape", [needed "value"]⟩ none v a
    return .markup ((← m.shown (valueAt vs 0)).flatMap escapeChar)
  | "safe" => some do
    let vs ← Signature.apply ⟨"do_mark_safe", [needed "value"]⟩ none v a
    return .markup (← m.shown (valueAt vs 0))
  | "striptags" => some do
    let vs ← Signature.apply ⟨"do_striptags", [needed "value"]⟩ none v a
    return .text (Text.withoutTags (← m.shown (valueAt vs 0)))
  | _ => none

end LogCalls.Template.Machine
