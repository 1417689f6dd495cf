/-
LogCalls/Job.lean

The conversion of one file.  A job reads its file, plans from the content alone
what is to be written (`Job.plan`), and then writes it (`Job.finish`); so between
reading and writing it depends on no other file.  A fault in the content or of the
file system is recorded in the result, any other ends the run.

A file is opened for writing before the new text is turned into bytes, so a text that
has none, or one there is no room for, leaves a file that is empty or cut.
-/
import LogCalls.Conversion
import LogCalls.Settings.Records
import LogCalls.Tree

namespace LogCalls

/-- A file that is to be converted, and how. -/
structure Job where
  path : Path
  style : Style
  options : RunOptions
  /-- The severity for print calls to the standard output, where one is forced. -/
  forced : Option String

/-- What became of a file. -/
structure FileResult where
  path : Path
  /-- Where the converted text was written. -/
  output : Option Path
  converted : Nat
  skipped : Nat
  /-- What went wrong, empty where nothing did. -/
  error : String
  deriving DecidableEq, Repr

/-- What the content of a file leads to. -/
structure Job.Plan where
  converted : Nat
  skipped : Nat
  /-- The bytes to write and where, if there is something to write; a text that has no
  bytes is only found to have none when it is written. -/
  write : Except Fault (Option (Path × Except Fault (List UInt8)))
  entries : List Entry

/-- The end of a job. -/
structure Job.Outcome where
  result : FileResult
  /-- The fault that the job does not contain. -/
  raised : Option Fault
  tree : Tree
  entries : List Entry

/-- The names that a style puts into texts. -/
def Style.names (s : Style) : List String :=
  [s.logger, s.lombokLogger, s.out.preferred, s.err.preferred]

/-- The bytes of a converted text.  A surrogate in it can only be part of a name that the
style gives, so where no name has one the text has bytes. -/
def Style.encode (s : Style) (t : Text) : Except Fault (List UInt8) :=
  if s.names.all fun name => !name.toList.any Text.Surrogate.isStandIn then
    .ok (Text.Utf8.encode t)
  else
    match Text.Utf8.unencodable? Text.Surrogate.isStandIn t with
    | some u => .error (.mistaken .encoding u.message)
    | none => .ok (Text.Utf8.encode t)

namespace RunOptions

/-- Whether a character stands for a surrogate that no file name can have.  Some
surrogates stand for bytes of names that are no text. -/
def isUnnameable (c : Char) : Bool :=
  Text.Surrogate.isStandIn c &&
    !(0xDC80 ≤ Text.Surrogate.codeOf c && Text.Surrogate.codeOf c < 0xDD00)

/-- Where the converted text of a file goes: over it, or beside it under a
longer name.  A suffix that no file name can end with is found out here, before the
file would be opened. -/
def outputPath (o : RunOptions) (p : Path) : Except Fault Path :=
  if o.inPlace then .ok p
  else do
    let q ← p.withName (p.name?.getD "" ++ o.suffix)
    match Text.Utf8.unencodable? isUnnameable o.suffix.toList with
    | some u =>
      let place := q.text.length - o.suffix.length + u.position
      throw (.mistaken .encoding ({ u with position := place } : Text.Utf8.Unencodable).message)
    | none => return q

end RunOptions

namespace Job

/-- What a content leads to, before anything is written. -/
def plan (j : Job) (content : Except Fault (List UInt8)) : Plan :=
  match content >>= fun bytes => (Text.Utf8.decode bytes).mapError .undecodable with
  | .error f => ⟨0, 0, .error f, []⟩
  | .ok t =>
    let r := convert j.style j.forced t
    match r.result with
    | .error f => ⟨0, 0, .error f, r.entries⟩
    | .ok c =>
      -- the counts stand even where the writing fails
      let write := if c.converted = 0 then .ok none
        else (j.options.outputPath j.path).map fun p => some (p, j.style.encode c.text)
      ⟨c.converted, c.skipped, write, r.entries⟩

/-- The result that a plan leads to, with nothing written and no error. -/
def Plan.result (p : Plan) (j : Job) : FileResult := ⟨j.path, none, p.converted, p.skipped, ""⟩

/-- The end of a job that a fault stops. -/
def failed (j : Job) (p : Plan) (t : Tree) (f : Fault) : Outcome :=
  if f.isContained then
    ⟨{ p.result j with error := f.report }, none, t,
      p.entries ++ [⟨.general, .error, "Error processing " ++ j.path.text ++ ": " ++ f.message⟩]⟩
  else ⟨p.result j, some f, t, p.entries⟩

/-- The end of a job with a plan. -/
def finish (j : Job) (p : Plan) (t : Tree) : Outcome :=
  match p.write with
  | .error f => j.failed p t f
  | .ok none =>
    ⟨p.result j, none, t,
      p.entries ++ [⟨.general, .info, j.path.text ++ ": nothing to convert"⟩]⟩
  | .ok (some (output, content)) =>
    let w := t.write output content
    match w.fault with
    | some f => j.failed p w.tree f
    | none =>
      ⟨{ p.result j with output := some output }, none, w.tree,
        p.entries ++ [⟨.general, .info, j.path.text ++ ": converted " ++ toString p.converted ++
          " call(s), output '" ++ output.text ++ "'"⟩]⟩

/-- The end of a job. -/
def run (j : Job) (t : Tree) : Outcome := j.finish (j.plan (t.read j.path)) t

/-! ### Small laws -/

@[simp] theorem tree_failed (j : Job) (p : Plan) (t : Tree) (f : Fault) :
    (j.failed p t f).tree = t := by
  unfold failed
  split <;> rfl

@[simp] theorem output_failed (j : Job) (p : Plan) (t : Tree) (f : Fault) :
    (j.failed p t f).result.output = none := by
  unfold failed
  split <;> rfl

theorem path_failed (j : Job) (p : Plan) (t : Tree) (f : Fault) :
    (j.failed p t f).result.path = j.path := by
  unfold failed
  split <;> rfl

end Job

end LogCalls
