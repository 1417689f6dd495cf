/-
LogCalls/Journal.lean

Operations that keep a journal.  The entries made before a failure are kept,
so an operation is its result together with what it has noted; and a sequence
of operations notes what its parts note, in order (`entries_bind_ok`), while its
result is that of the parts alone (`result_bind`).
-/
import LogCalls.Fault

namespace LogCalls

/-- How much an entry matters. -/
inductive Level where
  | debug
  | info
  | warning
  | error
  deriving DecidableEq, Repr

/-- The name of a level. -/
def Level.name : Level → String
  | .debug => "DEBUG"
  | .info => "INFO"
  | .warning => "WARNING"
  | .error => "ERROR"

/-- The rank of a level. -/
def Level.rank : Level → Nat
  | .debug => 10
  | .info => 20
  | .warning => 30
  | .error => 40

/-- The part of the program that makes an entry. -/
inductive Topic where
  | general
  | scanning
  | actions
  deriving DecidableEq, Repr

/-- The name under which a topic's entries appear. -/
def Topic.name : Topic → String
  | .general => "sysoutlogger"
  | .scanning => "sysoutlogger.parsing"
  | .actions => "sysoutlogger.actions"

/-- One entry of the journal. -/
structure Entry where
  topic : Topic
  level : Level
  message : String
  deriving DecidableEq, Repr

/-- An entry as a line of a log file, without its time. -/
def Entry.line (e : Entry) : String :=
  e.topic.name ++ " - " ++ e.level.name ++ " - " ++ e.message ++ "\n"

/-- The result of an operation and the entries it made. -/
structure Logged (α : Type) where
  result : Except Fault α
  entries : List Entry

namespace Logged

variable {α β : Type}

/-- Runs `f` on the result, after the entries so far. -/
def bind (m : Logged α) (f : α → Logged β) : Logged β :=
  match m.result with
  | .ok a => ⟨(f a).result, m.entries ++ (f a).entries⟩
  | .error e => ⟨.error e, m.entries⟩

instance : Monad Logged where
  pure a := ⟨.ok a, []⟩
  bind := bind

instance : MonadExceptOf Fault Logged where
  throw e := ⟨.error e, []⟩
  tryCatch m handle :=
    match m.result with
    | .ok _ => m
    | .error e => ⟨(handle e).result, m.entries ++ (handle e).entries⟩

/-- An operation without entries. -/
def ofExcept (r : Except Fault α) : Logged α := ⟨r, []⟩

instance : MonadLift (Except Fault) Logged where
  monadLift := ofExcept

/-- Makes one entry. -/
def note (topic : Topic) (level : Level) (message : String) : Logged Unit :=
  ⟨.ok (), [⟨topic, level, message⟩]⟩

/-! ### Small laws -/

@[simp] theorem result_pure (a : α) : (pure a : Logged α).result = .ok a := rfl

@[simp] theorem entries_pure (a : α) : (pure a : Logged α).entries = [] := rfl

@[simp] theorem result_throw (e : Fault) : (throw e : Logged α).result = .error e := rfl

@[simp] theorem result_note (topic : Topic) (level : Level) (message : String) :
    (note topic level message).result = .ok () := rfl

@[simp] theorem result_ofExcept (r : Except Fault α) : (ofExcept r).result = r := rfl

@[simp] theorem result_monadLift (r : Except Fault α) :
    (monadLift r : Logged α).result = r := rfl

@[simp] theorem result_bind (m : Logged α) (f : α → Logged β) :
    (m >>= f).result = (m.result >>= fun a => (f a).result) := by
  show (bind m f).result = _
  unfold bind
  cases m.result <;> rfl

theorem entries_bind_ok {m : Logged α} {a : α} (h : m.result = .ok a) (f : α → Logged β) :
    (m >>= f).entries = m.entries ++ (f a).entries := by
  show (bind m f).entries = _
  simp [bind, h]

end Logged

end LogCalls
