/-
LogCalls/Main.lean

The program at the command line.  It reads the files that the command can ask for,
runs the command on them as a value, writes the files that have changed, and prints.
With `tree` for its first word it converts all sources below a directory.

Read is what lies below the current directory and, where a word of the command leads
to another place, what is there.  A file that cannot be opened is one that may not be
read or written.

Left out of the model are
  * links, the permissions of directories, names of files that are no text, and
    changes of the disk by others during a run;
  * room that several files share: each file has its own (`Tree.Limits.room`);
  * the depth of nesting at which reading settings, patterns and titles would be given
    up, and the memory that a run can use;
  * texts that hold the private characters that stand for surrogates
    (`Text.Surrogate`), surrogates that are printed, and ways to encode them;
  * reals that are not a number as different keys of a mapping (`Key.agrees`);
  * names of characters in the escapes of patterns and titles, and addresses of objects
    in what a title shows;
  * an interrupt from the keyboard, colours, and the times in a log file.
-/
import LogCalls.Command.Directory
import LogCalls.Command.Run

namespace LogCalls.Main

/-- The text of a location. -/
def textOf (l : Tree.Location) : String := "/" ++ "/".intercalate l

/-- The disk as far as it has been read: the files with their locations, the directories
that were read as a whole, and the files that may not be opened. -/
structure Disk where
  tree : Tree
  read : List Tree.Location
  unreadable : List Tree.Location
  unwritable : List Tree.Location

/-- The tree of a disk, with its limits. -/
def Disk.finished (d : Disk) : Tree :=
  { d.tree with limits := {
      unreadable := d.unreadable.contains
      unwritable := d.unwritable.contains } }

/-- Whether an action succeeds. -/
def succeeds {α : Type} (act : IO α) : IO Bool :=
  try
    discard act
    return true
  catch _ => return false

/-- The disk with a file that is there. -/
def readFile (d : Disk) (l : Tree.Location) : IO Disk := do
  let path := textOf l
  -- opening a file to write behind its end leaves it as it is
  let writable ← succeeds (IO.FS.Handle.mk path .append)
  let unwritable := if writable then d.unwritable else l :: d.unwritable
  try
    let bytes ← IO.FS.readBinFile path
    return { d with tree := d.tree.put l (.file bytes.toList), unwritable }
  catch _ =>
    return { d with
      tree := d.tree.put l (.file [])
      unreadable := l :: d.unreadable
      unwritable }

/-- The greatest depth of directories: no path leads further. -/
def depthLimit : Nat := Tree.pathLimit

/-- The disk with what is below a directory: the entries whose names are wanted, and
all that is below those of them that are directories. -/
def readBelow (wanted : String → Bool) : Nat → Tree.Location → Disk → IO Disk
  | 0, l, _ => throw (IO.userError (textOf l ++ " lies too deep"))
  | depth + 1, l, d => do
    let mut disk := d
    for entry in ← (← IO.FS.realPath (textOf l)).readDir do
      let location := l ++ [entry.fileName]
      if wanted entry.fileName then
        match (← entry.path.symlinkMetadata).type with
        | .dir =>
          if !disk.read.contains location then
            disk := { disk with
              tree := disk.tree.put location .directory
              read := location :: disk.read }
            if ← succeeds entry.path.readDir then
              disk ← readBelow (fun _ => true) depth location disk
        | .file => if (disk.tree.get? location).isNone then disk ← readFile disk location
        | _ => pure ()
    return disk

/-- The disk with what a path leads to, and with `beside` also what is beside it with a
longer name, such as an output or a settings file with its ending. -/
def readAt (beside : Bool) (d : Disk) (p : Path) : IO Disk := do
  let l := Path.settled (Path.join ⟨1, d.tree.start⟩ p)
  match l.getLast? with
  | none => readBelow (fun _ => true) depthLimit [] d
  | some name =>
    if !(← succeeds do (← IO.FS.realPath (textOf l.dropLast)).readDir) then return d
    let wanted (n : String) : Bool := n == name || (beside && name.toList.isPrefixOf n.toList)
    readBelow wanted depthLimit l.dropLast { d with tree := d.tree.makeWay l }

/-- The paths that a word of a command can mean: the word, and what is behind its
mark. -/
def pathsOf (word : String) : List Path :=
  match Text.splitAtFirst? '=' word.toList with
  | some (_, value) => [Path.read word, Path.read (String.ofList value)]
  | none => [Path.read word]

/-- Writes the files in which two trees differ. -/
def writeChanges (before after : Tree) : IO Unit := do
  for (l, e) in after.entries do
    match e with
    | .file content =>
      if before.get? l ≠ some (.file content) then
        IO.FS.writeBinFile (textOf l) ⟨content.toArray⟩
    | .directory => pure ()

/-- Prints what a command has left, and gives its exit code. -/
def conclude (before : Tree) (r : Command.Report) : IO UInt32 := do
  writeChanges before r.tree
  for e in r.entries do
    if Level.info.rank ≤ e.level.rank then
      IO.eprintln (e.topic.name ++ ": " ++ e.level.name ++ ": " ++ e.message)
  match r.output with
  | some t => IO.print (String.ofList t)
  | none => IO.eprintln "Usage: convert FILES... | actions FILE --line LINE | tree DIRECTORY"
  match r.raised with
  | some f => IO.eprintln f.report
  | none => pure ()
  return r.exitCode.toUInt32

end LogCalls.Main

open LogCalls in
/-- Runs the command that the words ask for. -/
def main (words : List String) : IO UInt32 := do
  let directory := (← IO.currentDir).toString
  let settings ← IO.getEnv "SYSOUT_LOGGER_CONFIG_DIR"
  let start := (Path.read directory).parts
  let mut disk ← Main.readAt false ⟨{ entries := [], start := start }, [], [], []⟩ Path.here
  for p in (words ++ settings.toList).flatMap Main.pathsOf do
    disk ← Main.readAt true disk p
  let around : Surroundings :=
    ⟨disk.finished, settings, directory, toString (← IO.monoMsNow)⟩
  let report := match words with
    | "tree" :: r => Command.Directory.run r around
    | _ => Command.run words around
  Main.conclude around.tree report
