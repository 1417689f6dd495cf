/-
LogCalls/Display/Table.lean

Tables drawn with lines.  A column is as wide as its widest line, and the title
is centred over the table, broken where it is wider.
-/
import LogCalls.Display.Markup
import LogCalls.Text.Lines

namespace LogCalls.Display

/-! ### Breaking lines -/

/-- The words of a line from `current` on, each with the blanks behind it and
the first also with those before it; `gap` says that a word has ended. -/
def wordsFrom (current : Text) (gap : Bool) : Text → List Text
  | [] => if current.all Text.isBlank then [] else [current]
  | c :: r =>
    if Text.isBlank c then wordsFrom (current ++ [c]) (!current.all Text.isBlank) r
    else if gap then current :: wordsFrom [c] false r
    else wordsFrom (current ++ [c]) false r

/-- The pieces of `width` characters of a text, at most `fuel` and one. -/
def pieces (width : Nat) : (fuel : Nat) → Text → List Text
  | 0, t => [t]
  | fuel + 1, t =>
    if t.length ≤ width then [t] else t.take width :: pieces width fuel (t.drop width)

/-- The lines and the last of them after one more word.  A word goes on the last
line if it fits there, in pieces if it fits on none, and else on a new line. -/
def placeWord (width : Nat) (lines : List Text × Text) (word : Text) : List Text × Text :=
  let size := (Text.trimEnd word).length
  if lines.2.length + size ≤ width then (lines.1, lines.2 ++ word)
  else
    let done := if lines.2 = [] then lines.1 else lines.1 ++ [lines.2]
    -- the last piece of a long word starts the line that goes on
    if width < size then
      let parts := pieces width word.length word
      (done ++ parts.dropLast, parts.getLast?.getD [])
    else (done, word)

/-- A line broken into lines of at most `width` characters. -/
def fold (width : Nat) (t : Text) : List Text :=
  let lines := (wordsFrom [] false t).foldl (placeWord width) ([], [])
  lines.1 ++ [lines.2]

/-! ### Filling up -/

/-- Some blanks. -/
def blanks (n : Nat) : Text := List.replicate n ' '

/-- A line filled up to a width, on the left or on the right. -/
def fill (onRight : Bool) (width : Nat) (t : Text) : Text :=
  if onRight then blanks (width - t.length) ++ t else t ++ blanks (width - t.length)

/-- A line in the middle of a width, half a character to the left of it where
that is between two. -/
def centre (width : Nat) (t : Text) : Text :=
  let line := Text.trimEnd t
  let left := (width - line.length) / 2
  blanks left ++ line ++ blanks (width - line.length - left)

/-! ### Tables -/

/-- A column by its header, and whether its cells stand on the right. -/
structure Column where
  header : String
  onRight : Bool

/-- A table; its title and its cells may hold tags. -/
structure Table where
  title : Text
  columns : List Column
  rows : List (List Text)

namespace Table

/-- The lines of the cells of a row. -/
def cellLines (row : List Text) : List (List Text) := row.map fun t => Text.lines (Markup.shown t)

/-- The width of the widest line. -/
def widest (lines : List Text) : Nat := lines.foldl (fun w l => max w l.length) 0

/-- The widths of the columns. -/
def widths (t : Table) : List Nat :=
  let rows := t.rows.map cellLines
  t.columns.zipIdx.map fun (c, i) =>
    widest (c.header.toList :: rows.flatMap fun row => row.getD i [])

/-- The width of the whole table. -/
def width (t : Table) : Nat := t.widths.foldr (fun w n => w + 3 + n) 1

/-- A line between two rows, from its left end, its line, its crossings and its
right end. -/
def rule (left line cross right : Char) (widths : List Nat) : Text :=
  left :: Text.joinWith [cross] (widths.map fun w => List.replicate (w + 2) line) ++ [right]

/-- A line of cells between bars. -/
def cellsLine (bar : Char) (columns : List Column) (widths : List Nat) (cells : List Text) : Text :=
  let filled := (columns.zip (widths.zip cells)).map fun (c, w, t) =>
    ' ' :: fill c.onRight w t ++ [' ']
  bar :: Text.joinWith [bar] filled ++ [bar]

/-- The lines of one row: as many as its highest cell has. -/
def rowLines (t : Table) (row : List Text) : List Text :=
  let cells := cellLines row
  let height := cells.foldl (fun h ls => max h ls.length) 0
  (List.range height).map fun i =>
    cellsLine '│' t.columns t.widths (cells.map fun ls => ls.getD i [])

/-- The lines of the title. -/
def titleLines (t : Table) : List Text :=
  if t.title = [] then []
  else (Text.lines (Markup.shown t.title)).flatMap fun l => (fold t.width l).map (centre t.width)

/-- The lines of a table. -/
def lines (t : Table) : List Text :=
  t.titleLines ++
    [rule '┏' '━' '┳' '┓' t.widths,
      cellsLine '┃' t.columns t.widths (t.columns.map fun c => c.header.toList),
      rule '┡' '━' '╇' '┩' t.widths] ++
    t.rows.flatMap t.rowLines ++ [rule '└' '─' '┴' '┘' t.widths]

/-- The table as it is printed. -/
def draw (t : Table) : Text := t.lines.flatMap fun l => l ++ ['\n']

end Table

/-- A line with tags as it is printed. -/
def printed (t : Text) : Text := Markup.shown t ++ ['\n']

/-! ### Small laws -/

/-- The pieces of a text are the whole text. -/
theorem flatten_pieces (width fuel : Nat) (t : Text) : (pieces width fuel t).flatten = t := by
  induction fuel generalizing t with
  | zero => simp [pieces]
  | succ fuel ih =>
    rw [pieces]
    split
    · simp
    · rw [List.flatten_cons, ih, List.take_append_drop]

theorem length_fill (onRight : Bool) (width : Nat) (t : Text) :
    (fill onRight width t).length = max width t.length := by
  unfold fill blanks
  split <;> simp <;> omega

end LogCalls.Display
