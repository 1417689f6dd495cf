/-
LogCalls/Text/Wrap.lean

Texts broken into lines of a width.  A text is cut where a line may end, behind
blanks, behind the hyphens of a word and before dashes; each line takes as many
of these chunks as fit.
-/
import LogCalls.Text.Letter

namespace LogCalls.Text

/-- The blanks at which a line may be broken. -/
def isWrapBlank (c : Char) : Bool :=
  (0x09 ≤ c.toNat && c.toNat ≤ 0x0D) || c == ' '

/-- A character of a word or of its punctuation. -/
def isWordMark (c : Char) : Bool :=
  isWord c || c == '!' || c == '"' || c == '\'' || c == '&' || c == '.' || c == ',' || c == '?'

/-- A letter of a hyphenated word. -/
def isWordLetter (c : Char) : Bool := isWord c && !isDigit c

/-- Whether the characters before a hyphen, the last one first, are those of a
word that may be broken behind it. -/
def mayBreakAfter : Text → Bool
  | a :: b :: r =>
    (isWordLetter a && isWordLetter b) ||
      (isWordMark a && b == '-' && (r.head?.map isWordLetter).getD false)
  | _ => false

/-- Whether what follows a hyphen goes on with the word. -/
def goesOn : Text → Bool
  | a :: '-' :: b :: _ => isWordLetter a && isWordLetter b
  | a :: b :: _ => isWordLetter a && isWordLetter b
  | _ => false

/-- Whether a dash of two hyphens or more stands here, with a word behind it. -/
def atDash (t : Text) : Bool :=
  let n := (t.takeWhile (· == '-')).length
  2 ≤ n && ((t.drop n).head?.map isWord).getD false

/-- The rest of a chunk of a word, of which something may be read already.
`before` is what stands before, the last character first. -/
def wordChunk (started : Bool) (before : Text) : Text → Text × Text
  | [] => ([], [])
  | c :: r =>
    let here : Text := c :: before
    let behindHyphen := started && c == '-' && mayBreakAfter before && goesOn r
    let atEnd := match r with
      | [] => true
      | d :: _ => isWrapBlank d
    let beforeDash := isWordMark c && atDash r
    if behindHyphen || atEnd || beforeDash then ([c], r)
    else
      let (t, rest) := wordChunk true here r
      (c :: t, rest)

/-- The chunks of a text, at most so many. -/
def chunksFrom (before : Text) : Nat → Text → List Text
  | 0, _ => []
  | _, [] => []
  | most + 1, c :: r =>
    let whole := c :: r
    if isWrapBlank c then
      let t := whole.takeWhile isWrapBlank
      t :: chunksFrom (t.reverse ++ before) most (whole.drop t.length)
    else if (before.head?.map isWordMark).getD false && atDash whole then
      let t := whole.takeWhile (· == '-')
      t :: chunksFrom (t.reverse ++ before) most (whole.drop t.length)
    else
      let (t, rest) := wordChunk false before whole
      t :: chunksFrom (t.reverse ++ before) most rest

/-- The chunks of a text that is broken at blanks only. -/
def blankChunks : Nat → Text → List Text
  | 0, _ => []
  | _, [] => []
  | most + 1, c :: r =>
    let same : Char → Bool := fun d => isWrapBlank d == isWrapBlank c
    (c :: r.takeWhile same) :: blankChunks most (r.dropWhile same)

/-- How a text is broken. -/
structure Wrapping where
  width : Nat
  breaksWords : Bool
  /-- Whether a line may end behind a hyphen. -/
  breaksHyphens : Bool
  /-- Whether a word that is cut is cut behind a hyphen, if it can be. -/
  prefersHyphens : Bool

/-- Whether a chunk is nothing but blanks. -/
def isBlankChunk (t : Text) : Bool := t.all isBlank

/-- The chunks that fit into a width, and those that do not. -/
def fitting (width : Nat) : List Text → List Text × List Text
  | [] => ([], [])
  | t :: r =>
    if t.length ≤ width then
      let (now, later) := fitting (width - t.length) r
      (t :: now, later)
    else ([], t :: r)

/-- A chunk that is wider than a line, cut to what is left of the line.  Behind
a hyphen in it is a better place, if one is there. -/
def cutChunk (w : Wrapping) (used : Nat) (t : Text) : Text × Text :=
  let left := if w.width < 1 then 1 else w.width - used
  let hyphens := if w.prefersHyphens && decide (left < t.length) then
      (t.take left).reverse.dropWhile (· != '-')
    else []
  -- a hyphen counts where something else stands before it
  let stop := match hyphens with
    | [] => left
    | _ :: before => if before.any (· != '-') then hyphens.length else left
  (t.take stop, t.drop stop)

/-- The lines that chunks make, at most so many. -/
def linesOfChunks (w : Wrapping) : Nat → Bool → List Text → List Text
  | 0, _, _ => []
  | _, _, [] => []
  | most + 1, first, t :: r =>
    let chunks := if !first && isBlankChunk t then r else t :: r
    let (now, later) := fitting w.width chunks
    let used := (now.map List.length).foldl (· + ·) 0
    let (now, later) := match later with
      | u :: rest =>
        if w.width < u.length then
          if w.breaksWords then
            let (a, b) := cutChunk w used u
            (now ++ [a], b :: rest)
          else if now.isEmpty then ([u], rest)
          else (now, later)
        else (now, later)
      | [] => (now, [])
    let now := match now.getLast? with
      | some u => if isBlankChunk u then now.dropLast else now
      | none => now
    if now.isEmpty then linesOfChunks w most first later
    else now.flatten :: linesOfChunks w most false later

/-- A text broken into lines. -/
def wrapped (w : Wrapping) (t : Text) : List Text :=
  let chunks := if w.breaksHyphens then chunksFrom [] t.length t else blankChunks t.length t
  linesOfChunks w (2 * t.length + 1) true chunks

/-! ### Small laws -/

theorem flatten_fitting (width : Nat) (chunks : List Text) :
    (fitting width chunks).1 ++ (fitting width chunks).2 = chunks := by
  induction chunks generalizing width with
  | nil => rfl
  | cons t r ih =>
    rw [fitting]
    split
    case isTrue => simp [ih]
    case isFalse => simp

end LogCalls.Text
