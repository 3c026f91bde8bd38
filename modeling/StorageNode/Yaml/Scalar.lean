import StorageNode.Yaml.Character

/-!
# The text of scalars

A scalar is written plainly, between quotes, or as an indented block. Each form is read one character
at a time. Inside the first two a run of blanks and line breaks is a `Gap`, whose contribution to the
text is known only when something follows it: blanks within a line stay, a single line break becomes
a space, and of several all but the first stay. A block keeps its lines (literal) or joins
neighbouring ones that do not begin with a blank (folded).
-/

namespace StorageNode.Yaml

/-- How a scalar is written. -/
inductive Style where
  | plain
  | singleQuoted
  | doubleQuoted
  | literal
  | folded
deriving DecidableEq, Inhabited, Repr

/-! ## Gaps -/

/-- A run of blanks and line breaks inside a scalar. -/
structure Gap where
  /-- The blanks before the first line break, the last one first. -/
  blanks : List Char := []
  /-- A line break has been passed. -/
  broken : Bool := false
  /-- The first line break, if it counts. -/
  first : Option Char := none
  /-- The other line breaks, the last one first. -/
  more : List Char := []

namespace Gap

/-- The gap with a blank more. -/
def addBlank (g : Gap) (c : Char) : Gap := if g.broken then g else { g with blanks := c :: g.blanks }

/-- The gap with a line break more. -/
def addBreak (g : Gap) (c : Char) : Gap :=
  if g.broken then { g with more := c :: g.more }
  else { blanks := [], broken := true, first := some c, more := [] }

/-- What the gap contributes to the text, the last character first. -/
def reversed (g : Gap) : List Char :=
  if g.broken then
    match g.first with
    | some '\n' => if g.more = [] then [' '] else g.more
    | some c => g.more ++ [c]
    | none => g.more
  else g.blanks

end Gap

/-! ## Between quotes -/

/-- What is read between quotes: the text so far, its last character first, and the gap at its end.
-/
structure Quoted where
  text : List Char := []
  gap : Option Gap := none

namespace Quoted

/-- A blank or a line break more. -/
def addSpacing (q : Quoted) (c : Char) : Quoted :=
  let g := q.gap.getD {}
  { q with gap := some (if isBreak c then g.addBreak c else g.addBlank c) }

/-- The text with the gap behind it, the last character first. -/
def reversed (q : Quoted) : List Char :=
  match q.gap with
  | none => q.text
  | some g => g.reversed ++ q.text

/-- A character more. -/
def add (q : Quoted) (c : Char) : Quoted := ⟨c :: q.reversed, none⟩

/-- An escaped line break more: it leaves nothing, and neither do the blanks behind it. -/
def addEscapedBreak (q : Quoted) : Quoted := ⟨q.reversed, some { broken := true }⟩

/-- The whole text. -/
def finish (q : Quoted) : List Char := q.reversed.reverse

end Quoted

/-- The place behind one character. -/
def Position.behind (p : Position) (c : Char) : Position := if isBreak c then p.newLine else p.next

/-- The text up to the closing single quote; a doubled quote stands for one. Read behind the opening
quote. -/
def singleQuoted (q : Quoted) : List Char → Position → Option (List Char × Cursor)
  | [], _ => none
  | c :: cs, p =>
    if isBlank c || isBreak c then singleQuoted (q.addSpacing c) cs (p.behind c)
    else if atDocumentBorder p (c :: cs) then none
    else if c = '\'' then
      match cs with
      | '\'' :: cs => singleQuoted (q.add '\'') cs p.next.next
      | _ => some (q.finish, ⟨cs, p.next⟩)
    else singleQuoted (q.add c) cs p.next

/-- The character that a backslash and one more character stand for. -/
def shortEscape? (c : Char) : Option Char :=
  match c with
  | '0' => some '\x00'
  | 'a' => some '\x07'
  | 'b' => some '\x08'
  | 't' => some '\t'
  | '\t' => some '\t'
  | 'n' => some '\n'
  | 'v' => some '\x0b'
  | 'f' => some '\x0c'
  | 'r' => some '\r'
  | 'e' => some '\x1b'
  | ' ' => some ' '
  | '"' => some '"'
  | '/' => some '/'
  | '\\' => some '\\'
  | 'N' => some '\x85'
  | '_' => some '\xa0'
  | 'L' => some '\u2028'
  | 'P' => some '\u2029'
  | _ => none

/-- How many digits follow the letter of a numeric escape. -/
def escapeWidth? (c : Char) : Option Nat :=
  match c with
  | 'x' => some 2
  | 'u' => some 4
  | 'U' => some 8
  | _ => none

/-- Where the reading of a double-quoted text stands. -/
inductive EscapeState where
  | text
  /-- Behind a backslash. -/
  | letter
  /-- Inside the digits of a numeric escape: how many are missing, and the value so far. -/
  | digits (missing : Nat) (value : Nat)

/-- The character of a code point, unless there is none. -/
def charOfCode? (n : Nat) : Option Char := if n.isValidChar then some (Char.ofNat n) else none

/-- The text up to the closing double quote. Read behind the opening quote. -/
def doubleQuoted (q : Quoted) : EscapeState → List Char → Position → Option (List Char × Cursor)
  | _, [], _ => none
  | .text, c :: cs, p =>
    if isBlank c || isBreak c then doubleQuoted (q.addSpacing c) .text cs (p.behind c)
    else if atDocumentBorder p (c :: cs) then none
    else if c = '"' then some (q.finish, ⟨cs, p.next⟩)
    else if c = '\\' then doubleQuoted q .letter cs p.next
    else doubleQuoted (q.add c) .text cs p.next
  | .letter, c :: cs, p =>
    if isBreak c then doubleQuoted q.addEscapedBreak .text cs p.newLine
    else
      match shortEscape? c, escapeWidth? c with
      | some d, _ => doubleQuoted (q.add d) .text cs p.next
      | none, some n => doubleQuoted q (.digits n 0) cs p.next
      | none, none => none
  | .digits missing value, c :: cs, p =>
    match hexValue? c with
    | none => none
    | some d =>
      if missing ≤ 1 then
        match charOfCode? (value * 16 + d) with
        | some ch => doubleQuoted (q.add ch) .text cs p.next
        | none => none
      else doubleQuoted q (.digits (missing - 1) (value * 16 + d)) cs p.next

/-! ## Plain text -/

/-- A character that ends a plain scalar, or is refused in one, inside brackets. -/
def isFlowIndicator (c : Char) : Bool := c = ',' || c = '[' || c = ']' || c = '\x7b' || c = '\x7d'

/-- What is read of a plain scalar: its text, whether a line break follows it, and what is behind. -/
structure PlainText where
  text : List Char
  brokenBehind : Bool
  behind : Cursor

/-- The text of a plain scalar. It ends before a colon with a space behind it, before a comment,
before a document border, and, outside brackets (`flow`), in a line that is indented less than
`indent`; inside brackets it ends before their punctuation. -/
def plainText (flow : Bool) (indent : Int) (text : List Char) (gap : Option Gap) :
    List Char → Position → Option PlainText
  | [], p => some ⟨text.reverse, gap.any (·.broken), ⟨[], p⟩⟩
  | c :: cs, p =>
    let stop : Option PlainText := some ⟨text.reverse, gap.any (·.broken), ⟨c :: cs, p⟩⟩
    if isBreak c then plainText flow indent text (some ((gap.getD {}).addBreak c)) cs p.newLine
    else if isBlank c then
      if c = '\t' && gap.any (·.broken) && p.column < indent then none
      else plainText flow indent text (some ((gap.getD {}).addBlank c)) cs p.next
    else if gap.isSome && !flow && p.column < indent then stop
    else if gap.isSome && c = '#' then stop
    else if atDocumentBorder p (c :: cs) then stop
    else if c = ':' && isSpacing cs.head? then stop
    else if flow && c = ':' && cs.head?.any (fun d => d = '?' || isFlowIndicator d) then none
    else if flow && isFlowIndicator c then stop
    else
      let before := match gap with
        | none => text
        | some g => g.reversed ++ text
      plainText flow indent (c :: before) none cs p.next

/-! ## Blocks -/

/-- Which line breaks behind a block count. -/
inductive Chomp where
  /-- None. -/
  | strip
  /-- One. -/
  | clip
  /-- All. -/
  | keep
deriving DecidableEq

/-- The indicators behind `|` or `>`: how to chomp, and the indentation if it is given. -/
def blockHeader (c : Cursor) : Option (Chomp × Option Nat × Cursor) :=
  let chomp? (d : Option Char) : Option Chomp :=
    if d = some '+' then some .keep else if d = some '-' then some .strip else none
  let digit? (d : Option Char) : Option Nat := d.bind fun d =>
    if '0' ≤ d && d ≤ '9' then some (d.toNat - '0'.toNat) else none
  match chomp? c.peek with
  | some h =>
    match digit? (c.peekAt 1) with
    | some 0 => none
    | some n => some (h, some n, c.skip 2)
    | none => some (h, none, c.skip 1)
  | none =>
    match digit? c.peek with
    | some 0 => none
    | some n =>
      match chomp? (c.peekAt 1) with
      | some h => some (h, some n, c.skip 2)
      | none => some (.clip, some n, c.skip 1)
    | none => some (.clip, none, c)

/-- The line breaks before the next line that is not empty, the last one first; the spaces of the
indentation before it are taken too. With `indent` unknown (zero) all spaces are, and the deepest
column is noted. -/
def blockBreaks (indent : Nat) (deepest : Nat) (breaks : List Char) :
    List Char → Position → Option (List Char × Nat × Cursor)
  | [], p => some (breaks, max deepest p.column, ⟨[], p⟩)
  | c :: cs, p =>
    let inIndent := indent = 0 || p.column < indent
    if c = ' ' && inIndent then blockBreaks indent deepest breaks cs p.next
    else if c = '\t' && inIndent then none
    else if isBreak c then
      blockBreaks indent (max deepest p.column) (c :: breaks) cs p.newLine
    else some (breaks, max deepest p.column, ⟨c :: cs, p⟩)

/-- What is read of a block: its text, the line break behind its last line and the empty lines behind
that one, each with the last character first, and whether the last line began with a blank. -/
structure BlockText where
  text : List Char := []
  lastBreak : Option Char := none
  breaks : List Char := []
  blankLed : Bool := false

/-- The block with the line breaks behind its last line counted, before a line that begins with a
blank or not. -/
def BlockText.join (b : BlockText) (literal blankNext : Bool) : List Char :=
  if !literal && b.lastBreak = some '\n' && !b.blankLed && !blankNext then
    if b.breaks = [] then ' ' :: b.text else b.breaks ++ b.text
  else b.breaks ++ b.lastBreak.toList ++ b.text

/-- The lines of a block at an indentation. Every line takes a character, so `fuel` may be the length
of the text. -/
def blockLines (literal : Bool) (indent : Nat) :
    Nat → BlockText → Cursor → Option (BlockText × Cursor)
  | 0, b, c => some (b, c)
  | fuel + 1, b, c =>
    match c.peek with
    | none => some (b, c)
    | some d =>
      if c.position.column ≠ indent then some (b, c)
      else
        let (line, behind) := c.span (!isBreak ·)
        let text := line.reverse ++ b.join literal (isBlank d)
        let lastBreak := behind.peek
        let behind := behind.skipBreak
        match blockBreaks indent 0 [] behind.rest behind.position with
        | none => none
        | some (breaks, _, behind) =>
          blockLines literal indent fuel ⟨text, lastBreak, breaks, isBlank d⟩ behind

/-- The text of a block scalar, read behind its indicator. `parent` is the indentation of the
collection around it; unless it is given, that of the block is the first line's, but deeper than
`parent`. -/
def blockText (literal : Bool) (parent : Int) (c : Cursor) : Option (List Char × Cursor) := do
  let (chomp, given, c) ← blockHeader c
  let c := c.skipBlanks.skipComment
  if !isLineEnd c.peek then none
  else
    let c := c.skipBreak
    let indent : Nat := match given with
      | none => 0
      | some n => if 0 ≤ parent then parent.toNat + n else n
    let (breaks, deepest, c) ← blockBreaks indent 0 [] c.rest c.position
    let indent := if indent = 0 then max (max deepest (parent + 1).toNat) 1 else indent
    let (b, c) ← blockLines literal indent (c.rest.length + 1) { breaks := breaks } c
    let ending := match chomp with
      | .strip => b.text
      | .clip => b.lastBreak.toList ++ b.text
      | .keep => b.breaks ++ b.lastBreak.toList ++ b.text
    return (ending.reverse, c)

end StorageNode.Yaml
