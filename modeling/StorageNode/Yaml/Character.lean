/-!
# Characters of a YAML document

Which characters a document may hold, and the classes its grammar is written in. Line breaks are
brought to one form before anything else is read (`normalizeBreaks`): a line feed for the line breaks
of all common systems, while the two separators of Unicode stay what they are.
-/

namespace StorageNode.Yaml

/-- The character may occur in a document: tab, line breaks, and everything that is neither a control
nor one of the last two code points of the basic plane. -/
def isLegal (c : Char) : Bool :=
  let n := c.toNat
  n = 0x09 || n = 0x0A || n = 0x0D || (0x20 ≤ n && n ≤ 0x7E) || n = 0x85
    || (0xA0 ≤ n && n ≤ 0xFFFD) || 0x10000 ≤ n

/-- Carriage returns, alone or before a line feed, and next-line characters become line feeds. -/
def normalizeBreaks : List Char → List Char
  | [] => []
  | '\r' :: '\n' :: cs => '\n' :: normalizeBreaks cs
  | c :: cs => (if c = '\r' || c = '\x85' then '\n' else c) :: normalizeBreaks cs

/-- A line break, once breaks are normalized. -/
def isBreak (c : Char) : Bool := c = '\n' || c = '\u2028' || c = '\u2029'

/-- A space or a tab. -/
def isBlank (c : Char) : Bool := c = ' ' || c = '\t'

/-- A blank, a line break, or the end of the text. -/
def isSpacing : Option Char → Bool
  | none => true
  | some c => isBlank c || isBreak c

/-- A line break, or the end of the text. -/
def isLineEnd : Option Char → Bool
  | none => true
  | some c => isBreak c

/-- A letter or digit of ASCII, an underscore or a hyphen. -/
def isWord (c : Char) : Bool := c.isAlphanum || c = '_' || c = '-'

/-- The value of a hexadecimal digit. -/
def hexValue? (c : Char) : Option Nat :=
  if '0' ≤ c && c ≤ '9' then some (c.toNat - 0x30)
  else if 'A' ≤ c && c ≤ 'F' then some (c.toNat - 0x37)
  else if 'a' ≤ c && c ≤ 'f' then some (c.toNat - 0x57)
  else none

/-- A place in a text, counted in lines and in characters of the line. -/
structure Position where
  line : Nat
  column : Nat
deriving DecidableEq, Inhabited, Repr

/-- The place behind a character that is no line break. -/
def Position.next (p : Position) : Position := ⟨p.line, p.column + 1⟩

/-- The place behind a line break. -/
def Position.newLine (p : Position) : Position := ⟨p.line + 1, 0⟩

/-- What is left of a text, and its place. -/
structure Cursor where
  rest : List Char
  position : Position
deriving Inhabited

namespace Cursor

/-- The next character. -/
def peek (c : Cursor) : Option Char := c.rest.head?

/-- The character `n` behind the next one. -/
def peekAt (c : Cursor) (n : Nat) : Option Char := c.rest[n]?

/-- Behind the next `n` characters of the line. -/
def skip (c : Cursor) (n : Nat) : Cursor :=
  ⟨c.rest.drop n, ⟨c.position.line, c.position.column + n⟩⟩

/-- The run of characters with a property that no line break has, and the cursor behind it. -/
def span (p : Char → Bool) (c : Cursor) : List Char × Cursor :=
  let run := c.rest.takeWhile p
  (run, c.skip run.length)

/-- Behind the blanks. -/
def skipBlanks (c : Cursor) : Cursor := (c.span isBlank).2

/-- Behind a comment, if one begins here; before the line break. -/
def skipComment (c : Cursor) : Cursor :=
  if c.peek = some '#' then (c.span (!isBreak ·)).2 else c

/-- Behind a line break, if one is here. -/
def skipBreak (c : Cursor) : Cursor :=
  match c.rest with
  | b :: rest => if isBreak b then ⟨rest, c.position.newLine⟩ else c
  | [] => c

end Cursor

/-- A line begins here with three hyphens or three dots that stand alone. -/
def atDocumentMark (mark : Char) (position : Position) (rest : List Char) : Bool :=
  position.column = 0 && rest.take 3 = [mark, mark, mark] && isSpacing rest[3]?

/-- A line begins here with the mark of a document's start or end. -/
def atDocumentBorder (position : Position) (rest : List Char) : Bool :=
  atDocumentMark '-' position rest || atDocumentMark '.' position rest

end StorageNode.Yaml
