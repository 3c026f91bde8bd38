import StorageNode.Yaml.Scalar
import StorageNode.Text.Utf8

/-!
# Tokens of a YAML document

`Token.scan?` cuts a text into tokens. Indentation becomes tokens too: a `Lexer` keeps the columns of
the open block collections and opens and closes them as the column of the next token tells. Whether a
token begins a mapping key is known only when its colon is met, on the same line and not too far
behind; the places where a key may have begun are remembered, and what has to stand before them is put
in at the end (`Lexer.insertions`). A text that cannot be cut up has no tokens.
-/

namespace StorageNode.Yaml

/-- The smallest part of a document that has a meaning. -/
inductive Token where
  | version (major minor : Nat)
  | tagPrefix (handle meaning : String)
  | documentStart
  | documentEnd
  | blockSequenceStart
  | blockMappingStart
  | blockEnd
  | flowSequenceStart
  | flowSequenceEnd
  | flowMappingStart
  | flowMappingEnd
  | blockEntry
  | flowEntry
  | key
  | value
  | alias (name : String)
  | anchor (name : String)
  | tag (handle suffix : String)
  | scalar (style : Style) (text : String)
deriving DecidableEq, Inhabited, Repr

/-! ## Anchors, tags and directives -/

/-- The characters that may stand right behind the name of an anchor. -/
def endsAnchor : Option Char → Bool
  | none => true
  | some c => isBlank c || isBreak c || c ∈ ['?', ':', ',', ']', '\x7d', '%', '@', '`']

/-- The name of an anchor or an alias, read behind its indicator. -/
def anchorName (c : Cursor) : Option (String × Cursor) :=
  let (name, c) := c.span isWord
  if name = [] || !endsAnchor c.peek then none else some (String.ofList name, c)

/-- A character of a tag. Brackets and commas count only in a tag between angle brackets. -/
def isTagCharacter (verbatim : Bool) (c : Char) : Bool :=
  isWord c || c ∈ [';', '/', '?', ':', '@', '&', '=', '+', '$', '.', '%', '!', '~', '*', '\'', '(',
    ')'] || (verbatim && (c = ',' || c = '[' || c = ']'))

/-- The bytes of a run of escaped octets that make up one character: `missing` of them are still to
come, or the first is, which tells how many do. -/
def escapedOctets : Option Nat → List Char → Option (Bytes × List Char)
  | missing, '%' :: a :: b :: cs =>
    match hexValue? a, hexValue? b with
    | some x, some y =>
      let octet := x * 16 + y
      let left? : Option Nat := match missing with
        | some n => if octet / 64 = 2 then some (n - 1) else none
        | none =>
          if octet < 0x80 then some 0
          else if octet / 32 = 6 then some 1
          else if octet / 16 = 14 then some 2
          else if octet / 8 = 30 then some 3
          else none
      match left? with
      | none => none
      | some 0 => some ([UInt8.ofNat octet], cs)
      | some left => (escapedOctets (some left) cs).map fun (bs, cs) => (UInt8.ofNat octet :: bs, cs)
    | _, _ => none
  | _, _ => none

/-- The bytes of the text of a tag. `fuel` bounds the number of characters. -/
def tagBytes (verbatim : Bool) : Nat → List Char → Option (Bytes × List Char)
  | 0, cs => some ([], cs)
  | fuel + 1, cs =>
    match cs with
    | [] => some ([], [])
    | c :: rest =>
      if c = '%' then do
        let (bs, rest) ← escapedOctets none (c :: rest)
        let (more, rest) ← tagBytes verbatim fuel rest
        return (bs ++ more, rest)
      else if isTagCharacter verbatim c then do
        let (more, rest) ← tagBytes verbatim fuel rest
        return (String.utf8EncodeChar c ++ more, rest)
      else some ([], c :: rest)

/-- The text of a tag, and the cursor behind it. -/
def tagText (verbatim : Bool) (c : Cursor) : Option (String × Cursor) := do
  let (bs, rest) ← tagBytes verbatim c.rest.length c.rest
  return (Utf8.textLossy bs, c.skip (c.rest.length - rest.length))

/-- A tag handle: an exclamation mark, and perhaps a word and a second mark behind it; the flag tells
whether there is one. -/
def tagHandle (c : Cursor) : Option (String × Bool × Cursor) :=
  if c.peek ≠ some '!' then none
  else
    let (word, behind) := (c.skip 1).span isWord
    if behind.peek = some '!' then
      some (String.ofList ('!' :: word ++ ['!']), true, behind.skip 1)
    else some (String.ofList ('!' :: word), false, behind)

/-- A tag: between angle brackets, or with a handle in front. A lone exclamation mark is a tag with
an empty handle. -/
def tagToken (inFlow : Bool) (c : Cursor) : Option (Token × Cursor) := do
  let (t, c) ←
    if c.peekAt 1 = some '<' then do
      let (suffix, c) ← tagText true (c.skip 2)
      if suffix = "" || c.peek ≠ some '>' then none
      else some (Token.tag "" suffix, c.skip 1)
    else do
      let (handle, closed, c) ← tagHandle c
      let (suffix, c) ← tagText false c
      if closed then if suffix = "" then none else some (Token.tag handle suffix, c)
      else
        let suffix := (handle.drop 1).toString ++ suffix
        if suffix = "" then some (Token.tag "" "!", c) else some (Token.tag "!" suffix, c)
  if isSpacing c.peek || (inFlow && c.peek = some ',') then return (t, c) else none

/-- A number of at most nine digits. -/
def shortNumber (c : Cursor) : Option (Nat × Cursor) :=
  let (ds, c) := c.span (fun d => '0' ≤ d && d ≤ '9')
  if ds = [] || 9 < ds.length then none else some (Nat.ofDigitChars 10 ds 0, c)

/-- A directive, read behind its percent sign, up to the end of its line. -/
def directive (c : Cursor) : Option (Token × Cursor) := do
  let (name, c) := c.span isWord
  if name = [] || !isSpacing c.peek then none
  else
    let (t, c) ←
      if String.ofList name = "YAML" then do
        let (major, c) ← shortNumber c.skipBlanks
        if c.peek ≠ some '.' then none
        else
          let (minor, c) ← shortNumber (c.skip 1)
          some (Token.version major minor, c)
      else if String.ofList name = "TAG" then do
        let (handle, closed, c) ← tagHandle c.skipBlanks
        if !closed && handle ≠ "!" then none
        else if !(c.peek.any isBlank) then none
        else
          let (meaning, c) ← tagText true c.skipBlanks
          if meaning = "" || !isSpacing c.peek then none
          else some (Token.tagPrefix handle meaning, c)
      else none
    let c := c.skipBlanks.skipComment
    if isLineEnd c.peek then return (t, c.skipBreak) else none

/-! ## The lexer -/

/-- A place where a key may have begun. -/
structure KeyStart where
  /-- How many tokens come before it. -/
  index : Nat
  position : Position
  /-- Nothing but a key may begin there. -/
  required : Bool

/-- The state of the cutting. -/
structure Lexer where
  cursor : Cursor
  /-- The column of the innermost block collection, and those around it. -/
  indent : Int := -1
  outer : List Int := []
  /-- A key may begin at the next token. -/
  keyAllowed : Bool := true
  /-- Where the key at hand may have begun, in the innermost brackets and in those around. -/
  keyStart : Option KeyStart := none
  outerKeys : List (Option KeyStart) := []
  /-- The tokens so far, the last one first, and their number. -/
  tokens : List Token := []
  count : Nat := 0
  /-- What has to be put in before the token of an index. -/
  insertions : List (Nat × List Token) := []

namespace Lexer

/-- Inside brackets. -/
def inFlow (l : Lexer) : Bool := !l.outerKeys.isEmpty

/-- A token more. -/
def push (l : Lexer) (t : Token) : Lexer := { l with tokens := t :: l.tokens, count := l.count + 1 }

/-- Behind the next `n` characters. -/
def skip (l : Lexer) (n : Nat) : Lexer := { l with cursor := l.cursor.skip n }

/-- Closes the block collections that are indented deeper than a column; `fuel` bounds their
number. -/
def unroll (column : Int) : Nat → Lexer → Lexer
  | 0, l => l
  | fuel + 1, l =>
    if l.inFlow || l.indent ≤ column then l
    else
      match l.outer with
      | [] => l
      | i :: is => unroll column fuel { l.push .blockEnd with indent := i, outer := is }

/-- Closes the block collections that are indented deeper than a column. -/
def closeTo (l : Lexer) (column : Int) : Lexer := unroll column l.outer.length l

/-- Opens a block collection at the cursor if none is open at its column. -/
def openHere (l : Lexer) (t : Token) : Lexer :=
  let column : Int := l.cursor.position.column
  if !l.inFlow && l.indent < column then
    { l.push t with indent := column, outer := l.indent :: l.outer }
  else l

/-- Forgets where the key at hand may have begun. -/
def dropKey (l : Lexer) : Option Lexer :=
  if l.keyStart.any (·.required) then none else some { l with keyStart := none }

/-- Notes that a key may begin here. -/
def noteKey (l : Lexer) : Option Lexer :=
  if l.keyAllowed then
    let required := !l.inFlow && l.indent = l.cursor.position.column
    if l.keyStart.any (·.required) then none
    else some { l with keyStart := some ⟨l.count, l.cursor.position, required⟩ }
  else some l

/-- A key begins and ends on one line, and is not longer than 1024 characters. -/
def stale (here : Position) (k : KeyStart) : Bool :=
  k.position.line < here.line || k.position.column + 1024 < here.column

/-- Forgets the places that are too far behind; refused if one of them had to be a key. -/
def dropStale (l : Lexer) : Option Lexer :=
  let here := l.cursor.position
  let gone (k : Option KeyStart) : Bool := k.any (stale here)
  if (l.keyStart :: l.outerKeys).any (fun k => k.any fun k => stale here k && k.required) then none
  else
    some { l with
      keyStart := if gone l.keyStart then none else l.keyStart
      outerKeys := l.outerKeys.map fun k => if gone k then none else k }

/-- Goes to the next token, over blanks, comments and line breaks. A tab counts as a blank where no
key may begin. `fuel` bounds the number of lines. -/
def toNext : Nat → Lexer → Lexer
  | 0, l => l
  | fuel + 1, l =>
    let blank (c : Char) : Bool := c = ' ' || (c = '\t' && (l.inFlow || !l.keyAllowed))
    let c := (l.cursor.span blank).2.skipComment
    match c.peek with
    | some b =>
      if isBreak b then
        toNext fuel { l with cursor := c.skipBreak, keyAllowed := l.keyAllowed || !l.inFlow }
      else { l with cursor := c }
    | none => { l with cursor := c }

/-- A token of one character that opens brackets. -/
def openFlow (l : Lexer) (t : Token) : Option Lexer := do
  let l ← l.noteKey
  return { (l.push t).skip 1 with
    keyStart := none, outerKeys := l.keyStart :: l.outerKeys, keyAllowed := true }

/-- A token of one character that closes brackets. -/
def closeFlow (l : Lexer) (t : Token) : Option Lexer := do
  let l ← l.dropKey
  let l := { (l.push t).skip 1 with keyAllowed := false }
  match l.outerKeys with
  | [] => return l
  | k :: ks => return { l with keyStart := k, outerKeys := ks }

/-- The hyphen of a block sequence. -/
def blockEntry (l : Lexer) : Option Lexer := do
  if !l.inFlow && !l.keyAllowed then none
  else
    let l ← (l.openHere .blockSequenceStart).dropKey
    return { (l.push .blockEntry).skip 1 with keyAllowed := true }

/-- The question mark before a key. -/
def explicitKey (l : Lexer) : Option Lexer := do
  if !l.inFlow && !l.keyAllowed then none
  else
    let l ← (l.openHere .blockMappingStart).dropKey
    return { (l.push .key).skip 1 with keyAllowed := !l.inFlow }

/-- The colon before a value. If a key may have begun, it did, and in a block it may open a
mapping. -/
def value (l : Lexer) : Option Lexer :=
  match l.keyStart with
  | some k =>
    let column : Int := k.position.column
    let opens := !l.inFlow && l.indent < column
    let before := if opens then [Token.blockMappingStart, .key] else [.key]
    let l := { l with
      insertions := (k.index, before) :: l.insertions
      indent := if opens then column else l.indent
      outer := if opens then l.indent :: l.outer else l.outer
      keyStart := none
      keyAllowed := false }
    some ((l.push .value).skip 1)
  | none =>
    if !l.inFlow && !l.keyAllowed then none
    else
      let l := l.openHere .blockMappingStart
      some { (l.push .value).skip 1 with keyAllowed := !l.inFlow }

/-- A token that may begin a key, and the cursor behind it. -/
def content (l : Lexer) (read : Cursor → Option (Token × Cursor)) : Option Lexer := do
  let l ← l.noteKey
  let (t, c) ← read l.cursor
  return { l.push t with cursor := c, keyAllowed := false }

/-- A block scalar. -/
def blockScalar (l : Lexer) (literal : Bool) : Option Lexer := do
  let l ← l.dropKey
  let (text, c) ← blockText literal l.indent (l.cursor.skip 1)
  let style := if literal then Style.literal else .folded
  return { l.push (.scalar style (String.ofList text)) with cursor := c, keyAllowed := true }

/-- A scalar between quotes. -/
def quotedScalar (l : Lexer) (single : Bool) : Option Lexer :=
  l.content fun c =>
    let c := c.skip 1
    let text? := if single then singleQuoted {} c.rest c.position
      else doubleQuoted {} .text c.rest c.position
    text?.map fun (text, c) =>
      (.scalar (if single then .singleQuoted else .doubleQuoted) (String.ofList text), c)

/-- A plain scalar. Behind a line break a key may begin again. -/
def plainScalar (l : Lexer) : Option Lexer := do
  let l ← l.noteKey
  let t ← plainText l.inFlow (l.indent + 1) [] none l.cursor.rest l.cursor.position
  return { l.push (.scalar .plain (String.ofList t.text)) with
    cursor := t.behind, keyAllowed := t.brokenBehind }

/-- A token that stands alone on its line: block collections end before it. -/
def atBorder (l : Lexer) (read : Cursor → Option (Token × Cursor)) : Option Lexer := do
  let l ← (l.closeTo (-1)).dropKey
  let (t, c) ← read l.cursor
  return { l.push t with cursor := c, keyAllowed := false }

/-- The indicators that begin no plain scalar. -/
def isIndicator (c : Char) : Bool :=
  c ∈ ['-', '?', ':', ',', '[', ']', '\x7b', '\x7d', '#', '&', '*', '!', '|', '>', '\'', '"', '%',
    '@', '`']

/-- Reads the token at the cursor, which begins with `c` and goes on with `d`. -/
def token (l : Lexer) (c : Char) (d : Option Char) : Option Lexer :=
  let here := l.cursor.position
  let rest := l.cursor.rest
  if here.column = 0 && c = '%' then l.atBorder fun c => directive (c.skip 1)
  else if atDocumentMark '-' here rest then l.atBorder fun c => some (.documentStart, c.skip 3)
  else if atDocumentMark '.' here rest then l.atBorder fun c => some (.documentEnd, c.skip 3)
  else if c = '[' then l.openFlow .flowSequenceStart
  else if c = '\x7b' then l.openFlow .flowMappingStart
  else if c = ']' then l.closeFlow .flowSequenceEnd
  else if c = '\x7d' then l.closeFlow .flowMappingEnd
  else if c = ',' then do
    let l ← l.dropKey
    return { (l.push .flowEntry).skip 1 with keyAllowed := true }
  else if c = '-' && isSpacing d then l.blockEntry
  else if c = '?' && (l.inFlow || isSpacing d) then l.explicitKey
  else if c = ':' && (l.inFlow || isSpacing d) then l.value
  else if c = '*' then
    l.content fun c => (anchorName (c.skip 1)).map fun (n, c) => (.alias n, c)
  else if c = '&' then
    l.content fun c => (anchorName (c.skip 1)).map fun (n, c) => (.anchor n, c)
  else if c = '!' then l.content (tagToken l.inFlow)
  else if c = '|' && !l.inFlow then l.blockScalar true
  else if c = '>' && !l.inFlow then l.blockScalar false
  else if c = '\'' then l.quotedScalar true
  else if c = '"' then l.quotedScalar false
  else if !(isBlank c) && (!isIndicator c || (c = '-' && !(d.any isBlank))
      || (!l.inFlow && (c = '?' || c = ':') && !isSpacing d)) then l.plainScalar
  else none

/-- Reads one token, or nothing at the end of the text. -/
def step (l : Lexer) : Option (Lexer × Bool) := do
  let l := toNext (l.cursor.rest.length + 1) l
  let l ← l.dropStale
  let l := l.closeTo l.cursor.position.column
  match l.cursor.rest with
  | [] =>
    let l ← (l.closeTo (-1)).dropKey
    return (l, true)
  | c :: rest => return (← l.token c rest.head?, false)

/-- Reads the tokens to the end of the text. Every token takes a character, so `fuel` may be the
length of the text. -/
def run : Nat → Lexer → Option Lexer
  | 0, _ => none
  | fuel + 1, l =>
    match l.step with
    | none => none
    | some (l, true) => some l
    | some (l, false) => run fuel l

end Lexer

/-- Puts tokens in before those of given indices, which ascend; `index` is that of the first
token. -/
def insertTokens : List (Nat × List Token) → Nat → List Token → List Token
  | [], _, ts => ts
  | _ :: _, _, [] => []
  | (i, new) :: more, index, t :: ts =>
    if i = index then new ++ t :: insertTokens more (index + 1) ts
    else t :: insertTokens ((i, new) :: more) (index + 1) ts

/-- The tokens of a text, or nothing if it cannot be cut up. A byte order mark may stand before the
text. -/
def Token.scan? (text : List Char) : Option (List Token) := do
  let text := normalizeBreaks text
  let c : Cursor := ⟨text, ⟨0, 0⟩⟩
  let c := if c.peek = some '\uFEFF' then c.skip 1 else c
  let l ← Lexer.run (text.length + 2) { cursor := c }
  let insertions := l.insertions.mergeSort fun a b => a.1 ≤ b.1
  return insertTokens insertions 0 l.tokens.reverse

end StorageNode.Yaml
