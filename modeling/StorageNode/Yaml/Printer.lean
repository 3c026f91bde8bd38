import StorageNode.Yaml.Event

/-!
# The text of events

The printer writes collections as indented blocks, empty ones in brackets, and every scalar in the
plainest style that its text and place allow (`Analysis`, `chooseStyle`). It is a machine over events:
what is expected next is kept on a stack (`Expected`), so that events which make no document are
refused where they cease to make sense (`PrintError`). Lines are never folded.
-/

namespace StorageNode.Yaml

/-! ## What a text allows -/

/-- The character can be written as it is: it is no control and no byte order mark. -/
def isPrintable (c : Char) : Bool :=
  let n := c.toNat
  n = 0x0A || (0x20 ≤ n && n ≤ 0x7E) || (0xA0 ≤ n && n ≤ 0xD7FF)
    || (0xE000 ≤ n && n ≤ 0xFFFD && n ≠ 0xFEFF) || 0x10000 ≤ n

/-- A line break of any kind. -/
def isAnyBreak (c : Char) : Bool :=
  c = '\n' || c = '\r' || c = '\x85' || c = '\u2028' || c = '\u2029'

/-- A blank, a line break, or the end of the text. -/
def isAnySpacing : Option Char → Bool
  | none => true
  | some c => isBlank c || isAnyBreak c

/-- What a text says about the styles it can be written in. -/
structure Analysis where
  empty : Bool
  /-- It has line breaks. -/
  multiline : Bool
  /-- It can stand plainly in a block. -/
  plain : Bool
  singleQuoted : Bool
  literal : Bool
deriving DecidableEq, Repr

/-- Characters that have a meaning at the head of a scalar. -/
def leadsIndicator (c : Char) : Bool :=
  c ∈ ['#', ',', '[', ']', '\x7b', '\x7d', '&', '*', '!', '|', '>', '\'', '"', '%', '@', '`']

/-- The text has, in a block, the look of something else than a plain scalar: `first` at its head,
`before` is the character before. -/
def hasIndicators : Bool → Option Char → List Char → Bool
  | _, _, [] => false
  | first, before, c :: cs =>
    let spaced := isAnySpacing cs.head?
    (if first then leadsIndicator c || ((c = '?' || c = ':' || c = '-') && spaced)
      else (c = ':' && spaced) || (c = '#' && isAnySpacing before))
    || hasIndicators false (some c) cs

/-- A space stands right before a line break (`true`, `false`), or right behind one. -/
def hasAdjacent (p q : Char → Bool) : List Char → Bool
  | a :: b :: cs => (p a && q b) || hasAdjacent p q (b :: cs)
  | _ => false

/-- The analysis of a text. -/
def analyze (cs : List Char) : Analysis :=
  if cs = [] then ⟨true, false, true, true, false⟩
  else
    let space (c : Char) : Bool := c = ' '
    let edge (o : Option Char) : Bool := o.any fun c => space c || isAnyBreak c
    let special := cs.any (!isPrintable ·)
    let spaceBreak := hasAdjacent space isAnyBreak cs
    let breakSpace := hasAdjacent isAnyBreak space cs
    let breaks := cs.any isAnyBreak
    let marks := cs.take 3 = ['-', '-', '-'] || cs.take 3 = ['.', '.', '.']
    { empty := false
      multiline := breaks
      plain := !(edge cs.head? || edge cs.getLast? || breakSpace || spaceBreak || special || breaks
        || marks || hasIndicators true none cs)
      singleQuoted := !(breakSpace || spaceBreak || special)
      literal := !(cs.getLast?.any space || spaceBreak || special) }

/-- The style a scalar is written in, given what is wished and where it stands: `key` before a colon
on the same line. -/
def chooseStyle (wish : Wish) (a : Analysis) (key : Bool) : Style :=
  let plainly := if !a.plain || (a.empty && key) then quotes else Style.plain
  if key && a.multiline then .doubleQuoted
  else
    match wish with
    | .any => plainly
    | .plain => plainly
    | .quoted => quotes
    | .literal => if !a.literal || key then .doubleQuoted else .literal
where
  /-- Single quotes if the text allows. -/
  quotes : Style := if a.singleQuoted then .singleQuoted else .doubleQuoted

/-! ## The page -/

/-- What is written, the last character first, and where the next character goes. -/
structure Page where
  reversed : List Char := []
  column : Nat := 0
  /-- Nothing, or white space, was written last. -/
  spaced : Bool := true
  /-- Nothing but indentation and indicators is on the line. -/
  indenting : Bool := true

namespace Page

/-- Writes one character. -/
def put (p : Page) (c : Char) : Page :=
  { p with reversed := c :: p.reversed, column := p.column + 1 }

/-- Writes characters. -/
def puts (p : Page) (cs : List Char) : Page := cs.foldl put p

/-- Writes a line break. -/
def breakLine (p : Page) (c : Char) : Page := { p with reversed := c :: p.reversed, column := 0 }

/-- Goes to an indentation, on a new line unless the line has nothing else yet. -/
def indentTo (p : Page) (indent : Nat) : Page :=
  let p := if !p.indenting || indent < p.column || (p.column = indent && !p.spaced) then
    p.breakLine '\n' else p
  { p.puts (List.replicate (indent - p.column) ' ') with spaced := true, indenting := true }

/-- Writes an indicator; behind a space, if it needs one and there is none. -/
def indicator (p : Page) (text : List Char) (needsSpace isSpace isIndent : Bool) : Page :=
  let p := if needsSpace && !p.spaced then p.put ' ' else p
  { p.puts text with spaced := isSpace, indenting := p.indenting && isIndent }

/-! ## Scalars -/

/-- Writes a character of a text that may go over several lines (`broken` inside a break). -/
def putPlainly (indent : Nat) (doubled : Char → Bool) (s : Page × Bool) (c : Char) : Page × Bool :=
  let (p, broken) := s
  if c = ' ' then (p.put c, broken)
  else if isAnyBreak c then
    let p := if !broken && c = '\n' then p.breakLine '\n' else p
    ({ p.breakLine c with indenting := true }, true)
  else
    let p := if broken then p.indentTo indent else p
    let p := if doubled c then p.put c else p
    ({ p.put c with indenting := false }, false)

/-- Writes a plain scalar. -/
def plainScalar (p : Page) (indent : Nat) (cs : List Char) : Page :=
  let p := if !p.spaced && cs ≠ [] then p.put ' ' else p
  let (p, _) := cs.foldl (putPlainly indent fun _ => false) (p, false)
  { p with spaced := false, indenting := false }

/-- Writes a scalar between single quotes. -/
def singleQuoted (p : Page) (indent : Nat) (cs : List Char) : Page :=
  let p := p.indicator ['\''] true false false
  let (p, broken) := cs.foldl (putPlainly indent (· = '\'')) (p, false)
  let p := if broken then p.indentTo indent else p
  { p.indicator ['\''] false false false with spaced := false, indenting := false }

/-- Some digits in base sixteen, upper case. -/
def upperHex (width n : Nat) : List Char :=
  let ds := (Nat.toDigits 16 n).map Char.toUpper
  List.replicate (width - ds.length) '0' ++ ds

/-- How a character is written between double quotes. -/
def escaped (c : Char) : List Char :=
  if isPrintable c && !isAnyBreak c && c ≠ '"' && c ≠ '\\' then [c]
  else
    match c with
    | '\x00' => ['\\', '0']
    | '\x07' => ['\\', 'a']
    | '\x08' => ['\\', 'b']
    | '\t' => ['\\', 't']
    | '\n' => ['\\', 'n']
    | '\x0b' => ['\\', 'v']
    | '\x0c' => ['\\', 'f']
    | '\r' => ['\\', 'r']
    | '\x1b' => ['\\', 'e']
    | '"' => ['\\', '"']
    | '\\' => ['\\', '\\']
    | '\x85' => ['\\', 'N']
    | '\xa0' => ['\\', '_']
    | '\u2028' => ['\\', 'L']
    | '\u2029' => ['\\', 'P']
    | c =>
      let n := c.toNat
      if n ≤ 0xFF then '\\' :: 'x' :: upperHex 2 n
      else if n ≤ 0xFFFF then '\\' :: 'u' :: upperHex 4 n
      else '\\' :: 'U' :: upperHex 8 n

/-- Writes a scalar between double quotes. -/
def doubleQuoted (p : Page) (cs : List Char) : Page :=
  let p := p.indicator ['"'] true false false
  let p := p.puts (cs.flatMap escaped)
  { p.indicator ['"'] false false false with spaced := false, indenting := false }

/-- The indicators of a literal block: its indentation, if the text begins with a space or a line
break, and how the line breaks at its end count. -/
def blockHints (cs : List Char) : List Char :=
  let lead := if cs.head?.any (fun c => c = ' ' || isAnyBreak c) then ['2'] else []
  let chomp := match cs.reverse with
    | [] => ['-']
    | [c] => if isAnyBreak c then ['+'] else ['-']
    | c :: d :: _ => if !isAnyBreak c then ['-'] else if isAnyBreak d then ['+'] else []
  lead ++ chomp

/-- Writes a character of a literal block (`broken` at the head of a line). -/
def putLiterally (indent : Nat) (s : Page × Bool) (c : Char) : Page × Bool :=
  let (p, broken) := s
  if isAnyBreak c then ({ p.breakLine c with indenting := true }, true)
  else
    let p := if broken then p.indentTo indent else p
    ({ p.put c with indenting := false }, false)

/-- Writes a scalar as a literal block. -/
def literalScalar (p : Page) (indent : Nat) (cs : List Char) : Page :=
  let p := p.indicator ['|'] true false false
  let p := if blockHints cs = [] then p else p.indicator (blockHints cs) false false false
  let p := { p.breakLine '\n' with indenting := true, spaced := true }
  (cs.foldl (putLiterally indent) (p, true)).1

/-! ## Tags -/

/-- A character that stands for itself in a tag. -/
def isTagPlain (c : Char) : Bool :=
  isWord c || c ∈ [';', '/', '?', ':', '@', '&', '=', '+', '$', ',', '.', '~', '*', '\'', '(', ')',
    '[', ']']

/-- The text of a tag, other characters as escaped octets. -/
def tagContent (s : List Char) : List Char :=
  s.flatMap fun c =>
    if isTagPlain c then [c]
    else (String.utf8EncodeChar c).flatMap fun b => '%' :: upperHex 2 b.toNat

/-- A tag cut into a handle and what is behind it; without a handle if it is shorter than any. -/
def tagParts (t : List Char) : Option (List Char) × List Char :=
  match t with
  | '!' :: c :: cs => (some ['!'], c :: cs)
  | t => (none, t)

/-- Writes a tag. -/
def tag (p : Page) (t : Option String) : Page :=
  match t with
  | none => p
  | some t =>
    match tagParts t.toList with
    | (some handle, suffix) =>
      let p := if p.spaced then p else p.put ' '
      let p := { p.puts handle with spaced := false, indenting := false }
      { p.puts (tagContent suffix) with spaced := false, indenting := false }
    | (none, suffix) =>
      let p := p.indicator ['!', '<'] true false false
      let p := { p.puts (tagContent suffix) with spaced := false, indenting := false }
      p.indicator ['>'] false false false

end Page

/-! ## The machine -/

/-- What the printer waits for. -/
inductive Expected where
  /-- A document, the first one or another. -/
  | document (first : Bool)
  | root
  | endOfDocument
  | items (first : Bool)
  | keys (first : Bool)
  /-- The value behind a key on the same line, or behind one that has lines of its own. -/
  | value (simple : Bool)
deriving DecidableEq

/-- The printer. -/
structure Printer where
  page : Page := {}
  expected : Expected := .document true
  /-- What is expected behind the collections that are open, the innermost first. -/
  stack : List Expected := []
  /-- The indentation, if there is one yet, and those outside. -/
  indent : Option Nat := none
  indents : List (Option Nat) := []

/-- Why events are refused. -/
inductive PrintError where
  /-- An end where a node is expected. -/
  | nodeExpected
  /-- Something else than a document where one is expected. -/
  | documentExpected
  /-- Something else where the end of a document is expected. -/
  | endExpected
deriving DecidableEq, Repr

/-- The text of an error. -/
def PrintError.message : PrintError → String
  | .nodeExpected => "expected SCALAR, SEQUENCE-START, MAPPING-START, or ALIAS"
  | .documentExpected => "expected DOCUMENT-START or STREAM-END"
  | .endExpected => "expected DOCUMENT-END"

namespace Printer

/-- One indentation more. Hyphens need none under a key (`indentless`). -/
def deepen (p : Printer) (flow indentless : Bool) : Printer :=
  { p with
    indents := p.indent :: p.indents
    indent := match p.indent with
      | none => some (if flow then 2 else 0)
      | some n => some (if indentless then n else n + 2) }

/-- Back to the indentation and the expectation outside a node. -/
def back (p : Printer) : Printer :=
  { p with
    indent := p.indents.headD none
    indents := p.indents.tail
    expected := p.stack.headD .endOfDocument
    stack := p.stack.tail }

/-- The indentation to write at. -/
def margin (p : Printer) : Nat := p.indent.getD 0

/-- Changes the page. -/
def write (p : Printer) (f : Page → Page) : Printer := { p with page := f p.page }

/-- Expects something behind the node that follows. -/
def push (p : Printer) (e : Expected) : Printer := { p with stack := e :: p.stack }

/-- An empty collection in brackets. -/
def emptyCollection (p : Printer) (left right : Char) : Printer :=
  let p := p.write (·.indicator [left] true true false)
  (p.write (·.indicator [right] false false false))

/-- How many bytes a key may have on one line. -/
def keyLimit : Nat := 128

/-- The bytes of a text. -/
def byteCount (cs : List Char) : Nat := (cs.map Char.utf8Size).foldr (· + ·) 0

/-- The bytes of a tag. -/
def tagLength (t : Option String) : Nat := (t.map fun t => byteCount t.toList).getD 0

/-- The event, with those behind it, is a key that fits on one line. -/
def isSimpleKey (e : Event) (rest : List Event) : Bool :=
  match e with
  | .scalar t _ s =>
    !(analyze s.toList).multiline && tagLength t + byteCount s.toList ≤ keyLimit
  | .sequenceStart t => rest.head? = some .sequenceEnd && tagLength t ≤ keyLimit
  | .mappingStart t => rest.head? = some .mappingEnd && tagLength t ≤ keyLimit
  | _ => false

/-- A scalar. -/
def scalar (p : Printer) (tag : Option String) (wish : Wish) (text : String) (key : Bool) :
    Printer :=
  let cs := text.toList
  let p := (p.write (·.tag tag)).deepen true false
  let p := match chooseStyle wish (analyze cs) key with
    | .plain => p.write (·.plainScalar p.margin cs)
    | .singleQuoted => p.write (·.singleQuoted p.margin cs)
    | .doubleQuoted => p.write (·.doubleQuoted cs)
    | .literal => p.write (·.literalScalar p.margin cs)
    | .folded => p
  p.back

/-- A node; a `key` stands before a colon on the same line. The flag tells that the event behind it,
the end of an empty collection, is taken too. -/
def node (p : Printer) (e : Event) (rest : List Event) (key : Bool) :
    Except PrintError (Printer × Bool) :=
  match e with
  | .scalar t w s => .ok (p.scalar t w s key, false)
  | .sequenceStart t =>
    let p := p.write (·.tag t)
    if rest.head? = some .sequenceEnd then
      .ok (((p.deepen true false).emptyCollection '[' ']').back, true)
    else .ok ({ p with expected := .items true }, false)
  | .mappingStart t =>
    let p := p.write (·.tag t)
    if rest.head? = some .mappingEnd then
      .ok (((p.deepen true false).emptyCollection '\x7b' '\x7d').back, true)
    else .ok ({ p with expected := .keys true }, false)
  | _ => .error .nodeExpected

/-- Writes one event, with a view of those behind it. The flag tells that the next event is written
along with it: the end of an empty collection. -/
def step (p : Printer) (e : Event) (rest : List Event) : Except PrintError (Printer × Bool) :=
  match p.expected with
  | .document first =>
    match e with
    | .documentStart =>
      let p := if first then p
        else (p.write (·.indentTo p.margin)).write (·.indicator ['-', '-', '-'] true false false)
      .ok ({ p with expected := .root }, false)
    | _ => .error .documentExpected
  | .root => (p.push .endOfDocument).node e rest false
  | .endOfDocument =>
    match e with
    | .documentEnd =>
      .ok ({ p.write (·.indentTo p.margin) with expected := .document false }, false)
    | _ => .error .endExpected
  | .items first =>
    /- A sequence under a key is not indented, unless the line holds nothing else yet. -/
    let underKey := match p.stack.head? with
      | some (.keys _) => !p.page.indenting
      | some (.value _) => !p.page.indenting
      | _ => false
    let p := if first then p.deepen false underKey else p
    match e with
    | .sequenceEnd => .ok (p.back, false)
    | _ =>
      let p := p.write (·.indentTo p.margin)
      let p := p.write (·.indicator ['-'] true false true)
      (p.push (.items false)).node e rest false
  | .keys first =>
    let p := if first then p.deepen false false else p
    match e with
    | .mappingEnd => .ok (p.back, false)
    | _ =>
      let p := p.write (·.indentTo p.margin)
      if isSimpleKey e rest then (p.push (.value true)).node e rest true
      else
        let p := p.write (·.indicator ['?'] true false true)
        (p.push (.value false)).node e rest false
  | .value simple =>
    let p := if simple then p.write (·.indicator [':'] false false false)
      else (p.write (·.indentTo p.margin)).write (·.indicator [':'] true false true)
    (p.push (.keys false)).node e rest false

/-- How many events have to be known before one is written. -/
def lookahead : Event → Nat
  | .documentStart => 1
  | .sequenceStart _ => 2
  | .mappingStart _ => 3
  | _ => 0

/-- The change of depth that an event makes. -/
def depthChange : Event → Int
  | .documentStart => 1
  | .sequenceStart _ => 1
  | .mappingStart _ => 1
  | .scalar .. => 0
  | _ => -1

/-- Some event among these brings the depth back to zero. -/
def balances (depth : Int) : List Event → Bool
  | [] => false
  | e :: es => depth + depthChange e = 0 || balances (depth + depthChange e) es

/-- Enough is known to write an event: as many events as it needs, or the end of what it begins. -/
def ready (e : Event) (rest : List Event) : Bool :=
  lookahead e ≤ rest.length || balances 0 (e :: rest)

/-- The events one after another, until they are refused or not enough of them is known. -/
def run (p : Printer) : Bool → List Event → Except PrintError Printer
  | _, [] => .ok p
  | true, _ :: es => p.run false es
  | false, e :: es =>
    if ready e es then
      match p.step e es with
      | .error err => .error err
      | .ok (p, skip) => p.run skip es
    else .ok p

end Printer

/-- Why a value cannot be written. -/
inductive WriteError where
  /-- A tagged value directly under a tag. -/
  | nestedTag
  | refused (cause : PrintError)
deriving DecidableEq, Repr

/-- The text of an error. -/
def WriteError.message : WriteError → String
  | .nestedTag => "serializing nested enums in YAML is not supported yet"
  | .refused cause => cause.message

/-- The text of an emission. Events that are refused come before a tag that stopped it. -/
def Emission.print (e : Emission) : Except WriteError String :=
  match ({} : Printer).run false e.events.reverse with
  | .error cause => .error (.refused cause)
  | .ok p => if e.nestedTag then .error .nestedTag else .ok (String.ofList p.page.reversed.reverse)

end StorageNode.Yaml
