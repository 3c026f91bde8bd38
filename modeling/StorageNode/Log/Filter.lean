import StorageNode.Log.Event

/-!
# Choosing what is logged

A filter has a list of directives, each of which gives the least serious level that is logged of one
part of the node, or of all parts. Of the directives that concern an event, the one with the longest
name decides (`LogFilter.allows`). Directives are read from a text, `part=level` or a single level or
part at a time, with commas between; what makes no sense is passed over. Behind a slash may stand what
the words of an event must contain. A later text takes the place of the directives for the same parts
and leaves the others.
-/

namespace StorageNode

/-- What is logged of one part of the node, or of all parts. -/
structure LogDirective where
  part : Option String
  /-- The least serious level that is logged; nothing is logged if there is none. -/
  level : Option LogLevel
deriving DecidableEq, Repr

/-- A filter of events. -/
structure LogFilter where
  directives : List LogDirective
  /-- What the words of an event must contain. -/
  excerpt : Option String
deriving DecidableEq, Repr

/-- The rank of a level; the more serious, the lower. -/
def LogLevel.rank : LogLevel → Nat
  | error => 1
  | warn => 2
  | info => 3
  | debug => 4
  | trace => 5

/-- A character that is white space. -/
def isWhiteSpace (c : Char) : Bool :=
  let n := c.toNat
  (0x09 ≤ n && n ≤ 0x0D) || n = 0x20 || n = 0x85 || n = 0xA0 || n = 0x1680
    || (0x2000 ≤ n && n ≤ 0x200A) || n = 0x2028 || n = 0x2029 || n = 0x202F || n = 0x205F
    || n = 0x3000

/-- A text without the white space around it. -/
def trimmed (s : String) : String :=
  String.ofList ((s.toList.dropWhile isWhiteSpace).reverse.dropWhile isWhiteSpace).reverse

namespace LogDirective

/-- The level that a word stands for, in letters of either case. -/
def levelOf? (word : String) : Option (Option LogLevel) :=
  let word := word.map Char.toUpper
  if word = "OFF" then some none
  else ([.error, .warn, .info, .debug, .trace] : List LogLevel).find? (·.word = word) |>.map some

/-- The directive that a text stands for. -/
def ofText? (text : String) : Option LogDirective :=
  match text.splitOn "=" with
  | [single] =>
    match levelOf? single with
    | some level => some ⟨none, level⟩
    | none => some ⟨some single, some .trace⟩
  | [part, level] =>
    let level := trimmed level
    if level = "" then some ⟨some part, some .trace⟩
    else (levelOf? level).map fun l => ⟨some part, l⟩
  | _ => none

/-- The directive concerns a part of the node. -/
def concerns (d : LogDirective) (target : String) : Bool :=
  match d.part with
  | none => true
  | some p => p.toList.isPrefixOf target.toList

/-- How long the name of the part is. -/
def length (d : LogDirective) : Nat := (d.part.map String.utf8ByteSize).getD 0

end LogDirective

namespace LogFilter

/-- Puts a directive in, in the place of one for the same part. -/
def put (d : LogDirective) : List LogDirective → List LogDirective
  | [] => [d]
  | e :: es => if e.part = d.part then d :: es else e :: put d es

/-- The directives of a text. -/
def directivesOf (text : String) : List LogDirective :=
  ((text.splitOn ",").map trimmed).filterMap fun s => if s = "" then none else LogDirective.ofText? s

/-- The filter with the directives of a text put in. A text with more than one slash makes no
sense. -/
def add (f : LogFilter) (text : String) : LogFilter :=
  match text.splitOn "/" with
  | [ds] => ⟨(directivesOf ds).foldl (fun es d => put d es) f.directives, none⟩
  | [ds, excerpt] => ⟨(directivesOf ds).foldl (fun es d => put d es) f.directives, some excerpt⟩
  | _ => ⟨f.directives, none⟩

/-- What is logged unless something else is asked for. -/
def standard : LogFilter := add ⟨[], none⟩ "info,datanode=info"

/-- The directive that decides about a part of the node. -/
def deciding? (f : LogFilter) (target : String) : Option LogDirective :=
  (f.directives.mergeSort fun a b => a.length ≤ b.length).reverse.find? (·.concerns target)

/-- The characters occur in a text, one right behind the other. -/
def occursIn (cs : List Char) : List Char → Bool
  | [] => cs.isEmpty
  | d :: ds => cs.isPrefixOf (d :: ds) || occursIn cs ds

/-- The event is logged. -/
def allows (f : LogFilter) (e : Event) : Bool :=
  let contained := match f.excerpt with
    | none => true
    | some s => occursIn s.toList e.words.toList
  match (f.deciding? e.target).bind (·.level) with
  | none => false
  | some l => e.level.rank ≤ l.rank && contained

end LogFilter

/-- An event as a line of the log: its level, five wide, the part it comes from, and its words. -/
def Event.line (e : Event) : String :=
  let word := e.level.word
  word ++ String.ofList (List.replicate (5 - word.length) ' ') ++ " " ++ e.target ++ "] " ++ e.words

end StorageNode
