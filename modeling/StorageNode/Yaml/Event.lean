import StorageNode.Yaml.Value

/-!
# From values to events

A value is written as a sequence of events: scalars, and the starts and ends of collections. A tagged
value has no event of its own; its tag goes to the first event of what it tags. While a mapping of
one entry is begun, it is not yet known whether the entry stands for a tag, so its start is held back
(`Pending.mapping`) until the first event of its key. Only one start can be held back: a mapping of
one entry whose key begins with another one loses its start, and the printer refuses the events.
-/

namespace StorageNode.Yaml

/-- How the writer of a value wants a scalar to be written. -/
inductive Wish where
  /-- As plainly as its text allows. -/
  | any
  | plain
  | quoted
  | literal
deriving DecidableEq, Repr

/-- A step of writing a document. A tag is the full text, exclamation mark included. -/
inductive Event where
  | documentStart
  | documentEnd
  | scalar (tag : Option String) (wish : Wish) (text : String)
  | sequenceStart (tag : Option String)
  | sequenceEnd
  | mappingStart (tag : Option String)
  | mappingEnd
deriving DecidableEq, Repr

/-- How a string has to be written to be read back as one: quoted if its text stands for something
else or would be taken for a number with leading zeros. -/
def wishFor (s : String) : Wish :=
  if s.toList.contains '\n' then .literal
  else
    match Plain.ofText s with
    | .string => if hasLeadingZero s.toList then .quoted else .any
    | _ => .quoted

/-- What is held back. -/
inductive Pending where
  | nothing
  /-- The start of a mapping of one entry, which may turn out to be a tag. -/
  | mapping
  /-- Such a mapping inside a tagged value: its start is written, and a tag is refused. -/
  | taggedMapping
  /-- A tag, for the next event. -/
  | tag (t : String)
  /-- A tag has been written; the mapping of one entry that stood for it has no end. -/
  | written
deriving DecidableEq

/-- The events so far, the last one first, how many collections are open, and what is held back. -/
structure Emission where
  events : List Event := []
  depth : Nat := 0
  pending : Pending := .nothing
  /-- A tag on a tag was met; nothing more is written. -/
  nestedTag : Bool := false

namespace Emission

/-- An event more. -/
def push (e : Emission) (v : Event) : Emission := { e with events := v :: e.events }

/-- Before a value: the outermost one begins the document. -/
def enter (e : Emission) : Emission :=
  let e := if e.depth = 0 then e.push .documentStart else e
  { e with depth := e.depth + 1 }

/-- Behind a value: the outermost one ends the document. -/
def leave (e : Emission) : Emission :=
  let e := { e with depth := e.depth - 1 }
  if e.depth = 0 then e.push .documentEnd else e

/-- The tag that is held back, with its exclamation mark, and the emission without it. -/
def takeTag (e : Emission) : Option String × Emission :=
  match e.pending with
  | .tag t => (some (if t.startsWith "!" then t else "!" ++ t), { e with pending := .nothing })
  | _ => (none, e)

/-- Writes the start of a mapping that is held back. -/
def release (e : Emission) : Emission :=
  match e.pending with
  | .mapping => ({ e with pending := .nothing }.enter).push (.mappingStart none)
  | .taggedMapping => { e with pending := .nothing }
  | _ => e

/-- A scalar. -/
def scalar (e : Emission) (wish : Wish) (text : String) : Emission :=
  let (tag, e) := e.release.takeTag
  (e.enter.push (.scalar tag wish text)).leave

/-- A string. -/
def string (e : Emission) (s : String) : Emission := e.scalar (wishFor s) s

/-- The start of a sequence. -/
def startSequence (e : Emission) : Emission :=
  let (tag, e) := e.release.enter.takeTag
  e.push (.sequenceStart tag)

/-- The end of a sequence. -/
def endSequence (e : Emission) : Emission := (e.push .sequenceEnd).leave

/-- The start of a mapping, written at once. -/
def startMapping (e : Emission) : Emission :=
  let (tag, e) := e.release.enter.takeTag
  e.push (.mappingStart tag)

/-- The start of a mapping of some number of entries. That of a single one is held back. -/
def openMapping (e : Emission) (entries : Nat) : Emission :=
  if entries = 1 then
    match e.pending with
    | .tag _ => { e.startMapping with pending := .taggedMapping }
    | _ => { e with pending := .mapping }
  else e.startMapping

/-- The end of a mapping. One that stood for a tag has none. -/
def closeMapping (e : Emission) : Emission :=
  let e := match e.pending with
    | .mapping => e.startMapping
    | _ => e
  match e.pending with
  | .written => { e with pending := .nothing }
  | _ => (e.push .mappingEnd).leave

/-- The key of the mapping that stands for a tag. -/
def tag (e : Emission) (t : String) : Emission :=
  match e.pending with
  | .mapping => { e with pending := .tag t }
  | .taggedMapping => { e with nestedTag := true }
  | _ => e.string ("!" ++ t)

/-- Behind the key of an entry: it has been taken for a tag. -/
def tagTaken (e : Emission) : Bool :=
  match e.pending with
  | .tag _ => true
  | _ => false

/-- Behind the value of an entry whose key was taken for a tag. -/
def tagWritten (e : Emission) : Emission := { e with pending := .written }

end Emission

mutual

/-- The events of a value behind those so far. -/
def Value.emit : Value → Emission → Emission
  | .null, e => e.scalar .plain "null"
  | .bool b, e => e.scalar .plain (if b then "true" else "false")
  | .integer n, e => e.scalar .plain (toString n.value)
  | .float x, e => e.scalar .plain (floatFormat.render x)
  | .string s, e => e.string s
  | .sequence vs, e => (emitItems vs e.startSequence).endSequence
  | .mapping es, e => (emitEntries es (e.openMapping es.length)).closeMapping
  | .tagged t v, e =>
    let e := (e.openMapping 1).tag t
    if e.nestedTag then e
    else
      let taken := e.tagTaken
      let e := v.emit e
      (if taken then e.tagWritten else e).closeMapping

/-- The events of items, one after another; nothing follows a nested tag. -/
def emitItems : List Value → Emission → Emission
  | [], e => e
  | v :: vs, e =>
    let e := v.emit e
    if e.nestedTag then e else emitItems vs e

/-- The events of entries, key and value in turn. -/
def emitEntries : List (Value × Value) → Emission → Emission
  | [], e => e
  | (k, v) :: es, e =>
    let e := k.emit e
    if e.nestedTag then e
    else
      let taken := e.tagTaken
      let e := v.emit e
      if e.nestedTag then e
      else emitEntries es (if taken then e.tagWritten else e)

end

end StorageNode.Yaml
