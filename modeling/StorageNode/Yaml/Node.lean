import StorageNode.Yaml.Token

/-!
# The tree of a YAML document

A document is a tree of nodes. `Document.ofTokens?` builds it from the tokens: one function a
collection, each taking tokens as long as they continue it. A node may carry an anchor, by which a
later alias refers to it. Anchors are numbered by how many names are known when they are met
(`Anchors.add`), and an alias refers to the node that was given its number last. `Document.parse?`
reads one whole text; two documents, or an alias without its anchor, are no document.
-/

namespace StorageNode.Yaml

/-- A node of a document. -/
inductive Node where
  /-- The node whose anchor has a number. -/
  | alias (anchor : Nat)
  | scalar (anchor : Option Nat) (tag : Option String) (style : Style) (text : String)
  | sequence (anchor : Option Nat) (tag : Option String) (items : List Node)
  | mapping (anchor : Option Nat) (tag : Option String) (entries : List (Node × Node))
deriving Inhabited

/-- The names of anchors and their numbers, the latest first. -/
abbrev Anchors := List (String × Nat)

/-- The number of names. -/
def Anchors.names (a : Anchors) : Nat := (a.map (·.1)).eraseDups.length

/-- The number that a new anchor gets, and the names with it. -/
def Anchors.add (a : Anchors) (name : String) : Nat × Anchors := (a.names, (name, a.names) :: a)

/-- A whole document. -/
structure Document where
  root : Node
  /-- The nodes with anchors, in the order in which they begin. -/
  anchored : List (Nat × Node)
deriving Inhabited

mutual

/-- The nodes with anchors in a tree, in the order in which they begin. -/
def Node.anchored : Node → List (Nat × Node)
  | .alias _ => []
  | .scalar a t s x => a.toList.map (·, .scalar a t s x)
  | .sequence a t ns => a.toList.map (·, .sequence a t ns) ++ anchoredItems ns
  | .mapping a t es => a.toList.map (·, .mapping a t es) ++ anchoredEntries es

/-- Likewise in the items of a sequence. -/
def anchoredItems : List Node → List (Nat × Node)
  | [] => []
  | n :: ns => n.anchored ++ anchoredItems ns

/-- Likewise in the entries of a mapping. -/
def anchoredEntries : List (Node × Node) → List (Nat × Node)
  | [] => []
  | (k, v) :: es => k.anchored ++ v.anchored ++ anchoredEntries es

end

mutual

/-- How many events a tree is made of: one a scalar or alias, and two a collection beside its
parts. -/
def Node.events : Node → Nat
  | .alias _ => 1
  | .scalar .. => 1
  | .sequence _ _ ns => 2 + eventsOfItems ns
  | .mapping _ _ es => 2 + eventsOfEntries es

/-- Likewise in the items of a sequence. -/
def eventsOfItems : List Node → Nat
  | [] => 0
  | n :: ns => n.events + eventsOfItems ns

/-- Likewise in the entries of a mapping. -/
def eventsOfEntries : List (Node × Node) → Nat
  | [] => 0
  | (k, v) :: es => k.events + v.events + eventsOfEntries es

end

/-- The node that an alias refers to. -/
def Document.target? (d : Document) (anchor : Nat) : Option Node := d.anchored.reverse.lookup anchor

/-- The scalar that stands where nothing does. -/
def Node.nothing : Node := .scalar none none .plain ""

/-! ## From tokens -/

/-- The meanings of tag handles. -/
abbrev TagPrefixes := List (String × String)

/-- The tag of a handle and a suffix; a handle without a meaning is refused. -/
def resolveTag (prefixes : TagPrefixes) (handle suffix : String) : Option String :=
  if handle = "" then some suffix else (prefixes.lookup handle).map (· ++ suffix)

/-- The tokens that are left, and the anchors met so far. -/
structure Rest where
  tokens : List Token
  anchors : Anchors

/-- The rest behind its next token. -/
def Rest.skip (r : Rest) : Rest := { r with tokens := r.tokens.tail }

/-- The next token. -/
def Rest.peek (r : Rest) : Option Token := r.tokens.head?

/-- What stands before the content of a node. -/
structure Properties where
  anchor : Option String := none
  tag : Option (String × String) := none

/-- The anchor and the tag before a node, each at most once, in either order. -/
def Rest.properties (r : Rest) : Properties × Rest :=
  match r.tokens with
  | .anchor a :: .tag h s :: ts => ({ anchor := a, tag := (h, s) }, { r with tokens := ts })
  | .tag h s :: .anchor a :: ts => ({ anchor := a, tag := (h, s) }, { r with tokens := ts })
  | .anchor a :: ts => ({ anchor := a }, { r with tokens := ts })
  | .tag h s :: ts => ({ tag := some (h, s) }, { r with tokens := ts })
  | _ => ({}, r)

/-- The next token is one of these. -/
def Rest.at (r : Rest) (ts : List Token) : Bool := r.peek.any (· ∈ ts)

/-- A node without content: it has to have an anchor or a tag. -/
def bare (ps : Properties) (anchor : Option Nat) (tag : Option String) (r : Rest) :
    Option (Node × Rest) :=
  if ps.anchor.isSome || ps.tag.isSome then some (.scalar anchor tag .plain "", r) else none

mutual

/-- A node. In a block (`block`) it may be a block collection, and where a mapping's key or value is
expected (`indentless`) a sequence whose hyphens are not indented. `fuel` bounds the number of calls;
a call without a token behind it is followed by one with. -/
def node (tags : TagPrefixes) (block indentless : Bool) : Nat → Rest → Option (Node × Rest)
  | 0, _ => none
  | fuel + 1, r =>
    match r.tokens with
    | .alias name :: ts =>
      match r.anchors.lookup name with
      | some n => some (.alias n, { r with tokens := ts })
      | none => none
    | _ =>
      let (ps, r) := r.properties
      let tag? : Option (Option String) := match ps.tag with
        | none => some none
        | some (h, s) => (resolveTag tags h s).map some
      match tag? with
      | none => none
      | some tag =>
        let (anchor, anchors) := match ps.anchor with
          | none => (none, r.anchors)
          | some name =>
            let (n, anchors) := r.anchors.add name
            (some n, anchors)
        let r := { r with anchors := anchors }
        match r.tokens with
        | .blockEntry :: _ =>
          if indentless then
            (indentlessItems tags fuel r).map fun (ns, r) => (.sequence anchor tag ns, r)
          else bare ps anchor tag r
        | .scalar style text :: ts =>
          some (.scalar anchor tag style text, { r with tokens := ts })
        | .flowSequenceStart :: _ =>
          (flowItems tags true fuel r.skip).map fun (ns, r) => (.sequence anchor tag ns, r)
        | .flowMappingStart :: _ =>
          (flowEntries tags true fuel r.skip).map fun (es, r) => (.mapping anchor tag es, r)
        | .blockSequenceStart :: _ =>
          if block then
            (blockItems tags fuel r.skip).map fun (ns, r) => (.sequence anchor tag ns, r)
          else bare ps anchor tag r
        | .blockMappingStart :: _ =>
          if block then
            (blockEntries tags fuel r.skip).map fun (es, r) => (.mapping anchor tag es, r)
          else bare ps anchor tag r
        | _ => bare ps anchor tag r

/-- The items of an indented sequence, each behind a hyphen. -/
def blockItems (tags : TagPrefixes) : Nat → Rest → Option (List Node × Rest)
  | 0, _ => none
  | fuel + 1, r =>
    match r.tokens with
    | .blockEntry :: _ => do
      let r := r.skip
      let (n, r) ←
        if r.at [.blockEntry, .blockEnd] then some (Node.nothing, r)
        else node tags true false fuel r
      let (ns, r) ← blockItems tags fuel r
      return (n :: ns, r)
    | .blockEnd :: _ => some ([], r.skip)
    | _ => none

/-- The items of a sequence whose hyphens are not indented. -/
def indentlessItems (tags : TagPrefixes) : Nat → Rest → Option (List Node × Rest)
  | 0, _ => none
  | fuel + 1, r =>
    match r.tokens with
    | .blockEntry :: _ => do
      let r := r.skip
      let (n, r) ←
        if r.at [.blockEntry, .key, .value, .blockEnd] then some (Node.nothing, r)
        else node tags true false fuel r
      let (ns, r) ← indentlessItems tags fuel r
      return (n :: ns, r)
    | _ => some ([], r)

/-- The entries of a block mapping. -/
def blockEntries (tags : TagPrefixes) : Nat → Rest → Option (List (Node × Node) × Rest)
  | 0, _ => none
  | fuel + 1, r =>
    match r.tokens with
    | .key :: _ => do
      let r := r.skip
      let (k, r) ←
        if r.at [.key, .value, .blockEnd] then some (Node.nothing, r)
        else node tags true true fuel r
      let (v, r) ← blockValue tags fuel r
      let (es, r) ← blockEntries tags fuel r
      return ((k, v) :: es, r)
    | .blockEnd :: _ => some ([], r.skip)
    | _ => none

/-- The value of an entry of a block mapping; without a colon there is none. -/
def blockValue (tags : TagPrefixes) : Nat → Rest → Option (Node × Rest)
  | 0, _ => none
  | fuel + 1, r =>
    match r.tokens with
    | .value :: _ =>
      let r := r.skip
      if r.at [.key, .value, .blockEnd] then some (Node.nothing, r)
      else node tags true true fuel r
    | _ => some (Node.nothing, r)

/-- The items of a sequence in brackets; an item with a key is a mapping of one entry. -/
def flowItems (tags : TagPrefixes) (first : Bool) : Nat → Rest → Option (List Node × Rest)
  | 0, _ => none
  | fuel + 1, r =>
    match r.tokens with
    | .flowSequenceEnd :: _ => some ([], r.skip)
    | _ => do
      let r ← if first then some r else if r.at [.flowEntry] then some r.skip else none
      match r.tokens with
      | .flowSequenceEnd :: _ => return ([], r.skip)
      | .key :: _ =>
        let r := r.skip
        let (k, r) ←
          if r.at [.value, .flowEntry, .flowSequenceEnd] then some (Node.nothing, r.skip)
          else node tags false false fuel r
        let (v, r) ←
          if r.at [.value] then
            let r := r.skip
            if r.at [.flowEntry, .flowSequenceEnd] then some (Node.nothing, r)
            else node tags false false fuel r
          else some (Node.nothing, r)
        let (ns, r) ← flowItems tags false fuel r
        return (.mapping none none [(k, v)] :: ns, r)
      | _ =>
        let (n, r) ← node tags false false fuel r
        let (ns, r) ← flowItems tags false fuel r
        return (n :: ns, r)

/-- The entries of a mapping in braces; an entry without a key's mark has no value. -/
def flowEntries (tags : TagPrefixes) (first : Bool) :
    Nat → Rest → Option (List (Node × Node) × Rest)
  | 0, _ => none
  | fuel + 1, r =>
    match r.tokens with
    | .flowMappingEnd :: _ => some ([], r.skip)
    | _ => do
      let r ← if first then some r else if r.at [.flowEntry] then some r.skip else none
      match r.tokens with
      | .flowMappingEnd :: _ => return ([], r.skip)
      | .key :: _ =>
        let r := r.skip
        let (k, r) ←
          if r.at [.value, .flowEntry, .flowMappingEnd] then some (Node.nothing, r)
          else node tags false false fuel r
        let (v, r) ←
          if r.at [.value] then
            let r := r.skip
            if r.at [.flowEntry, .flowMappingEnd] then some (Node.nothing, r)
            else node tags false false fuel r
          else some (Node.nothing, r)
        let (es, r) ← flowEntries tags false fuel r
        return ((k, v) :: es, r)
      | _ =>
        let (k, r) ← node tags false false fuel r
        let (es, r) ← flowEntries tags false fuel r
        return ((k, Node.nothing) :: es, r)

end

/-! ## Documents -/

/-- The directives before a document: one version at most, of one of the two known numbers, and tag
prefixes, each handle once. The default prefixes count where no other does. -/
def directives (version : Bool) (prefixes : TagPrefixes) :
    List Token → Option (TagPrefixes × List Token)
  | .version major minor :: ts =>
    if version || major ≠ 1 || (minor ≠ 1 && minor ≠ 2) then none
    else directives true prefixes ts
  | .tagPrefix h m :: ts =>
    if (prefixes.lookup h).isSome then none else directives version ((h, m) :: prefixes) ts
  | ts => some (prefixes ++ [("!", "!"), ("!!", "tag:yaml.org,2002:")], ts)

/-- The next token is a directive. -/
def startsDirectives : List Token → Bool
  | .version .. :: _ => true
  | .tagPrefix .. :: _ => true
  | _ => false

/-- The next token ends a document that has no content, or begins another one. -/
def endsDocument : List Token → Bool
  | [] => true
  | .documentStart :: _ => true
  | .documentEnd :: _ => true
  | ts => startsDirectives ts

/-- The root of a document that is the whole of the tokens; nothing at all if there are none. -/
def rootOfTokens (ts : List Token) : Option (Option Node) := do
  match ts with
  | [] => return none
  | _ =>
    let fuel := 2 * ts.length + 4
    let (n, ts) ←
      if startsDirectives ts || ts.head? = some .documentStart then do
        let (tags, ts) ← directives false [] ts
        match ts with
        | .documentStart :: ts =>
          if endsDocument ts then some (Node.nothing, ts)
          else
            let (n, r) ← node tags true false fuel ⟨ts, []⟩
            some (n, r.tokens)
        | _ => none
      else do
        let (tags, _) ← directives false [] []
        let (n, r) ← node tags true false fuel ⟨ts, []⟩
        some (n, r.tokens)
    /- Behind the document only marks of its end may stand. -/
    if ts.all (· = .documentEnd) then return some n else none

/-- A text that is no YAML document. -/
structure NotADocument where
deriving DecidableEq, Repr

/-- The document that bytes hold, or nothing if they hold no content. -/
def Document.parse? (bytes : Bytes) : Except NotADocument (Option Document) :=
  let read : Option (Option Document) := do
    let cs ← Utf8.decode? bytes
    if !cs.all isLegal then none
    else
      let ts ← Token.scan? cs
      let root ← rootOfTokens ts
      return root.map fun n => ⟨n, n.anchored⟩
  match read with
  | some d => .ok d
  | none => .error {}

end StorageNode.Yaml
