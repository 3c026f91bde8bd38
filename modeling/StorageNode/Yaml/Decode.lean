import StorageNode.Yaml.Value

/-!
# Reading typed data from a document

What is read is a node, and where it lies is a `Path` of keys and indices, which a mismatch is
reported with. An alias is followed to its node; how often is counted (`Read`), because a document may
refer to itself in ever growing numbers, and so is the depth of collections. `Reading.value` keeps
data of any shape; it has no place for local tags and for integers of more than 64 bits.
-/

namespace StorageNode.Yaml

/-! ## Paths and failures -/

/-- One step from a collection to one of its parts. -/
inductive Step where
  /-- The value under a scalar key. -/
  | key (text : String)
  /-- The value under a key that is no scalar. -/
  | unknown
  | index (n : Nat)
deriving DecidableEq, Repr

/-- The way from the root to a node, the last step first. -/
abbrev Path := List Step

/-- The text of a path; that of the root is a dot. -/
def Path.text : Path → String
  | [] => "."
  | .index n :: p => Path.text p ++ "[" ++ toString n ++ "]"
  | .key k :: [] => k
  | .key k :: p => Path.text p ++ "." ++ k
  | .unknown :: [] => "?"
  | .unknown :: p => Path.text p ++ ".?"

/-- Why a document does not give the data that is read from it. -/
inductive Failure where
  /-- The text is no document. -/
  | notADocument
  /-- Collections are nested too deep, aliases included. -/
  | tooDeep
  /-- Aliases are followed too often. -/
  | tooManyAliases
  | data (path : Path) (m : Mismatch)
deriving DecidableEq, Repr

/-- The wordings of this format. -/
def wording : Mismatch.Wording := ⟨"unit value", Binary64.written⟩

/-- The text of a failure. The path of the root is not written. A text that is no document has one
message, whatever is wrong with it. -/
def Failure.message : Failure → String
  | .notADocument => "<yaml syntax error>"
  | .tooDeep => "<yaml syntax error>"
  | .tooManyAliases => "repetition limit exceeded"
  | .data [] m => m.message wording
  | .data p m => Path.text p ++ ": " ++ m.message wording

/-! ## Reading -/

/-- Reading with a count of the aliases followed so far. -/
abbrev Read (α : Type) := Nat → Except Failure (α × Nat)

namespace Read

/-- A result without reading anything. -/
def pure (a : α) : Read α := fun n => .ok (a, n)

/-- A failure. -/
def fail (e : Failure) : Read α := fun _ => .error e

/-- Reads one thing after another. -/
def bind (r : Read α) (f : α → Read β) : Read β := fun n =>
  match r n with
  | .ok (a, n) => f a n
  | .error e => .error e

instance : Monad Read where
  pure := pure
  bind := bind

/-- A mismatch at a path. -/
def mismatch (p : Path) (m : Mismatch) : Read α := fail (.data p m)

/-- A result that may be a mismatch. -/
def check (p : Path) : Except Mismatch α → Read α
  | .ok a => pure a
  | .error m => mismatch p m

end Read

namespace Document

/-- How often aliases may be followed: a hundred times for each event of the document. -/
def aliasLimit (d : Document) : Nat := 100 * d.root.events

/-- The node itself, or the one an alias refers to. -/
def follow (d : Document) : Node → Read Node
  | .alias a => fun n =>
    if d.aliasLimit ≤ n then .error .tooManyAliases
    else
      match d.target? a with
      | some target => .ok (target, n + 1)
      | none => .error .notADocument
  | node => Read.pure node

/-- The step to the value under a key. -/
def stepTo : Node → Step
  | .scalar _ _ _ s => .key s
  | _ => .unknown

/-- Why a node is not of the kind that is expected: a scalar by what it stands for. -/
def refuse (p : Path) (expected : String) : Node → Failure
  | .scalar _ tag style s =>
    match Plain.ofScalar tag style s with
    | .ok v => .data p (.type (v.found s) expected)
    | .error m => .data p m
  | .sequence .. => .data p (.type .sequence expected)
  | .mapping .. => .data p (.type .map expected)
  | .alias _ => .notADocument

/-- The text of a scalar, whatever it stands for. -/
def text (d : Document) (p : Path) (expected : String) (n : Node) : Read String := do
  match ← d.follow n with
  | .scalar _ _ _ s => return s
  | n => Read.fail (refuse p expected n)

/-- An unsigned number below a bound. It has to be written plainly, or as a literal block with the tag
of integers. -/
def natural (d : Document) (p : Path) (bound : Nat) (expected : String) (n : Node) : Read Nat := do
  let n ← d.follow n
  match n with
  | .scalar _ tag style s =>
    if style = .plain || (style = .literal && tag = some (coreTag "int")) then
      match signedMagnitude? s.toList with
      | some (false, k) =>
        if k < bound then return k
        else if k < UInt64.size then Read.mismatch p (.value (.unsigned k) expected)
        else Read.fail (refuse p expected n)
      | _ => Read.fail (refuse p expected n)
    else Read.fail (refuse p expected n)
  | _ => Read.fail (refuse p expected n)

/-- A node that is left empty. -/
def isEmpty : Node → Bool
  | .scalar _ _ .plain "" => true
  | _ => false

/-- The entries of a mapping; none where nothing is written. -/
def entries (d : Document) (p : Path) (expected : String) (n : Node) :
    Read (List (Node × Node)) := do
  let n ← d.follow n
  match n with
  | .mapping _ _ es => return es
  | n => if isEmpty n then return [] else Read.fail (refuse p expected n)

/-- The items of a sequence; none where nothing is written. -/
def items (d : Document) (p : Path) (expected : String) (n : Node) : Read (List Node) := do
  let n ← d.follow n
  match n with
  | .sequence _ _ ns => return ns
  | n => if isEmpty n then return [] else Read.fail (refuse p expected n)

/-- One of some words: as a scalar's text, or as a local tag on nothing. -/
def oneOf (d : Document) (p : Path) (words : List String) (n : Node) : Read String := do
  let n ← d.follow n
  let known (w : String) : Read String :=
    if w ∈ words then pure w else Read.mismatch p (.variant w words)
  match n with
  | .scalar _ tag style s =>
    match localTag? tag with
    | none => known s
    | some t => do
      let t ← known t
      if style = .plain && (s = "" || isNullWord s) then return t
      else Read.mismatch p (.value (.text s) "null")
  | .sequence _ tag _ =>
    match localTag? tag with
    | none => Read.mismatch p (.untagged .sequence)
    | some t => do
      let _ ← known t
      Read.mismatch p (.type .sequence "unit")
  | .mapping _ tag _ =>
    match localTag? tag with
    | none => Read.mismatch p (.untagged .map)
    | some t => do
      let _ ← known t
      Read.mismatch p (.type .map "unit")
  | .alias _ => Read.fail .notADocument

/-- Every part of a list in turn, with its index. -/
def eachItem (f : Nat → Node → Read α) : Nat → List Node → Read (List α)
  | _, [] => pure []
  | i, n :: ns => do
    let a ← f i n
    let as ← eachItem f (i + 1) ns
    return a :: as

/-- Every entry of a mapping in turn. -/
def eachEntry (f : Node → Node → Read α) : List (Node × Node) → Read (List α)
  | [] => pure []
  | (k, v) :: es => do
    let a ← f k v
    let as ← eachEntry f es
    return a :: as

/-- A scalar as data. -/
def scalarValue (p : Path) (tag : Option String) (style : Style) (s : String) : Read Value :=
  if (localTag? tag).isSome then Read.mismatch p .tagged
  else do
    match ← Read.check p (Plain.ofScalar tag style s) with
    | .null => return .null
    | .bool b => return .bool b
    | .integer i => return .integer i
    | .float x => return .float x
    | .string => return .string s
    | wide => Read.mismatch p (.type (wide.found s) "any value")

/-- A node as data. `depth` is how many collections may still be opened. Entries with the same key
are kept; `distinctKeys` refuses them. -/
def value (d : Document) : Nat → Path → Node → Read Value
  | depth, p, n => do
    let n ← d.follow n
    let scalarOrDeep (n : Node) : Read Value :=
      match n with
      | .scalar _ tag style s => scalarValue p tag style s
      | .sequence _ tag _ =>
        if (localTag? tag).isSome then Read.mismatch p .tagged else Read.fail .tooDeep
      | .mapping _ tag _ =>
        if (localTag? tag).isSome then Read.mismatch p .tagged else Read.fail .tooDeep
      | .alias _ => Read.fail .notADocument
    match depth with
    | 0 => scalarOrDeep n
    | depth + 1 =>
      match n with
      | .sequence _ tag ns =>
        if (localTag? tag).isSome then Read.mismatch p .tagged
        else
          let vs ← eachItem (fun i n => value d depth (.index i :: p) n) 0 ns
          return .sequence vs
      | .mapping _ tag es =>
        if (localTag? tag).isSome then Read.mismatch p .tagged
        else
          let es ← eachEntry (fun k v => do
            let k' ← value d depth p k
            let v' ← value d depth (stepTo k :: p) v
            return (k', v')) es
          return .mapping es
      | n => scalarOrDeep n

end Document

/-! ## Keys -/

/-- A key that occurs twice, in words. -/
def duplicateWords : Value → String
  | .null => "with null key"
  | .bool b => "with key `" ++ (if b then "true" else "false") ++ "`"
  | .integer n => "with key " ++ toString n.value
  | .float x => "with key " ++ floatFormat.render x
  | .string s => "with key " ++ Text.quoted s
  | _ => "in YAML map"

mutual

/-- No mapping in the value has two entries with the same key. -/
def Value.distinctKeys : Value → Except Mismatch Unit
  | .sequence vs => distinctInItems vs
  | .mapping es => distinctInEntries [] es
  | .tagged _ v => v.distinctKeys
  | _ => .ok ()

/-- Likewise for the items of a sequence. -/
def distinctInItems : List Value → Except Mismatch Unit
  | [] => .ok ()
  | v :: vs => do
    v.distinctKeys
    distinctInItems vs

/-- Likewise for the entries of a mapping, behind entries with the keys `seen`. -/
def distinctInEntries (seen : List Value) : List (Value × Value) → Except Mismatch Unit
  | [] => .ok ()
  | (k, v) :: es => do
    k.distinctKeys
    if seen.any (·.same k) then .error (.duplicateKey (duplicateWords k))
    else
      v.distinctKeys
      distinctInEntries (k :: seen) es

end

/-! ## Documents -/

/-- How deep the collections of a document may be nested, as far as they are kept as data. -/
def depthLimit : Nat := 128

mutual

/-- How deep the collections of a tree are nested. -/
def Node.depth : Node → Nat
  | .alias _ => 0
  | .scalar .. => 0
  | .sequence _ _ ns => depthOfItems ns + 1
  | .mapping _ _ es => depthOfEntries es + 1

/-- Likewise in the items of a sequence. -/
def depthOfItems : List Node → Nat
  | [] => 0
  | n :: ns => max n.depth (depthOfItems ns)

/-- Likewise in the entries of a mapping. -/
def depthOfEntries : List (Node × Node) → Nat
  | [] => 0
  | (k, v) :: es => max (max k.depth v.depth) (depthOfEntries es)

end

/-- What is told of a failure: where the document is nested too deep, this and nothing else. -/
def Document.failure (d : Document) (e : Failure) : Failure :=
  if depthLimit < d.root.depth then .tooDeep else e

/-- Reads bytes that hold one document. Where they hold no content at all, an empty node is read. The
depth of collections counts where they are kept as data; what is passed over may have any depth. -/
def read (f : Document → Node → Read α) (bytes : Bytes) : Except Failure α :=
  match Document.parse? bytes with
  | .error _ => .error .notADocument
  | .ok none => (f ⟨Node.nothing, []⟩ Node.nothing 0).map (·.1)
  | .ok (some d) => ((f d d.root 0).map (·.1)).mapError d.failure

end StorageNode.Yaml
