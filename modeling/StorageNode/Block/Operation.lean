import StorageNode.Block.Record

/-!
# Operations on block records

A block is described in memory by one operation after another on its record. Each operation gives an
answer and leaves a record behind it (`Operation.apply`); one that is refused leaves the record as it was.
-/

namespace StorageNode.Block

/-- An operation on a record. -/
inductive Operation where
  | addMetadata (key v : String)
  | value (key : String)
  | deleteKey (key : String)
  | addChunk (c : Chunk)
  | removeChunk (c : Chunk)
  | setChunks (cs : List Chunk)
  | size
  | setSize (n : UInt64)
  | computeSize
deriving DecidableEq, Repr

/-- What an operation answers. -/
inductive Answer where
  | done
  | value (v : Option String)
  /-- Whether there was such a chunk. -/
  | removed (found : Bool)
  | size (n : UInt64)
  | refused (e : Error)
deriving DecidableEq, Repr

/-- The answer of an operation on a record, and the record behind it. -/
def Operation.apply : Operation → Record → Answer × Record
  | .addMetadata key v, r =>
    match r.addMetadata key v with
    | .ok r' => (.done, r')
    | .error e => (.refused e, r)
  | .value key, r => (.value (r.value? key), r)
  | .deleteKey key, r => (.done, r.deleteKey key)
  | .addChunk c, r => (.done, r.addChunk c)
  | .removeChunk c, r =>
    let (found, r') := r.removeChunk c
    (.removed found, r')
  | .setChunks cs, r => (.done, r.setChunks cs)
  | .size, r => (.size r.size, r)
  | .setSize n, r => (.done, r.setSize n)
  | .computeSize, r =>
    match r.computeSize with
    | .ok (n, r') => (.size n, r')
    | .error e => (.refused e, r)

namespace Record

/-- The record behind operations, one after another. -/
def after (r : Record) (ops : List Operation) : Record := ops.foldl (fun r op => (op.apply r).2) r

/-- Operations, one after another, each with its answer. -/
def transcript (r : Record) : List Operation → List (Operation × Answer)
  | [] => []
  | op :: ops => (op, (op.apply r).1) :: (op.apply r).2.transcript ops

end Record

end StorageNode.Block
