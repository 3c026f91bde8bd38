import StorageNode.Json.Lexical

/-!
# Reading typed data from JSON

A `Reader α` takes the bytes from where a value should stand. Data is read as it comes, so that of
two faults the earlier one is reported. A record (`Shape`) may be given as an object, whose unknown
members are skipped and whose known ones may come in any order but only once, or as the array of its
fields in their order; fields with a default may be left out.
-/

namespace StorageNode.Json

/-! ## Values that are skipped -/

/-- Reads a key and the colon behind it, both skipped; blanks may stand before each. -/
def skipKey (bs : Bytes) : Except Failure Bytes :=
  match skipBlanks bs with
  | [] => .error .endInObject
  | b :: rest =>
    if b = 0x22 then
      match skipString rest with
      | .error e => .error e
      | .ok rest =>
        match skipBlanks rest with
        | [] => .error .endInObject
        | c :: rest => if c = 0x3A then .ok rest else .error .colonExpected
    else .error .keyNotString

/-- Where the skipping of a value stands: before a value, or behind one. -/
inductive Position where
  | before
  | behind

/-- Skips values until those that are still open are closed. `open_` lists them from the innermost,
`true` for an object. Every turn takes a byte, so `fuel` may be the number of bytes. -/
def skipNested : Nat → Position → List Bool → Bytes → Except Failure Bytes
  | 0, _, _, _ => .error .endInValue
  | fuel + 1, .before, stack, bs =>
    match skipBlanks bs with
    | [] => .error .endInValue
    | b :: rest =>
      if b = 0x22 then
        match skipString rest with
        | .error e => .error e
        | .ok rest => skipNested fuel .behind stack rest
      else if b = 0x2D then
        match skipNumber rest with
        | .error e => .error e
        | .ok rest => skipNested fuel .behind stack rest
      else if isDigit b then
        match skipNumber (b :: rest) with
        | .error e => .error e
        | .ok rest => skipNested fuel .behind stack rest
      else if b = 0x5B then
        match skipBlanks rest with
        | [] => .error .endInArray
        | c :: rest' =>
          if c = 0x5D then skipNested fuel .behind stack rest'
          else skipNested fuel .before (false :: stack) rest
      else if b = 0x7B then
        match skipBlanks rest with
        | [] => .error .endInObject
        | c :: rest' =>
          if c = 0x7D then skipNested fuel .behind stack rest'
          else
            match skipKey rest with
            | .error e => .error e
            | .ok rest => skipNested fuel .before (true :: stack) rest
      else
        match wordTail b with
        | some (w, _) =>
          match word w rest with
          | .error e => .error e
          | .ok rest => skipNested fuel .behind stack rest
        | none => .error .valueExpected
  | _ + 1, .behind, [], bs => .ok bs
  | fuel + 1, .behind, object :: stack, bs =>
    match skipBlanks bs with
    | [] => .error (if object then .endInObject else .endInArray)
    | b :: rest =>
      if b = 0x2C then
        if object then
          match skipKey rest with
          | .error e => .error e
          | .ok rest => skipNested fuel .before (object :: stack) rest
        else skipNested fuel .before (object :: stack) rest
      else if b = (if object then 0x7D else 0x5D) then skipNested fuel .behind stack rest
      else .error (if object then .commaOrBraceExpected else .commaOrBracketExpected)

/-- Skips one value of any shape and depth. -/
def skipValue : Reader Unit := fun bs =>
  (skipNested (2 * bs.length + 2) .before [] bs).map ((), ·)

/-! ## Scalars -/

/-- Why the value at the head, which is not of the `expected` kind, is refused: a scalar is read
first, and its own fault comes before the mismatch. -/
def refuse (expected : String) (first : UInt8) (rest : Bytes) : Failure :=
  if first = 0x22 then
    match stringBody rest with
    | .error e => e
    | .ok (s, _) => .data (.type (.text s) expected)
  else if first = 0x2D then
    match unsignedNumber true rest with
    | .error e => e
    | .ok (n, _) => .data (.type n.found expected)
  else if isDigit first then
    match unsignedNumber false (first :: rest) with
    | .error e => e
    | .ok (n, _) => .data (.type n.found expected)
  else if first = 0x5B then .data (.type .sequence expected)
  else if first = 0x7B then .data (.type .map expected)
  else
    match wordTail first with
    | some (w, found) =>
      match word w rest with
      | .error e => e
      | .ok _ => .data (.type found expected)
    | none => .valueExpected

/-- A natural number below `bound`, called `expected` in messages. -/
def natBelow (bound : Nat) (expected : String) : Reader Nat := fun bs =>
  match skipBlanks bs with
  | [] => .error .endInValue
  | b :: rest =>
    if b = 0x2D then
      match unsignedNumber true rest with
      | .error e => .error e
      | .ok (n, rest) => check n rest
    else if isDigit b then
      match unsignedNumber false (b :: rest) with
      | .error e => .error e
      | .ok (n, rest) => check n rest
    else .error (refuse expected b rest)
where
  /-- Accepts a natural number of the right size. -/
  check (n : Number) (rest : Bytes) : Except Failure (Nat × Bytes) :=
    match n with
    | .unsigned k =>
      if k < bound then .ok (k, rest) else .error (.data (.value (.unsigned k) expected))
    | .signed k => .error (.data (.value (.signed k) expected))
    | .float x => .error (.data (.type (.float x) expected))

/-- A string. -/
def string : Reader String := fun bs =>
  match skipBlanks bs with
  | [] => .error .endInValue
  | b :: rest => if b = 0x22 then stringBody rest else .error (refuse "a string" b rest)

/-- A value, or the literal for none. -/
def optional (read : Reader α) : Reader (Option α) := fun bs =>
  match skipBlanks bs with
  | b :: rest =>
    if b = 0x6E then (word [0x75, 0x6C, 0x6C] rest).map (none, ·)
    else (read (b :: rest)).map fun (a, rest) => (some a, rest)
  | [] => (read []).map fun (a, rest) => (some a, rest)

/-! ## Arrays -/

/-- Goes to the next item of an array: the bytes it begins at, or nothing before the closing
bracket, which is not taken. -/
def nextItem (first : Bool) (bs : Bytes) : Except Failure (Option Bytes) :=
  match skipBlanks bs with
  | [] => .error .endInArray
  | b :: rest =>
    if b = 0x5D then .ok none
    else if first then .ok (some (b :: rest))
    else if b = 0x2C then
      match skipBlanks rest with
      | [] => .error .endInValue
      | c :: rest' => if c = 0x5D then .error .trailingComma else .ok (some (c :: rest'))
    else .error .commaOrBracketExpected

/-- The closing bracket of an array whose items have been read. -/
def closeArray (bs : Bytes) : Except Failure Bytes :=
  match skipBlanks bs with
  | [] => .error .endInArray
  | b :: rest =>
    if b = 0x5D then .ok rest
    else if b = 0x2C then
      match skipBlanks rest with
      | c :: _ => .error (if c = 0x5D then .trailingComma else .trailingCharacters)
      | [] => .error .trailingCharacters
    else .error .trailingCharacters

/-- The items of an array. Every item takes a byte, so `fuel` may be the number of bytes. -/
def items (read : Reader α) : Nat → Bool → Reader (List α)
  | 0, _, _ => .error .endInArray
  | fuel + 1, first, bs =>
    match nextItem first bs with
    | .error e => .error e
    | .ok none => .ok ([], bs)
    | .ok (some bs) =>
      match read bs with
      | .error e => .error e
      | .ok (a, rest) =>
        match items read fuel false rest with
        | .error e => .error e
        | .ok (as, rest) => .ok (a :: as, rest)

/-- An array. -/
def list (read : Reader α) : Reader (List α) := fun bs =>
  match skipBlanks bs with
  | [] => .error .endInValue
  | b :: rest =>
    if b = 0x5B then
      match items read (rest.length + 1) true rest with
      | .error e => .error e
      | .ok (as, rest) => (closeArray rest).map (as, ·)
    else .error (refuse "a sequence" b rest)

/-! ## Records -/

/-- One field of a record that is built up in a draft. -/
structure FieldShape (δ : Type) where
  name : String
  /-- The draft already has this field. -/
  present : δ → Bool
  /-- Reads the field's value into the draft. -/
  read : δ → Reader δ
  /-- The field may be left out. -/
  hasDefault : Bool

/-- A record: its name in messages, its fields in order, the empty draft, and the record that a draft
amounts to once no required field is missing. -/
structure Shape (δ α : Type) where
  name : String
  fields : List (FieldShape δ)
  empty : δ
  complete : δ → α

namespace Shape

variable {δ α : Type}

/-- What messages say was expected. -/
def expected (s : Shape δ α) : String := "struct " ++ s.name

/-- The record, or the first required field that the draft lacks. -/
def finish (s : Shape δ α) (draft : δ) : Except Failure α :=
  match s.fields.find? fun f => !f.hasDefault && !f.present draft with
  | some f => .error (.data (.missing f.name))
  | none => .ok (s.complete draft)

/-- Goes to the next member of an object: the bytes behind the opening quote of its key, or nothing
before the closing brace, which is not taken. -/
def nextKey (first : Bool) (bs : Bytes) : Except Failure (Option Bytes) :=
  match skipBlanks bs with
  | [] => .error .endInObject
  | b :: rest =>
    if b = 0x7D then .ok none
    else if first then if b = 0x22 then .ok (some rest) else .error .keyNotString
    else if b = 0x2C then
      match skipBlanks rest with
      | [] => .error .endInValue
      | c :: rest' =>
        if c = 0x22 then .ok (some rest')
        else if c = 0x7D then .error .trailingComma
        else .error .keyNotString
    else .error .commaOrBraceExpected

/-- The colon behind a key. -/
def colon (bs : Bytes) : Except Failure Bytes :=
  match skipBlanks bs with
  | [] => .error .endInObject
  | b :: rest => if b = 0x3A then .ok rest else .error .colonExpected

/-- The value of the member with key `key`, read into the draft or skipped. -/
def member (s : Shape δ α) (key : String) (draft : δ) : Reader δ := fun bs =>
  match s.fields.find? (·.name = key) with
  | none =>
    match colon bs with
    | .error e => .error e
    | .ok bs => (skipValue bs).map fun (_, rest) => (draft, rest)
  | some f =>
    if f.present draft then .error (.data (.duplicate f.name))
    else
      match colon bs with
      | .error e => .error e
      | .ok bs => f.read draft bs

/-- The members of an object. Every member takes a byte, so `fuel` may be the number of bytes. -/
def members (s : Shape δ α) : Nat → Bool → δ → Reader δ
  | 0, _, _, _ => .error .endInObject
  | fuel + 1, first, draft, bs =>
    match nextKey first bs with
    | .error e => .error e
    | .ok none => .ok (draft, bs)
    | .ok (some bs) =>
      match stringBody bs with
      | .error e => .error e
      | .ok (key, bs) =>
        match s.member key draft bs with
        | .error e => .error e
        | .ok (draft, bs) => s.members fuel false draft bs

/-- The closing brace of an object whose members have been read. -/
def closeObject (bs : Bytes) : Except Failure Bytes :=
  match skipBlanks bs with
  | [] => .error .endInObject
  | b :: rest =>
    if b = 0x7D then .ok rest
    else if b = 0x2C then .error .trailingComma
    else .error .trailingCharacters

/-- The fields of a record as the items of an array; `index` counts the fields already passed. -/
def positional (s : Shape δ α) : List (FieldShape δ) → Nat → δ → Reader δ
  | [], _, draft, bs => .ok (draft, bs)
  | f :: fs, index, draft, bs =>
    match nextItem (index = 0) bs with
    | .error e => .error e
    | .ok none =>
      if f.hasDefault then s.positional fs (index + 1) draft bs
      else
        let words := s.expected ++ " with " ++ toString s.fields.length ++ " elements"
        .error (.data (.length index words))
    | .ok (some bs) =>
      match f.read draft bs with
      | .error e => .error e
      | .ok (draft, rest) => s.positional fs (index + 1) draft rest

/-- A record, as an object or as an array. -/
def read (s : Shape δ α) : Reader α := fun bs =>
  match skipBlanks bs with
  | [] => .error .endInValue
  | b :: rest =>
    if b = 0x5B then
      match s.positional s.fields 0 s.empty rest with
      | .error e => .error e
      | .ok (draft, rest) =>
        (closeArray rest).map fun rest => (s.complete draft, rest)
    else if b = 0x7B then
      match s.members (rest.length + 1) true s.empty rest with
      | .error e => .error e
      | .ok (draft, rest) =>
        match s.finish draft with
        | .error e => .error e
        | .ok a => (closeObject rest).map fun rest => (a, rest)
    else .error (refuse s.expected b rest)

end Shape

/-- Reads a whole text as one value. -/
def decode (read : Reader α) (bs : Bytes) : Except Failure α :=
  match read bs with
  | .error e => .error e
  | .ok (a, rest) =>
    match skipBlanks rest with
    | [] => .ok a
    | _ => .error .trailingCharacters

end StorageNode.Json
