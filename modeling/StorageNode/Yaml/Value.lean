import StorageNode.Yaml.Node
import StorageNode.Mismatch

/-!
# YAML values and what scalars stand for

`Value` is the data of a document without its spelling. A scalar's text is resolved by fixed rules:
some words are null or booleans, others are integers in one of four bases or decimals, all the rest
are strings (`Plain.ofText`). Values are compared as data (`Value.same`): the order of a mapping does
not count, a NaN equals itself, and zeros of different signs are equal.
-/

namespace StorageNode.Yaml

/-! ## Numbers -/

/-- An integer that fits into 64 bits, with a sign or without. -/
structure Integer where
  value : Int
  lower : -9223372036854775808 ≤ value
  upper : value < 18446744073709551616
deriving DecidableEq

instance : Inhabited Integer := ⟨⟨0, by decide, by decide⟩⟩

/-- The integer of a value, if it fits. -/
def Integer.ofInt? (n : Int) : Option Integer :=
  if h : -9223372036854775808 ≤ n ∧ n < 18446744073709551616 then some ⟨n, h.1, h.2⟩ else none

/-- The integer of a word. -/
def Integer.ofWord (n : UInt64) : Integer :=
  ⟨n.toNat, by omega, by have := n.toNat_lt; omega⟩

/-! ## Values -/

/-- A value. A tag is kept without its exclamation mark. -/
inductive Value where
  | null
  | bool (b : Bool)
  | integer (n : Integer)
  | float (x : Binary64)
  | string (s : String)
  | sequence (items : List Value)
  | mapping (entries : List (Value × Value))
  | tagged (tag : String) (value : Value)
deriving Inhabited

mutual

/-- The values are the same data. -/
def Value.same : Value → Value → Bool
  | .null, .null => true
  | .bool a, .bool b => a == b
  | .integer a, .integer b => a.value == b.value
  | .float a, .float b => a.sameNumber b
  | .string a, .string b => a == b
  | .sequence as, .sequence bs => sameItems as bs
  | .mapping as, .mapping bs => as.length == bs.length && sameEntries as bs
  | .tagged s a, .tagged t b => s == t && a.same b
  | _, _ => false

/-- The lists hold the same data in the same order. -/
def sameItems : List Value → List Value → Bool
  | [], [] => true
  | a :: as, b :: bs => a.same b && sameItems as bs
  | _, _ => false

/-- Every entry of the first list is in the second. -/
def sameEntries : List (Value × Value) → List (Value × Value) → Bool
  | [], _ => true
  | (k, v) :: as, bs => bs.any (fun e => k.same e.1 && v.same e.2) && sameEntries as bs

end

/-- The value that a tag is put on, however many tags there are. -/
def Value.untagged : Value → Value
  | .tagged _ v => v.untagged
  | v => v

/-- A value as something found; tags on it do not count. -/
def Value.found (v : Value) : Found :=
  match v.untagged with
  | .null => .unit
  | .bool b => .bool b
  | .integer n => if 0 ≤ n.value then .unsigned n.value.toNat else .signed n.value
  | .float x => .float x
  | .string s => .text s
  | .sequence _ => .sequence
  | .mapping _ => .map
  | .tagged .. => .tagged

/-- Puts an entry into a mapping: in the place of one with the same key, else behind the others. -/
def putEntry (k v : Value) : List (Value × Value) → List (Value × Value)
  | [] => [(k, v)]
  | e :: es => if e.1.same k then (e.1, v) :: es else e :: putEntry k v es

/-- Doubles are written positionally from `1e-5` up to sixteen digits before the point, and with an
exponent beyond. -/
def floatFormat : Binary64.Format := ⟨some (-5, 15), false, 1, true, ".inf", ".nan"⟩

/-! ## Plain text -/

/-- What a plain text stands for. -/
inductive Plain where
  | null
  | bool (b : Bool)
  | integer (n : Integer)
  /-- An integer of more than 64 bits but at most 128, without a sign or with one. -/
  | wideUnsigned (n : Nat)
  | wideSigned (n : Int)
  | float (x : Binary64)
  | string
deriving DecidableEq

/-- The words for null. -/
def isNullWord (s : String) : Bool := s ∈ ["null", "Null", "NULL", "~"]

/-- The words for the two booleans. -/
def boolWord? (s : String) : Option Bool :=
  if s ∈ ["true", "True", "TRUE"] then some true
  else if s ∈ ["false", "False", "FALSE"] then some false
  else none

/-- The value of a digit in a base. -/
def digit? (base : Nat) (c : Char) : Option Nat := (hexValue? c).filter (· < base)

/-- The number that digits of a base stand for; at least one is needed. -/
def ofDigits? (base : Nat) (cs : List Char) : Option Nat :=
  if cs = [] then none
  else cs.foldl (fun n c => n.bind fun n => (digit? base c).map (n * base + ·)) (some 0)

/-- The text without a leading sign. -/
def dropSign : List Char → List Char
  | '+' :: cs => cs
  | '-' :: cs => cs
  | cs => cs

/-- Digits that begin with a zero and are more than one, perhaps behind a sign: a string, and no
number. -/
def hasLeadingZero (cs : List Char) : Bool :=
  match dropSign cs with
  | '0' :: d :: ds => (d :: ds).all Char.isDigit
  | _ => false

/-- The base that a two-letter mark announces. -/
def base? (c : Char) : Option Nat :=
  if c = 'x' then some 16 else if c = 'o' then some 8 else if c = 'b' then some 2 else none

/-- The digits behind the mark of a base, or decimal digits. -/
def magnitude? (cs : List Char) : Option Nat :=
  match cs with
  | '0' :: m :: ds =>
    match base? m with
    | some b => ofDigits? b ds
    | none => if hasLeadingZero cs then none else ofDigits? 10 cs
  | _ => ofDigits? 10 cs

/-- The integer that a text stands for: a sign, perhaps the mark of a base, and digits. The flag
tells whether a minus sign stands in front. -/
def signedMagnitude? (cs : List Char) : Option (Bool × Nat) :=
  match cs with
  | '-' :: ds => (magnitude? ds).map (true, ·)
  | '+' :: ds => (magnitude? ds).map (false, ·)
  | ds => (magnitude? ds).map (false, ·)

/-- The integer that a text stands for. -/
def integerOf? (cs : List Char) : Option Plain :=
  match signedMagnitude? cs with
  | none => none
  | some (negative, n) =>
    let value : Int := if negative then -n else n
    match Integer.ofInt? value with
    | some i => some (.integer i)
    | none =>
      if !negative && n < Nat.pow 2 128 then some (.wideUnsigned n)
      else if negative && n ≤ Nat.pow 2 127 then some (.wideSigned value)
      else none

/-- A decimal: digits with a point among, before or behind them, and perhaps an exponent. -/
def decimal? (negative : Bool) (cs : List Char) : Option Binary64 :=
  let whole := cs.takeWhile Char.isDigit
  let (fraction, rest) := match cs.dropWhile Char.isDigit with
    | '.' :: cs => (cs.takeWhile Char.isDigit, cs.dropWhile Char.isDigit)
    | cs => ([], cs)
  if whole ++ fraction = [] then none
  else
    let number (e : Int) : Option Binary64 :=
      some (Binary64.ofDecimal negative (Nat.ofDigitChars 10 (whole ++ fraction) 0)
        (e - fraction.length))
    match rest with
    | [] => number 0
    | c :: cs =>
      if c = 'e' || c = 'E' then
        let ds := dropSign cs
        if ds = [] || !ds.all Char.isDigit then none
        else
          let e : Int := Nat.ofDigitChars 10 ds 0
          number (if cs.head? = some '-' then -e else e)
      else none

/-- The double that a text stands for; a decimal beyond the range of doubles is none. -/
def float? (s : String) : Option Binary64 :=
  if s ∈ [".inf", ".Inf", ".INF", "+.inf", "+.Inf", "+.INF"] then some (Binary64.infinity false)
  else if s ∈ ["-.inf", "-.Inf", "-.INF"] then some (Binary64.infinity true)
  else if s ∈ [".nan", ".NaN", ".NAN"] then some Binary64.nan
  else
    let cs := s.toList
    let x? := match cs with
      | '-' :: cs => decimal? true cs
      | '+' :: cs => decimal? false cs
      | cs => decimal? false cs
    x?.filter (·.isFinite)

/-- What a plain text stands for. -/
def Plain.ofText (s : String) : Plain :=
  if s = "" || isNullWord s then .null
  else
    match boolWord? s with
    | some b => .bool b
    | none =>
      match integerOf? s.toList with
      | some p => p
      | none =>
        if hasLeadingZero s.toList then .string
        else
          match float? s with
          | some x => .float x
          | none => .string

/-- A plain text as something found. -/
def Plain.found (s : String) : Plain → Found
  | .null => .unit
  | .bool b => .bool b
  | .integer n => if 0 ≤ n.value then .unsigned n.value.toNat else .signed n.value
  | .wideUnsigned n => .other ("integer `" ++ toString n ++ "` as u128")
  | .wideSigned n => .other ("integer `" ++ toString n ++ "` as i128")
  | .float x => .float x
  | .string => .text s

/-! ## Scalars with tags -/

/-- The tags of the core types. -/
def coreTag (name : String) : String := "tag:yaml.org,2002:" ++ name

/-- What a scalar stands for, given its tag and style. A core tag decides the type and may be refused
by the text; a local tag changes nothing; any other makes the scalar a string. -/
def Plain.ofScalar (tag : Option String) (style : Style) (s : String) : Except Mismatch Plain :=
  match tag with
  | none => .ok (if style = .plain then .ofText s else .string)
  | some t =>
    if t = coreTag "bool" then
      match boolWord? s with
      | some b => .ok (.bool b)
      | none => .error (.value (.text s) "a boolean")
    else if t = coreTag "int" then
      match integerOf? s.toList with
      | some p => .ok p
      | none => .error (.value (.text s) "an integer")
    else if t = coreTag "float" then
      match float? s with
      | some x => .ok (.float x)
      | none => .error (.value (.text s) "a float")
    else if t = coreTag "null" then
      if isNullWord s then .ok .null else .error (.value (.text s) "null")
    else if t.startsWith "!" && style = .plain then .ok (.ofText s)
    else .ok .string

/-- The name of a local tag: what is behind its exclamation mark, if anything is. -/
def localTag? (tag : Option String) : Option String :=
  match tag with
  | none => none
  | some t =>
    match t.toList with
    | '!' :: [] => some "!"
    | '!' :: cs => some (String.ofList cs)
    | _ => none

end StorageNode.Yaml
