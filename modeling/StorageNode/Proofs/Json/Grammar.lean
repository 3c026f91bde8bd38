import Mathlib.Data.List.Forall2
import StorageNode.Text.Utf8

/-!
# The texts of JSON

What counts as JSON, said without the reader: blanks, strings with their escapes, numbers, and values
of any shape (`Json.ValueText`). Data is not tied to one text. A string is spelled in many ways
(`Json.Spelled`), lists and members have blanks around their commas (`Json.Items`), and a record is an
object with its members in any order and with members of other names among them, or the array of its
fields (`Json.RecordText`). What a record holds is told by its `Json.Part`s: the name of each field,
the texts of its value, and whether it may be left out.

A text is given without the blanks around it; these belong to what encloses it.
-/

namespace StorageNode.Json

/-- The texts that stand for a value. -/
abbrev Form (α : Type) := α → Bytes → Prop

/-! ## Blanks -/

/-- Space, tab, line feed or carriage return. -/
def BlankByte (b : UInt8) : Prop := b = 0x20 ∨ b = 0x09 ∨ b = 0x0A ∨ b = 0x0D

/-- Blanks, or nothing. -/
def Blank (bs : Bytes) : Prop := ∀ b ∈ bs, BlankByte b

/-- What may stand behind a value: nothing, or a blank, a comma or a closing bracket. -/
def Delimited (rest : Bytes) : Prop :=
  ∀ b, rest.head? = some b → BlankByte b ∨ b = 0x2C ∨ b = 0x5D ∨ b = 0x7D

/-! ## Strings -/

/-- A hexadecimal digit, its letters in either case. -/
inductive HexDigit : UInt8 → Nat → Prop
  | decimal {n : Nat} (h : n < 10) : HexDigit (UInt8.ofNat (0x30 + n)) n
  | upper {n : Nat} (h : n < 6) : HexDigit (UInt8.ofNat (0x41 + n)) (10 + n)
  | lower {n : Nat} (h : n < 6) : HexDigit (UInt8.ofNat (0x61 + n)) (10 + n)

/-- Four hexadecimal digits. -/
inductive HexQuad : Nat → Bytes → Prop
  | mk {a b c d : UInt8} {w x y z : Nat} (ha : HexDigit a w) (hb : HexDigit b x)
      (hc : HexDigit c y) (hd : HexDigit d z) :
      HexQuad (((w * 16 + x) * 16 + y) * 16 + z) [a, b, c, d]

/-- The letters of the short escapes, and what they stand for. -/
def shortEscapes : List (UInt8 × Char) :=
  [(0x22, '"'), (0x5C, '\\'), (0x2F, '/'), (0x62, '\x08'), (0x66, '\x0c'), (0x6E, '\n'),
    (0x72, '\r'), (0x74, '\t')]

/-- **The spellings of a character in a string**: itself, a short escape, the four digits of its
number, or those of a surrogate pair. -/
inductive SpelledChar : Form Char
  | plain {c : Char} (hquote : c ≠ '"') (hslash : c ≠ '\\') (hcontrol : 0x20 ≤ c.toNat) :
      SpelledChar c (String.utf8EncodeChar c)
  | short {c : Char} {b : UInt8} (h : (b, c) ∈ shortEscapes) : SpelledChar c [0x5C, b]
  | digits {c : Char} {q : Bytes} (h : HexQuad c.toNat q) : SpelledChar c (0x5C :: 0x75 :: q)
  | pair {c : Char} {high low : Nat} {p q : Bytes} (hp : HexQuad high p) (hq : HexQuad low q)
      (hhigh : 0xD800 ≤ high ∧ high ≤ 0xDBFF) (hlow : 0xDC00 ≤ low ∧ low ≤ 0xDFFF)
      (hc : c.toNat = (high - 0xD800) * 1024 + (low - 0xDC00) + 0x10000) :
      SpelledChar c (0x5C :: 0x75 :: (p ++ 0x5C :: 0x75 :: q))

/-- The spellings of characters one after another. -/
inductive SpelledChars : Form (List Char)
  | nil : SpelledChars [] []
  | cons {c : Char} {cs : List Char} {p bs : Bytes} (h : SpelledChar c p)
      (hrest : SpelledChars cs bs) : SpelledChars (c :: cs) (p ++ bs)

/-- A text between quotes. -/
def quoted (body : Bytes) : Bytes := 0x22 :: (body ++ [0x22])

/-- **The spellings of a text.** -/
def Spelled : Form String := fun s bs => ∃ body, SpelledChars s.toList body ∧ bs = quoted body

/-- What may stand between quotes, whether or not it spells a text: half of a surrogate pair does
not. -/
inductive StringBody : Bytes → Prop
  | nil : StringBody []
  | plain {b : UInt8} {bs : Bytes} (hquote : b ≠ 0x22) (hslash : b ≠ 0x5C)
      (hcontrol : 0x20 ≤ b.toNat) (h : StringBody bs) : StringBody (b :: bs)
  | short {b : UInt8} {c : Char} {bs : Bytes} (hb : (b, c) ∈ shortEscapes) (h : StringBody bs) :
      StringBody (0x5C :: b :: bs)
  | digits {n : Nat} {q bs : Bytes} (hq : HexQuad n q) (h : StringBody bs) :
      StringBody (0x5C :: 0x75 :: (q ++ bs))

/-! ## Numbers -/

/-- A decimal digit. -/
def DigitByte (b : UInt8) : Prop := 0x30 ≤ b.toNat ∧ b.toNat ≤ 0x39

/-- Decimal digits, at least one. -/
structure Digits (bs : Bytes) : Prop where
  ne_nil : bs ≠ []
  all : ∀ b ∈ bs, DigitByte b

/-- The part of a number in front of its point: zero, or digits that do not begin with a zero. -/
structure WholePart (bs : Bytes) : Prop where
  digits : Digits bs
  head : bs = [0x30] ∨ bs.head? ≠ some 0x30

/-- The point and the digits behind it, or nothing. -/
inductive Fraction : Bytes → Prop
  | none : Fraction []
  | some {ds : Bytes} (h : Digits ds) : Fraction (0x2E :: ds)

/-- The exponent with its letter and an optional sign, or nothing. -/
inductive Exponent : Bytes → Prop
  | none : Exponent []
  | some {e : UInt8} {sign ds : Bytes} (he : e = 0x65 ∨ e = 0x45)
      (hsign : sign = [] ∨ sign = [0x2B] ∨ sign = [0x2D]) (h : Digits ds) :
      Exponent (e :: (sign ++ ds))

/-- A number without its sign. -/
inductive Magnitude : Bytes → Prop
  | mk {whole fraction exponent : Bytes} (hwhole : WholePart whole) (hfraction : Fraction fraction)
      (hexponent : Exponent exponent) : Magnitude (whole ++ (fraction ++ exponent))

/-- The digits of a natural number. -/
def decimal (n : Nat) : Bytes := (Nat.toDigits 10 n).map fun c => UInt8.ofNat c.toNat

/-! ## Arrays and objects -/

/-- What stands in front of an item: blanks, and a comma unless the item is the first. -/
inductive Lead : Bool → Bytes → Prop
  | first {w : Bytes} (h : Blank w) : Lead true w
  | later {w w' : Bytes} (h : Blank w) (h' : Blank w') : Lead false (w ++ 0x2C :: w')

/-- **Items, and the blanks and commas around them**; the flag tells whether the next one is the
first. -/
inductive Items : Bool → List Bytes → Bytes → Prop
  | done {first : Bool} {w : Bytes} (h : Blank w) : Items first [] w
  | item {first : Bool} {lead v bs : Bytes} {vs : List Bytes} (hlead : Lead first lead)
      (hrest : Items false vs bs) : Items first (v :: vs) (lead ++ (v ++ bs))

/-- A name and a value, with a colon in between. -/
inductive MemberText (name value : Bytes) : Bytes → Prop
  | mk {w w' : Bytes} (h : Blank w) (h' : Blank w') :
      MemberText name value (name ++ (w ++ 0x3A :: (w' ++ value)))

/-- The literal for none. -/
def nullText : Bytes := [0x6E, 0x75, 0x6C, 0x6C]

/-- The literals: none, true and false. -/
def literals : List Bytes :=
  [nullText, [0x74, 0x72, 0x75, 0x65], [0x66, 0x61, 0x6C, 0x73, 0x65]]

/-- **The texts of values**, of any shape and depth. -/
inductive ValueText : Bytes → Prop
  | literal {bs : Bytes} (h : bs ∈ literals) : ValueText bs
  | string {body : Bytes} (h : StringBody body) : ValueText (quoted body)
  | number {bs : Bytes} (h : Magnitude bs) : ValueText bs
  | negative {bs : Bytes} (h : Magnitude bs) : ValueText (0x2D :: bs)
  | array {vs : List Bytes} {body : Bytes} (h : ∀ v ∈ vs, ValueText v)
      (hbody : Items true vs body) : ValueText (0x5B :: (body ++ [0x5D]))
  | object {ms : List (Bytes × Bytes)} {texts : List Bytes} {body : Bytes}
      (hname : ∀ m ∈ ms, StringBody m.1) (h : ∀ m ∈ ms, ValueText m.2)
      (htexts : List.Forall₂ (fun m t => MemberText (quoted m.1) m.2 t) ms texts)
      (hbody : Items true texts body) : ValueText (0x7B :: (body ++ [0x7D]))

/-! ## Data -/

/-- A value, or the literal for none. -/
def optionText {α : Type} (form : Form α) : Form (Option α)
  | some a, bs => form a bs
  | none, bs => bs = nullText

/-- A list as an array. -/
def listText {α : Type} (form : Form α) : Form (List α) := fun as bs =>
  ∃ vs body, List.Forall₂ form as vs ∧ Items true vs body ∧ bs = 0x5B :: (body ++ [0x5D])

/-- A field of a record that holds a known value. -/
structure Part where
  name : String
  /-- The texts of the value. -/
  text : Bytes → Prop
  /-- The value is the one that a missing field stands for. -/
  mayOmit : Prop

/-- **The members of an object that holds some parts of a record**: each part that may not be left out,
and no part twice, with members of names that the record does not know among them. -/
inductive Members (known : List String) : List Part → List Bytes → Prop
  | done {parts : List Part} (h : ∀ p ∈ parts, p.mayOmit) : Members known parts []
  | part {parts rest : List Part} {p : Part} {name value m : Bytes} {ms : List Bytes}
      (hp : parts.Perm (p :: rest)) (hname : Spelled p.name name) (hvalue : p.text value)
      (hm : MemberText name value m) (hrest : Members known rest ms) :
      Members known parts (m :: ms)
  | unknown {parts : List Part} {n : String} {name value m : Bytes} {ms : List Bytes}
      (hn : n ∉ known) (hname : Spelled n name) (hvalue : ValueText value)
      (hm : MemberText name value m) (hrest : Members known parts ms) :
      Members known parts (m :: ms)

/-- **The texts of a record**: an object, or the array of its fields, of which the last ones are left
out if they may be. -/
inductive RecordText (parts : List Part) : Bytes → Prop
  | object {ms : List Bytes} {body : Bytes} (h : Members (parts.map (·.name)) parts ms)
      (hbody : Items true ms body) : RecordText parts (0x7B :: (body ++ [0x7D]))
  | array {written omitted : List Part} {vs : List Bytes} {body : Bytes}
      (hparts : parts = written ++ omitted) (homitted : ∀ p ∈ omitted, p.mayOmit)
      (hvs : List.Forall₂ (·.text ·) written vs) (hbody : Items true vs body) :
      RecordText parts (0x5B :: (body ++ [0x5D]))

end StorageNode.Json
