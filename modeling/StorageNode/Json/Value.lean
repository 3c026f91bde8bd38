/-!
# JSON values and their text

What is written as JSON is built as a `Json.Value`: numbers are natural, objects keep the order of
their members. `Value.compact` writes without blanks, `Value.pretty` one element a line, indented by
two spaces a level. Strings escape what the format requires and nothing else.
-/

namespace StorageNode.Json

/-- A value to be written. -/
inductive Value where
  | null
  | bool (b : Bool)
  | number (n : Nat)
  | string (s : String)
  | array (items : List Value)
  | object (members : List (String × Value))

/-- How one character is written in a string: the short escape if it has one, the four-digit escape
for any other control, else the character itself. -/
def escapeChar (c : Char) : List Char :=
  match c with
  | '"' => ['\\', '"']
  | '\\' => ['\\', '\\']
  | '\x08' => ['\\', 'b']
  | '\x0c' => ['\\', 'f']
  | '\n' => ['\\', 'n']
  | '\r' => ['\\', 'r']
  | '\t' => ['\\', 't']
  | c =>
    if c.toNat < 0x20 then
      ['\\', 'u', '0', '0', Nat.digitChar (c.toNat / 16), Nat.digitChar (c.toNat % 16)]
    else [c]

/-- The string between double quotes. -/
def quote (s : String) : List Char := '"' :: s.toList.flatMap escapeChar ++ ['"']

/-- The digits of a number. -/
def digits (n : Nat) : List Char := Nat.toDigits 10 n

/-! ## Without blanks -/

mutual

/-- The value on one line, without blanks. -/
def Value.compactChars : Value → List Char
  | .null => ['n', 'u', 'l', 'l']
  | .bool true => ['t', 'r', 'u', 'e']
  | .bool false => ['f', 'a', 'l', 's', 'e']
  | .number n => digits n
  | .string s => quote s
  | .array items => '[' :: compactItems true items ++ [']']
  | .object members => '\x7b' :: compactMembers true members ++ ['\x7d']

/-- The items of an array, a comma before each that is not the `first`. -/
def compactItems : Bool → List Value → List Char
  | _, [] => []
  | first, v :: vs => (if first then [] else [',']) ++ v.compactChars ++ compactItems false vs

/-- The members of an object, likewise. -/
def compactMembers : Bool → List (String × Value) → List Char
  | _, [] => []
  | first, (k, v) :: ms =>
    (if first then [] else [',']) ++ quote k ++ ':' :: v.compactChars ++ compactMembers false ms

end

/-- The compact text of a value. -/
def Value.compact (v : Value) : String := String.ofList v.compactChars

/-! ## Indented -/

/-- A line break and the indentation of a level. -/
def newline (level : Nat) : List Char := '\n' :: List.replicate (2 * level) ' '

mutual

/-- The value with its parts on lines of their own, at an indentation level. -/
def Value.prettyChars (level : Nat) : Value → List Char
  | .null => ['n', 'u', 'l', 'l']
  | .bool true => ['t', 'r', 'u', 'e']
  | .bool false => ['f', 'a', 'l', 's', 'e']
  | .number n => digits n
  | .string s => quote s
  | .array [] => ['[', ']']
  | .array (v :: vs) => '[' :: prettyItems (level + 1) true (v :: vs) ++ newline level ++ [']']
  | .object [] => ['\x7b', '\x7d']
  | .object (m :: ms) =>
    '\x7b' :: prettyMembers (level + 1) true (m :: ms) ++ newline level ++ ['\x7d']

/-- The items of an array, each on a new line, a comma before each that is not the `first`. -/
def prettyItems (level : Nat) : Bool → List Value → List Char
  | _, [] => []
  | first, v :: vs =>
    (if first then [] else [',']) ++ newline level ++ v.prettyChars level
      ++ prettyItems level false vs

/-- The members of an object, likewise, a blank behind each colon. -/
def prettyMembers (level : Nat) : Bool → List (String × Value) → List Char
  | _, [] => []
  | first, (k, v) :: ms =>
    (if first then [] else [',']) ++ newline level ++ quote k ++ ':' :: ' ' :: v.prettyChars level
      ++ prettyMembers level false ms

end

/-- The indented text of a value. -/
def Value.pretty (v : Value) : String := String.ofList (v.prettyChars 0)

/-- A value that may be absent. -/
def Value.ofOption (f : α → Value) : Option α → Value
  | none => .null
  | some a => f a

end StorageNode.Json
