import StorageNode.Text.Unmarked

/-!
# Quoted text

Messages show paths and keys between double quotes, so that every character can be told apart:
quotes and backslashes are escaped, the common controls have short names, and any other character
without a mark of its own (`Text.isUnmarked`) is written by its code point in braces.
-/

namespace StorageNode.Text

/-- The digits of a code point in base sixteen, lower case. -/
def hexDigits (n : Nat) : List Char := Nat.toDigits 16 n

/-- How one character is written between quotes. -/
def escapeChar (c : Char) : List Char :=
  match c with
  | '"' => ['\\', '"']
  | '\\' => ['\\', '\\']
  | '\n' => ['\\', 'n']
  | '\r' => ['\\', 'r']
  | '\t' => ['\\', 't']
  | '\x00' => ['\\', '0']
  | c => if isUnmarked c then ['\\', 'u', '\x7b'] ++ hexDigits c.toNat ++ ['\x7d'] else [c]

/-- The text between double quotes, every character of it visible. -/
def quoted (s : String) : String :=
  String.ofList ('"' :: s.toList.flatMap escapeChar ++ ['"'])

end StorageNode.Text
