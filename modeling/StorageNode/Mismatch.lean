import StorageNode.Binary64
import StorageNode.Text.Quoted

/-!
# Mismatches between data and the shape it should have

A document may be well formed and still not hold what is read from it: a text where a number is
expected, a missing field, a field given twice. `Mismatch` names the causes, `Found` what stood in
the place of the expected data. Both document formats share them; they differ in two wordings only,
which `Mismatch.Wording` holds.
-/

namespace StorageNode

/-- What was found where something else was expected. -/
inductive Found where
  | unit
  | bool (b : Bool)
  | unsigned (n : Nat)
  | signed (n : Int)
  | float (x : Binary64)
  | text (s : String)
  | sequence
  | map
  | tagged
  /-- Anything else, in words. -/
  | other (words : String)
deriving DecidableEq, Repr

/-- Why data does not have the shape that is read from it. -/
inductive Mismatch where
  /-- Data of another kind. -/
  | type (found : Found) (expected : String)
  /-- Data of the right kind, but of a value that is not allowed. -/
  | value (found : Found) (expected : String)
  /-- A sequence of the wrong length. -/
  | length (found : Nat) (expected : String)
  /-- A word that is none of the allowed ones. -/
  | variant (found : String) (allowed : List String)
  | missing (field : String)
  | duplicate (field : String)
  /-- A key that occurs twice in a map, in words. -/
  | duplicateKey (words : String)
  /-- A tagged value where only untagged data can be kept. -/
  | tagged
  /-- A scalar where a tag is expected. -/
  | untagged (found : Found)
deriving DecidableEq, Repr

namespace Mismatch

/-- The wordings in which document formats differ: that of an empty value, and the digits of a
double. -/
structure Wording where
  unit : String
  float : Binary64.Format

end Mismatch

/-- What was found, in words. -/
def Found.words (w : Mismatch.Wording) : Found → String
  | .unit => w.unit
  | .bool b => "boolean `" ++ (if b then "true" else "false") ++ "`"
  | .unsigned n => "integer `" ++ toString n ++ "`"
  | .signed n => "integer `" ++ toString n ++ "`"
  | .float x => "floating point `" ++ w.float.render x ++ "`"
  | .text s => "string " ++ Text.quoted s
  | .sequence => "sequence"
  | .map => "map"
  | .tagged => "enum"
  | .other words => words

namespace Mismatch

/-- The allowed words, each between backquotes, as an enumeration. -/
def oneOf (allowed : List String) : String :=
  "one of " ++ String.intercalate ", " (allowed.map fun v => "`" ++ v ++ "`")

/-- The text of a mismatch. -/
def message (w : Wording) : Mismatch → String
  | .type f e => "invalid type: " ++ f.words w ++ ", expected " ++ e
  | .value f e => "invalid value: " ++ f.words w ++ ", expected " ++ e
  | .length n e => "invalid length " ++ toString n ++ ", expected " ++ e
  | .variant v vs => "unknown variant `" ++ v ++ "`, expected " ++ oneOf vs
  | .missing f => "missing field `" ++ f ++ "`"
  | .duplicate f => "duplicate field `" ++ f ++ "`"
  | .duplicateKey words => "duplicate entry " ++ words
  | .tagged => "untagged and internally tagged enums do not support enum input"
  | .untagged f => "invalid type: " ++ f.words w ++ ", expected a YAML tag starting with '!'"

end Mismatch

end StorageNode
