import StorageNode.Mismatch

/-!
# Why a JSON text cannot be read

A text may end too early, break the grammar, or hold data of the wrong shape; `Failure.category`
tells these apart, and `Failure.message` words each cause.
-/

namespace StorageNode.Json

/-- The cause that stopped the reading of a text. -/
inductive Failure where
  /-- The text ends inside an array. -/
  | endInArray
  /-- The text ends inside an object. -/
  | endInObject
  /-- The text ends inside a string. -/
  | endInString
  /-- The text ends where a value should begin or go on. -/
  | endInValue
  | colonExpected
  | commaOrBracketExpected
  | commaOrBraceExpected
  /-- A word that is none of the three literals. -/
  | wordExpected
  | valueExpected
  | badEscape
  | badNumber
  | numberTooLarge
  | badUtf8
  | controlInString
  | keyNotString
  /-- Half of a surrogate pair. -/
  | loneSurrogate
  /-- The first half of a surrogate pair that no escape follows. -/
  | unfinishedPair
  | trailingComma
  | trailingCharacters
  /-- A well-formed value of the wrong shape. -/
  | data (m : Mismatch)
deriving DecidableEq, Repr

/-- The three kinds of failure. -/
inductive Category where
  | syntaxError
  | endOfText
  | data
deriving DecidableEq, Repr

namespace Failure

/-- The kind of a failure. -/
def category : Failure → Category
  | .endInArray | .endInObject | .endInString | .endInValue => .endOfText
  | .data _ => .data
  | _ => .syntaxError

/-- The wordings of this format: the empty value is called by its literal, and the exponent of a
double carries its sign and has two digits at least. -/
def wording : Mismatch.Wording :=
  ⟨"null", ⟨some (-5, 15), true, 2, true, "inf", "NaN"⟩⟩

/-- The text of a failure. -/
def message : Failure → String
  | .endInArray => "EOF while parsing a list"
  | .endInObject => "EOF while parsing an object"
  | .endInString => "EOF while parsing a string"
  | .endInValue => "EOF while parsing a value"
  | .colonExpected => "expected `:`"
  | .commaOrBracketExpected => "expected `,` or `]`"
  | .commaOrBraceExpected => "expected `,` or `\x7d`"
  | .wordExpected => "expected ident"
  | .valueExpected => "expected value"
  | .badEscape => "invalid escape"
  | .badNumber => "invalid number"
  | .numberTooLarge => "number out of range"
  | .badUtf8 => "invalid unicode code point"
  | .controlInString => "control character (\\u0000-\\u001F) found while parsing a string"
  | .keyNotString => "key must be a string"
  | .loneSurrogate => "lone leading surrogate in hex escape"
  | .unfinishedPair => "unexpected end of hex escape"
  | .trailingComma => "trailing comma"
  | .trailingCharacters => "trailing characters"
  | .data m => m.message wording

end Failure

end StorageNode.Json
