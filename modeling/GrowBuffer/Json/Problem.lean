/-! # What can be wrong with a JSON text

One constructor per fault of form. The reader stops at the first fault from the left, so
a text has one problem at most.
-/

namespace GrowBuffer.Json

inductive Problem where
  | endInValue
  | endInList
  | endInObject
  | endInText
  | valueDue
  | unknownWord
  | colonDue
  | listCommaDue
  | objectCommaDue
  | trailingComma
  | trailingCharacters
  | keyDue
  | badNumber
  | numberTooLarge
  | badEscape
  | controlCharacter
  | loneSurrogate
  | brokenPair
  deriving DecidableEq, Repr

def Problem.message : Problem → String
  | endInValue => "EOF while parsing a value"
  | endInList => "EOF while parsing a list"
  | endInObject => "EOF while parsing an object"
  | endInText => "EOF while parsing a string"
  | valueDue => "expected value"
  | unknownWord => "expected ident"
  | colonDue => "expected `:`"
  | listCommaDue => "expected `,` or `]`"
  | objectCommaDue => "expected `,` or `\x7d`"
  | trailingComma => "trailing comma"
  | trailingCharacters => "trailing characters"
  | keyDue => "key must be a string"
  | badNumber => "invalid number"
  | numberTooLarge => "number out of range"
  | badEscape => "invalid escape"
  | controlCharacter => "control character (\\u0000-\\u001F) found while parsing a string"
  | loneSurrogate => "lone leading surrogate in hex escape"
  | brokenPair => "unexpected end of hex escape"

end GrowBuffer.Json
