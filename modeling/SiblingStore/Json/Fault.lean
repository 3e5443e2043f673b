import SiblingStore.Decimal.Shortest
import SiblingStore.Text.Hex
import SiblingStore.Text.Quoted

/-!
# Why a JSON text is refused

A fault is a cause and a place. The place is kept as the number of bytes that
lie beyond it, which a reader knows without counting what it has passed; line
and column follow once the whole text is at hand.
-/

namespace SiblingStore.Json

/-- What stood where something else was wanted. -/
inductive Found where
  | null
  | boolean (b : Bool)
  | integer (n : Int)
  | float (x : Float)
  | text (s : String)
  | list
  | object

inductive Cause where
  | listUnfinished
  | objectUnfinished
  | stringUnfinished
  | valueUnfinished
  | expectedColon
  | expectedCommaOrBracket
  | expectedCommaOrBrace
  | badWord
  | expectedValue
  | badEscape
  | badNumber
  | numberOutOfRange
  | badCodePoint
  | controlCharacter
  | keyNotText
  | loneSurrogate
  | trailingComma
  | trailingCharacters
  | escapeUnfinished
  | invalidType (found : Found) (expected : String)
  | invalidValue (found : Found) (expected : String)
  | invalidLength (count : Nat) (expected : String)
  | missingField (name : String)
  | duplicateField (name : String)

structure Fault where
  cause : Cause
  /-- How many bytes lie beyond the place. -/
  beyond : Nat

def Found.describe : Found → String
  | .null => "null"
  | .boolean b => s!"boolean `{b}`"
  | .integer n => s!"integer `{n}`"
  | .float x => "floating point `" ++ Decimal.pointed x ++ "`"
  | .text s => "string " ++ Text.Quoted.text s
  | .list => "sequence"
  | .object => "map"

def Cause.message : Cause → String
  | .listUnfinished => "EOF while parsing a list"
  | .objectUnfinished => "EOF while parsing an object"
  | .stringUnfinished => "EOF while parsing a string"
  | .valueUnfinished => "EOF while parsing a value"
  | .expectedColon => "expected `:`"
  | .expectedCommaOrBracket => "expected `,` or `]`"
  | .expectedCommaOrBrace => "expected `,` or `\x7d`"
  | .badWord => "expected ident"
  | .expectedValue => "expected value"
  | .badEscape => "invalid escape"
  | .badNumber => "invalid number"
  | .numberOutOfRange => "number out of range"
  | .badCodePoint => "invalid unicode code point"
  | .controlCharacter => "control character (\\u0000-\\u001F) found while parsing a string"
  | .keyNotText => "key must be a string"
  | .loneSurrogate => "lone leading surrogate in hex escape"
  | .trailingComma => "trailing comma"
  | .trailingCharacters => "trailing characters"
  | .escapeUnfinished => "unexpected end of hex escape"
  | .invalidType found expected => "invalid type: " ++ found.describe ++ ", expected " ++ expected
  | .invalidValue found expected => "invalid value: " ++ found.describe ++ ", expected " ++ expected
  | .invalidLength count expected => s!"invalid length {count}, expected " ++ expected
  | .missingField name => s!"missing field `{name}`"
  | .duplicateField name => s!"duplicate field `{name}`"

def Fault.passed (f : Fault) (input : Bytes) : Bytes := input.take (input.length - f.beyond)

/-- Lines count from one, columns from the last line break. -/
def Fault.message (f : Fault) (input : Bytes) : String :=
  let passed := f.passed input
  let line := 1 + passed.count 10
  let column := (passed.reverse.takeWhile (· ≠ 10)).length
  f.cause.message ++ s!" at line {line} column {column}"

end SiblingStore.Json
