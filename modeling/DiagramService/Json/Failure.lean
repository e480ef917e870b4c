import DiagramService.Text.Decimal
import DiagramService.Text.Quoted
import DiagramService.Text.Utf8

/-!
# Failed reading of JSON

A reader of JSON that fails names the cause and the bytes that it had not yet taken. The position in
the message is where those bytes begin: the line, and how many bytes of the line were taken.
-/

namespace DiagramService.Json

/-- What a reader found where it wanted something else. -/
inductive Found where
  | null
  | bool (value : Bool)
  | integer (digits : List Char)
  | float (digits : List Char)
  | text (value : String)
  | list
  | object

/-- How the message names what was found. -/
def Found.name : Found → String
  | .null => "null"
  | .bool value => "boolean `" ++ (if value then "true" else "false") ++ "`"
  | .integer digits => "integer `" ++ String.ofList digits ++ "`"
  | .float digits => "floating point `" ++ String.ofList digits ++ "`"
  | .text value => "string " ++ Text.quoted value
  | .list => "sequence"
  | .object => "map"

/-- The three kinds of failure. -/
inductive Category where
  /-- The bytes are not JSON. -/
  | grammar
  /-- The bytes are JSON for something else. -/
  | data
  /-- The bytes end too early. -/
  | ended
deriving DecidableEq, Repr

/-- Why reading failed. -/
inductive Cause where
  | endInList
  | endInObject
  | endInText
  | endInValue
  | expectedColon
  | expectedListEnd
  | expectedObjectEnd
  | expectedWord
  | expectedValue
  | invalidEscape
  | invalidNumber
  | outOfRange
  | invalidCodePoint
  | controlCharacter
  | keyNotText
  | loneSurrogate
  | trailingComma
  | trailingCharacters
  | shortHexEscape
  /-- A value of another type than the wanted one. -/
  | wrongType (found : Found) (wanted : String)
  /-- A list of another length than the wanted one. -/
  | wrongLength (length : Nat) (wanted : String)
  /-- A field that was given before. -/
  | duplicateField (name : String)
  /-- A field that was not given. -/
  | missingField (name : String)

namespace Cause

/-- The kind of a failure. -/
def category : Cause → Category
  | .endInList | .endInObject | .endInText | .endInValue => .ended
  | .wrongType .. | .wrongLength .. | .duplicateField _ | .missingField _ => .data
  | _ => .grammar

/-- What the message says before the position. -/
def text : Cause → String
  | .endInList => "EOF while parsing a list"
  | .endInObject => "EOF while parsing an object"
  | .endInText => "EOF while parsing a string"
  | .endInValue => "EOF while parsing a value"
  | .expectedColon => "expected `:`"
  | .expectedListEnd => "expected `,` or `]`"
  | .expectedObjectEnd => "expected `,` or `\x7d`"
  | .expectedWord => "expected ident"
  | .expectedValue => "expected value"
  | .invalidEscape => "invalid escape"
  | .invalidNumber => "invalid number"
  | .outOfRange => "number out of range"
  | .invalidCodePoint => "invalid unicode code point"
  | .controlCharacter => "control character (\\u0000-\\u001F) found while parsing a string"
  | .keyNotText => "key must be a string"
  | .loneSurrogate => "lone leading surrogate in hex escape"
  | .trailingComma => "trailing comma"
  | .trailingCharacters => "trailing characters"
  | .shortHexEscape => "unexpected end of hex escape"
  | .wrongType found wanted => "invalid type: " ++ found.name ++ ", expected " ++ wanted
  | .wrongLength length wanted =>
    "invalid length " ++ Text.natText length ++ ", expected " ++ wanted
  | .duplicateField name => "duplicate field `" ++ name ++ "`"
  | .missingField name => "missing field `" ++ name ++ "`"

end Cause

/-- A place in a text. -/
structure Position where
  line : Nat
  column : Nat
deriving DecidableEq, Repr

/-- The place after the given bytes. -/
def Position.after (done : Bytes) : Position where
  line := done.count 0x0A + 1
  column := (done.reverse.takeWhile (· != 0x0A)).length

/-- Why and where reading failed. -/
structure Failure where
  cause : Cause
  /-- The bytes that were not taken. -/
  rest : Bytes
  /-- The member or element in whose value it failed. -/
  inside : Option String := none

namespace Failure

/-- A failure at the next byte, which counts as taken if there is one. -/
def here (cause : Cause) (rest : Bytes) : Failure :=
  ⟨cause, rest.tail, none⟩

/-- A failure after the bytes taken so far. -/
def after (cause : Cause) (rest : Bytes) : Failure :=
  ⟨cause, rest, none⟩

/-- The place where reading the input failed. -/
def position (failure : Failure) (input : Bytes) : Position :=
  .after (input.take (input.length - failure.rest.length))

/-- The message about an input that could not be read. -/
def message (failure : Failure) (input : Bytes) : String :=
  let place := failure.position input
  failure.cause.text ++ " at line " ++ Text.natText place.line ++
    " column " ++ Text.natText place.column

/-- The message with the place inside the value named first. -/
def messageInside (failure : Failure) (input : Bytes) : String :=
  match failure.inside with
  | some name => name ++ ": " ++ failure.message input
  | none => failure.message input

end Failure

end DiagramService.Json
