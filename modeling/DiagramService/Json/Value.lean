import DiagramService.Json.Literal

/-!
# JSON values

The values that responses are made of, and their text: no white space, members in the given order,
and integers in decimal digits.
-/

namespace DiagramService

/-- A JSON value whose numbers are integers. -/
inductive Json where
  | null
  | bool (value : Bool)
  | int (value : Int)
  | text (value : String)
  | list (items : List Json)
  | object (members : List (String × Json))

namespace Json

mutual

/-- The text of a value. -/
def print : Json → List Char
  | .null => ['n', 'u', 'l', 'l']
  | .bool true => ['t', 'r', 'u', 'e']
  | .bool false => ['f', 'a', 'l', 's', 'e']
  | .int value => Text.ofInt value
  | .text value => literal value
  | .list items => '[' :: printItems items
  | .object members => '\x7b' :: printMembers members

/-- The items of a list and its closing bracket. -/
def printItems : List Json → List Char
  | [] => [']']
  | [item] => item.print ++ [']']
  | item :: items => item.print ++ ',' :: printItems items

/-- The members of an object and its closing bracket. -/
def printMembers : List (String × Json) → List Char
  | [] => ['\x7d']
  | [(key, value)] => literal key ++ ':' :: value.print ++ ['\x7d']
  | (key, value) :: members => literal key ++ ':' :: value.print ++ ',' :: printMembers members

end

/-- The bytes of a value. -/
def encode (value : Json) : Bytes :=
  Utf8.encodeList value.print

end Json

end DiagramService
