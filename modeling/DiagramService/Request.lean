import DiagramService.Error.Render
import DiagramService.Json.Skip
import DiagramService.Text.Blank

/-!
# Diagram requests

A request names one text. Its body is a JSON object with exactly one member `uml` or `diagramText`,
among any others, or a list of just the text. The text that counts is the one without the white
space at its ends, and there must be something left of it.
-/

namespace DiagramService

open Json

/-- A request to render or save a diagram. -/
structure DiagramRequest where
  /-- The text as it was sent. -/
  uml : String
deriving DecidableEq, Repr

namespace DiagramRequest

/-- The text of the diagram. -/
def text (request : DiagramRequest) : Except ApiError String :=
  if (Text.trimList request.uml.toList).isEmpty then .error .emptyInput
  else .ok (Text.trim request.uml)

/-- What the message calls a request. -/
def typeName : String := "struct DiagramRequest"

/-- What the message calls a text. -/
def textName : String := "a string"

/-- Whether a key names the text. -/
def isTextKey (key : String) : Bool :=
  key == "uml" || key == "diagramText"

/-- The failure that a value of the wrong type causes. -/
def mismatch (wanted : String) (r : Except Failure (Found × Bytes)) : Failure :=
  match r with
  | .error failure => failure
  | .ok (found, rest) => .after (.wrongType found wanted) rest

/-- The failure that a value starting with the byte `b` causes. Lists and objects are not taken. -/
def unwanted (wanted : String) (b : UInt8) (bs : Bytes) : Failure :=
  if b == byte 'n' then mismatch wanted ((readWord ['u', 'l', 'l'] bs).map (.null, ·))
  else if b == byte 't' then mismatch wanted ((readWord ['r', 'u', 'e'] bs).map (.bool true, ·))
  else if b == byte 'f' then
    mismatch wanted ((readWord ['a', 'l', 's', 'e'] bs).map (.bool false, ·))
  else if b == byte '-' then mismatch wanted (readNumber true bs)
  else if isDigit b then mismatch wanted (readNumber false (b :: bs))
  else if b == byte '"' then mismatch wanted ((readLiteral bs).map fun r => (.text r.1, r.2))
  else if b == byte '[' then .after (.wrongType .list wanted) (b :: bs)
  else if b == byte '\x7b' then .after (.wrongType .object wanted) (b :: bs)
  else .after .expectedValue bs

/-- Takes a value that has to be a text. -/
def readTextValue (bs : Bytes) : Except Failure (String × Bytes) :=
  match skipSpace bs with
  | [] => .error (.after .endInValue [])
  | b :: rest => if b == byte '"' then readLiteral rest else .error (unwanted textName b rest)

/-- Takes the colon between a key and its value. -/
def readColon (bs : Bytes) : Except Failure Bytes :=
  match skipSpace bs with
  | [] => .error (.after .endInObject [])
  | b :: rest => if b == byte ':' then .ok rest else .error (.after .expectedColon rest)

/-- Names the member or element in which reading failed. -/
def inside {α : Type} (name : String) (r : Except Failure α) : Except Failure α :=
  r.mapError fun failure => { failure with inside := some name }

/-- Takes the value of a known member. -/
def readTextMember (key : String) (bs : Bytes) : Except Failure (String × Bytes) :=
  inside key ((readColon bs).bind readTextValue)

/-- Takes the value of an unknown member. -/
def skipMember (key : String) (bs : Bytes) : Except Failure Bytes :=
  inside key ((readColon bs).bind skipValue)

/-- Takes the closing bracket of an object whose reading has already been given up. -/
def skipClose (bs : Bytes) : Bytes :=
  match skipSpace bs with
  | b :: rest => if b == byte '\x7d' then rest else b :: rest
  | [] => []

/-- Where the next key starts, or that there is none. -/
inductive NextKey where
  /-- After the opening quote of a key. -/
  | key (rest : Bytes)
  /-- After the closing bracket. -/
  | close (rest : Bytes)

/-- Takes what stands before a key: a comma unless it is the first, and the opening quote. -/
def nextKey (first : Bool) (bs : Bytes) : Except Failure NextKey :=
  match skipSpace bs with
  | [] => .error (.after .endInObject [])
  | b :: rest =>
    if b == byte '\x7d' then .ok (.close rest)
    else if first then
      if b == byte '"' then .ok (.key rest) else .error (.after .keyNotText rest)
    else if b != byte ',' then .error (.after .expectedObjectEnd rest)
    else
      match skipSpace rest with
      | [] => .error (.after .endInValue [])
      | b :: rest =>
        if b == byte '"' then .ok (.key rest)
        else if b == byte '\x7d' then .error (.after .trailingComma rest)
        else .error (.after .keyNotText rest)

/-- Takes the members of an object, of which at most `fuel` are left. -/
def readMembers (fuel : Nat) (first : Bool) (known : Option String) (bs : Bytes) :
    Except Failure (DiagramRequest × Bytes) := do
  match ← nextKey first bs with
  | .close rest =>
    match known with
    | some uml => return (⟨uml⟩, rest)
    | none => .error (.after (.missingField "uml") rest)
  | .key rest =>
    let (key, rest) ← readLiteral rest
    match fuel with
    | 0 => .error (.after .endInObject [])
    | fuel + 1 =>
      if isTextKey key then
        if known.isSome then .error (.after (.duplicateField "uml") (skipClose rest))
        else
          let (uml, rest) ← readTextMember key rest
          readMembers fuel false (some uml) rest
      else
        let rest ← skipMember key rest
        readMembers fuel false known rest

/-- Takes the closing bracket of a list after its only element. -/
def readListEnd (bs : Bytes) : Except Failure Bytes :=
  match skipSpace bs with
  | [] => .error (.after .endInList [])
  | b :: rest =>
    if b == byte ']' then .ok rest
    else if b == byte ',' then
      let rest := skipSpace rest
      .error (.here
        (if rest.head? == some (byte ']') then .trailingComma else .trailingCharacters) rest)
    else .error (.after .trailingCharacters rest)

/-- Takes a list of one text after its opening bracket. -/
def readList (bs : Bytes) : Except Failure (DiagramRequest × Bytes) :=
  match skipSpace bs with
  | [] => inside "[0]" (.error (.after .endInList []))
  | b :: rest =>
    if b == byte ']' then
      .error (.after (.wrongLength 0 (typeName ++ " with 1 element")) rest)
    else do
      let (uml, rest) ← inside "[0]" (readTextValue (b :: rest))
      return (⟨uml⟩, ← readListEnd rest)

/-- Takes a request from the front of a body. -/
def read (bs : Bytes) : Except Failure (DiagramRequest × Bytes) :=
  match skipSpace bs with
  | [] => .error (.after .endInValue [])
  | b :: rest =>
    if b == byte '[' then readList rest
    else if b == byte '\x7b' then readMembers rest.length true none rest
    else .error (unwanted typeName b rest)

/-- Reads a body that holds a request and nothing else. -/
def ofBody (bs : Bytes) : Except Failure DiagramRequest := do
  let (request, rest) ← read bs
  let rest := skipSpace rest
  if rest.isEmpty then return request else .error (.here .trailingCharacters rest)

end DiagramRequest

end DiagramService
